import MonascaNotification.Spec.System

/-!
# No notification is lost on its way

Once an alarm is committed, each notification that was built from it is accounted for: a
plugin accepted it, or it waits uncommitted on the retry topic, or it was dropped for one of
three reasons. This holds with crashes between any two effects and for any answers.

The proof has two halves. The step that commits the alarm has handed every notification to a
plugin or put it on the retry topic before (`NotificationEngine.accounted`). From there the
retry topic is a relay: each committed retry step passes the notification on or resolves it
(`RetryEngine.forwards`), and the rule for relays does the rest.
-/

namespace MonascaNotification

open Infra Prog Network

variable {P : Platform} {W : Environment P} {conf : Config} {T : Notifiers}

/-- The message carries a notification: the id of its method, and its raw alarm. -/
def Carries (P : Platform) (m : KafkaValue) (key : Json × Json) : Prop :=
  ∃ n : Notification P, m = .dumps n.toJson ∧ n.id = key.1 ∧ n.rawAlarm = key.2

/-! ## The retry engine resolves or passes on -/

namespace RetryEngine

/-- Why a retry step dropped a notification. -/
inductive Dropped (conf : Config) (T : Notifiers) (key : Json × Json) (message : KafkaValue)
    (tr : PyTrace P) : Prop where
  /-- An answer of the database said that the method does not exist. -/
  | deleted : (⟨.getNotification key.1, (.ok none : Except PyExn (Option (List Json)))⟩ :
      PyEvent P) ∈ tr → Dropped conf T key message tr
  /-- No plugin is configured for the type that the step found. -/
  | unconfigured (n : Notification P) (tr₁ tr₂ : PyTrace P) : tr = tr₁ ++ tr₂ →
      Read message tr₁ (some n) → n.id = key.1 → n.rawAlarm = key.2 → T.find? n.type = none →
      Dropped conf T key message tr
  /-- The plugin did not accept it, and its count has reached the maximum. -/
  | exhausted (n : Notification P) (count : Json) : n ∈ sends tr → n ∉ deliveries tr →
      n.id = key.1 → n.rawAlarm = key.2 → n.retryCount.succ P = .ok count →
      count.ltInt conf.maxAttempts = .ok false → Dropped conf T key message tr

/-- A retry step has not put the notification back: it was accepted or dropped. -/
def Resolved (conf : Config) (T : Notifiers) (key : Json × Json) (message : KafkaValue)
    (tr : PyTrace P) : Prop :=
  (∃ n ∈ deliveries tr, n.id = key.1 ∧ n.rawAlarm = key.2) ∨ Dropped conf T key message tr

theorem forwards {message : KafkaValue} {tr : PyTrace P}
    (h : Performs conf T message tr .commit) (hadm : Trace.Admits Effect.Admissible tr)
    {key : Json × Json} (hkey : Carries P message key) :
    (∃ ev ∈ tr, ∃ m, (Topic.retry, m) ∈ ev.1.published ∧ Carries P m key) ∨
      Resolved conf T key message tr := by
  obtain ⟨n₀, rfl, hid, hraw⟩ := hkey
  -- what is read back has the id and the alarm of the message
  have hsame : ∀ {tr₁ : PyTrace P} {n}, Read (.dumps n₀.toJson) tr₁ (some n) →
      n.id = key.1 ∧ n.rawAlarm = key.2 := by
    intro tr₁ n hr
    obtain ⟨hi, ha, -, -⟩ := hr.refreshed.some
    exact ⟨hi.trans hid, ha.trans hraw⟩
  cases h with
  | silent hs => cases hs
  | drop hr =>
    have hdel := hr.refreshed.deleted_of_none hadm
    refine Or.inr (Or.inr (.deleted ?_))
    rw [← hid]
    exact hdel.mem
  | @invalid tr₁ tr₂ tr₃ n hr hw hh =>
    obtain ⟨hi, ha⟩ := hsame hr
    obtain ⟨hfind, -⟩ := hh.of_invalid
    exact Or.inr (Or.inr (.unconfigured n tr₁ (tr₂ ++ tr₃) (by simp) hr hi ha hfind))
  | @sent tr₁ tr₂ tr₃ n m hr hw hh =>
    obtain ⟨hi, ha⟩ := hsame hr
    obtain ⟨-, -, now, rfl⟩ := hh.of_sent
    refine Or.inr (Or.inl ⟨n.stamp now, ?_, hi, ha⟩)
    simp [hh.deliveries]
  | @requeued tr₁ tr₂ tr₃ n m count now hr hw hh _ _ =>
    obtain ⟨hi, ha⟩ := hsame hr
    obtain ⟨-, -, t, rfl⟩ := hh.of_failed
    refine Or.inl ⟨publishes P .retry
      [({ n.stamp t with retryCount := count }.stamp now).toJson], by simp, ?_⟩
    exact ⟨_, List.mem_singleton_self _, { n.stamp t with retryCount := count }.stamp now, rfl,
      hi, ha⟩
  | @exhausted tr₁ tr₂ tr₃ n m count now hr hw hh hcount hge =>
    obtain ⟨hi, ha⟩ := hsame hr
    obtain ⟨-, hsends, t, rfl⟩ := hh.of_failed
    refine Or.inr (Or.inr (.exhausted (n.stamp t) count ?_ ?_ hi ha hcount hge))
    · simp [hsends]
    · simp [hr.quiet.deliveries, hw.quiet.deliveries, hh.deliveries, deliveries_cons, delivered]

end RetryEngine

theorem retry_relays {mayCrash : Prop} : (contract W conf T mayCrash).Relays .retry (Carries P)
    (RetryEngine.Resolved conf T) where
  toCommitsOnce := commitsOnce .retry
  forwards := by
    intro o m tr e hadm h he key hkey
    cases e with
    | commit => exact RetryEngine.forwards h hadm hkey
    | _ => cases he

/-! ## The notification engine sends or queues -/

/-- What the engine has done, before it commits, with a notification that it built. -/
theorem NotificationEngine.accounted {alarm : RawAlarm} {tr : PyTrace P}
    (h : Performs conf T alarm tr .commit) :
    ∃ ns tr₁ tr₂, tr = tr₁ ++ tr₂ ∧ Built P conf alarm tr₁ ns ∧ ∀ n ∈ ns,
      (∃ m ∈ deliveries tr, m.id = n.id ∧ m.rawAlarm = n.rawAlarm) ∨
      (∃ ev ∈ tr, ∃ m, (Topic.retry, m) ∈ ev.1.published ∧ Carries P m (n.id, n.rawAlarm)) ∨
      T.find? n.type = none := by
  cases h with
  | silent hs => cases hs
  | nothing hb => exact ⟨[], tr, [], by simp, hb, by simp⟩
  | @commit tr₁ tr₂ tr₃ ns ns' sent failed hb ho hh =>
    refine ⟨ns, tr₁, _, by rw [List.append_assoc, List.append_assoc], hb, fun n hn => ?_⟩
    -- the object in the list is the one that was built, perhaps with a new timestamp
    obtain ⟨n', hn', hid, hraw, htype⟩ : ∃ n' ∈ ns', n'.id = n.id ∧ n'.rawAlarm = n.rawAlarm ∧
        n'.type = n.type := by
      obtain ⟨k, hk⟩ := List.mem_iff_getElem?.mp hn
      obtain ⟨n', hn', hrel⟩ := ho.exists_getElem? hk
      refine ⟨n', List.mem_of_getElem? hn', ?_⟩
      rcases hrel with rfl | ⟨now, rfl⟩ <;> exact ⟨rfl, rfl, rfl⟩
    rcases hh.of_mem hn' with ⟨now, hsent⟩ | ⟨now, hfailed⟩ | hfind
    · refine Or.inl ⟨n'.stamp now, ?_, hid, hraw⟩
      simp [hh.deliveries, hsent]
    · refine Or.inr (Or.inl ⟨publishes P .retry (failed.map Notification.toJson), by simp, ?_⟩)
      refine ⟨.dumps (n'.stamp now).toJson, ?_, n'.stamp now, rfl, hid, hraw⟩
      simp only [Effect.published_publish, List.map_map, List.mem_map, Function.comp]
      exact ⟨n'.stamp now, hfailed, rfl⟩
    · exact Or.inr (Or.inr (htype ▸ hfind))

/-- The notifications that a committed step of the notification engine built from its alarm. -/
def BuiltIn (conf : Config) (st : CommittedStep (Engine conf) KafkaValue (Effect P) Effect.Answer)
    (ns : List (Notification P)) : Prop :=
  ∃ tr₁ tr₂, st.trace = tr₁ ++ tr₂ ∧
    NotificationEngine.Built P conf ⟨0, st.offset, st.msg⟩ tr₁ ns

theorem BuiltIn.unique {st : CommittedStep (Engine conf) KafkaValue (Effect P) Effect.Answer}
    {ns ns' : List (Notification P)} (h : BuiltIn conf st ns) (h' : BuiltIn conf st ns') :
    ns = ns' := by
  obtain ⟨tr₁, tr₂, htr, p, o, hrun⟩ := h
  obtain ⟨tr₁', tr₂', htr', p', o', hrun'⟩ := h'
  obtain ⟨-, hout⟩ := hrun.unique hrun' (htr.symm.trans htr')
  cases hout
  rfl

/-! ## The whole way -/

/-- Where a notification that was built from an alarm is. -/
inductive Accounted (mayCrash : Prop) (T : Notifiers) (s : SystemState W conf)
    (n : Notification P) : Prop where
  /-- A plugin returned a true value for it. -/
  | accepted (i : Engine conf) (ev : PyEvent P) (m : Notification P) : (i, ev) ∈ s.history →
      delivered ev = some m → m.id = n.id → m.rawAlarm = n.rawAlarm → Accounted mayCrash T s n
  /-- An uncommitted message on the retry topic carries its id and its raw alarm. -/
  | waiting : Pending (system W conf T mayCrash) s .retry (Carries P) (n.id, n.rawAlarm) →
      Accounted mayCrash T s n
  /-- The step that built it found no plugin for its type. -/
  | unconfigured : T.find? n.type = none → Accounted mayCrash T s n
  /-- A committed step of the retry engine on a message that carried it dropped it. -/
  | dropped (st : CommittedStep (Engine conf) KafkaValue (Effect P) Effect.Answer) :
      st ∈ s.steps → st.proc = .retry → Carries P st.msg (n.id, n.rawAlarm) →
      RetryEngine.Dropped conf T (n.id, n.rawAlarm) st.msg st.trace → Accounted mayCrash T s n

/-- What was put on the retry topic is accounted for from then on. -/
theorem Accounted.of_mem_retry {mayCrash : Prop} {s : SystemState W conf}
    (h : Reachable (system W conf T mayCrash) s) {m : KafkaValue} (hm : m ∈ s.log .retry)
    {n : Notification P} (hn : Carries P m (n.id, n.rawAlarm)) :
    Accounted mayCrash T s n := by
  rcases relay retry_relays h m hm hn with hp | ⟨st, hst, hproc, hcar, ⟨n', hn', hid, hraw⟩ | hd⟩
  · exact .waiting hp
  · obtain ⟨ev, hev, hdel⟩ := List.mem_filterMap.mp hn'
    exact .accepted st.proc ev n' ((historyInv_reachable h).steps st hst ev hev) hdel hid hraw
  · exact .dropped st hst hproc hcar hd

/--
**No notification is lost.** In every reachable state, with crashes at any point, each
committed offset of the alarm topic belongs to a committed step, and every notification that
the step built from its alarm is accounted for.
-/
theorem notification_accounted {s : SystemState W conf}
    (h : Reachable (system W conf T True) s) :
    (∀ o < s.committed .notification, ∃ st ∈ s.steps, st.proc = .notification ∧ st.offset = o ∧
      (s.log .alarm)[o]? = some st.msg) ∧
    ∀ st ∈ s.steps, st.proc = .notification → (∃ ns, BuiltIn conf st ns) ∧
      ∀ ns, BuiltIn conf st ns → ∀ n ∈ ns, Accounted True T s n := by
  refine ⟨fun o ho => exists_step_of_committed (contract W conf T True) (commitsOnce _) h ho, ?_⟩
  intro st hst hproc
  obtain ⟨hperf, -, -⟩ := performs_of_step h hst
  rw [hproc] at hperf
  obtain ⟨ns, tr₁, tr₂, htr, hbuilt, hns⟩ := NotificationEngine.accounted hperf
  have hin : BuiltIn conf st ns := ⟨tr₁, tr₂, htr, hbuilt⟩
  have hhist := historyInv_reachable h
  refine ⟨⟨ns, hin⟩, fun ns' hin' n hn => ?_⟩
  rw [hin'.unique hin] at hn
  rcases hns n hn with ⟨m, hm, hid, hraw⟩ | ⟨ev, hev, m, hpub, hcar⟩ | hfind
  · obtain ⟨ev, hev, hdel⟩ := List.mem_filterMap.mp hm
    exact .accepted st.proc ev m (hhist.steps st hst ev hev) hdel hid hraw
  · have hlog : m ∈ s.log .retry := hhist.published _ (hhist.steps st hst ev hev) _ hpub
    exact .of_mem_retry h hlog hcar
  · exact .unconfigured hfind

/-- The first send of the deployment failed: its alarm is committed. -/
theorem notification_accounted_started :
    (Deployment.started false).committed .notification = 1 ∧
    ∀ st ∈ (Deployment.started false).steps, st.proc = .notification →
      (∃ ns, BuiltIn Deployment.conf st ns) ∧ ∀ ns, BuiltIn Deployment.conf st ns → ∀ n ∈ ns,
        Accounted True Deployment.notifiers (Deployment.started false) n :=
  ⟨by decide +kernel,
    (notification_accounted (reachable_of_no_crash (Deployment.reachable_started false))).2⟩

end MonascaNotification
