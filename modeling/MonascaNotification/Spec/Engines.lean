import MonascaNotification.Spec.AlarmProcessor
import MonascaNotification.Spec.Refresh

/-!
# What the engines do, effect by effect

For each engine a relation `Performs`: after which traces its loop body performs which effect.
There is one constructor for each point of the loop at which a plugin or the broker is
reached, and it says what lies behind. `performs_body` shows that the relation misses nothing,
`runs_body` that a loop body that returns has ended with its commit.

Every later proof about an engine is a case analysis of this relation.
-/

namespace MonascaNotification

open Infra Prog

variable {P : Platform} {conf : Config} {T : Notifiers}

/-- An event that publishes `messages` on `topic`. -/
abbrev publishes (P : Platform) (topic : Topic) (messages : List Json) : PyEvent P :=
  ⟨.publish topic messages, ()⟩

theorem performs_publish {topic : Topic} {messages : List Json} {tr : PyTrace P} {e : Effect P}
    (h : Prog.Performs (Py.publish topic messages : Py P Unit) tr e) :
    tr = [] ∧ e = .publish topic messages := by
  rcases h with h | ⟨_, _, -, h⟩
  · exact h
  · cases h

theorem runs_publish {topic : Topic} {messages : List Json} {tr : PyTrace P}
    {out : Except PyExn Unit} (h : Runs (Py.publish topic messages : Py P Unit) tr out) :
    tr = [publishes P topic messages] := by
  obtain ⟨_, _, rfl, rfl, -⟩ := h
  rfl

theorem performs_commit {tr : PyTrace P} {e : Effect P}
    (h : Prog.Performs (Py.commit : Py P Unit) tr e) : tr = [] ∧ e = .commit := by
  rcases h with h | ⟨_, _, -, h⟩
  · exact h
  · cases h

theorem runs_commit {tr : PyTrace P} {out : Except PyExn Unit}
    (h : Runs (Py.commit : Py P Unit) tr out) : tr = [⟨.commit, ()⟩] := by
  obtain ⟨_, _, rfl, rfl, -⟩ := h
  rfl

/-! ## `NotificationEngine` -/

namespace NotificationEngine

/--
`_add_periodic_notifications` along a trace: a notification whose period has a topic is
published there, with the time of that publish.
-/
inductive Opens (conf : Config) :
    List (Notification P) → PyTrace P → List (Notification P) → Prop where
  | nil : Opens conf [] [] []
  | periodic {n ns tr ns' topicName now} :
      conf.periodic.lookup (n.period.toStr P) = some topicName → Opens conf ns tr ns' →
      Opens conf (n :: ns)
        (⟨.time, now⟩ :: publishes P (.periodic topicName) [(n.stamp now).toJson] :: tr)
        (n.stamp now :: ns')
  | other {n ns tr ns'} : conf.periodic.lookup (n.period.toStr P) = none →
      Opens conf ns tr ns' → Opens conf (n :: ns) tr (n :: ns')

namespace Opens

variable {ns ns' : List (Notification P)} {tr : PyTrace P}

/-- The objects are the same, some with a new timestamp. -/
theorem exists_getElem? (h : Opens conf ns tr ns') {k : Nat} {n : Notification P}
    (hk : ns[k]? = some n) : ∃ n', ns'[k]? = some n' ∧ (n' = n ∨ ∃ now, n' = n.stamp now) := by
  induction h generalizing k with
  | nil => cases hk
  | @periodic m _ _ _ _ now _ _ ih =>
    cases k with
    | zero =>
      cases hk
      exact ⟨_, rfl, Or.inr ⟨now, rfl⟩⟩
    | succ k => exact ih hk
  | @other m _ _ _ _ _ ih =>
    cases k with
    | zero =>
      cases hk
      exact ⟨_, rfl, Or.inl rfl⟩
    | succ k => exact ih hk

theorem of_mem (h : Opens conf ns tr ns') {n' : Notification P} (hn' : n' ∈ ns') :
    ∃ n ∈ ns, n' = n ∨ ∃ now, n' = n.stamp now := by
  induction h with
  | nil => cases hn'
  | @periodic m _ _ _ _ now _ _ ih =>
    rcases List.mem_cons.mp hn' with rfl | hn'
    · exact ⟨m, List.mem_cons_self, Or.inr ⟨now, rfl⟩⟩
    · obtain ⟨n, hn, hrel⟩ := ih hn'
      exact ⟨n, List.mem_cons_of_mem _ hn, hrel⟩
  | other _ _ ih =>
    rcases List.mem_cons.mp hn' with rfl | hn'
    · exact ⟨_, List.mem_cons_self, Or.inl rfl⟩
    · obtain ⟨n, hn, hrel⟩ := ih hn'
      exact ⟨n, List.mem_cons_of_mem _ hn, hrel⟩

theorem sends (h : Opens conf ns tr ns') : sends tr = [] := by
  induction h with
  | nil => rfl
  | periodic _ _ ih => simpa [sends_cons, attempted] using ih
  | other _ _ ih => exact ih

theorem map_id (h : Opens conf ns tr ns') : ns'.map (·.id) = ns.map (·.id) := by
  induction h with
  | nil => rfl
  | periodic _ _ ih => rw [List.map_cons, List.map_cons, ih, Notification.stamp_id]
  | other _ _ ih => rw [List.map_cons, List.map_cons, ih]

theorem isCommit (h : Opens conf ns tr ns') : ∀ ev ∈ tr, ev.1.isCommit = false := by
  induction h with
  | nil => simp
  | periodic _ _ ih => simpa [Effect.isCommit] using ih
  | other _ _ ih => exact ih

theorem deliveries (h : Opens conf ns tr ns') : deliveries tr = [] := by
  induction h with
  | nil => rfl
  | periodic _ _ ih => simpa [deliveries_cons, delivered] using ih
  | other _ _ ih => exact ih

/-- What is published here are documents of the notifications, on topics of periods. -/
theorem of_mem_publications (h : Opens conf ns tr ns') :
    ∀ p ∈ publications tr, ∃ topicName, ∃ n ∈ ns, ∃ now,
      conf.periodic.lookup (n.period.toStr P) = some topicName ∧
      p = (.periodic topicName, .dumps (n.stamp now).toJson) := by
  induction h with
  | nil => simp
  | @periodic n _ _ _ topicName now hlook _ ih =>
    intro p hp
    rw [publications_cons, publications_cons] at hp
    rcases List.mem_append.mp hp with hp | hp
    · cases hp
    rcases List.mem_append.mp hp with hp | hp
    · have hpub : p = (.periodic topicName, .dumps (n.stamp now).toJson) := by
        simpa using hp
      exact ⟨topicName, n, List.mem_cons_self, now, hlook, hpub⟩
    · obtain ⟨t, m, hm, rest⟩ := ih p hp
      exact ⟨t, m, List.mem_cons_of_mem _ hm, rest⟩
  | other _ _ ih =>
    intro p hp
    obtain ⟨t, m, hm, rest⟩ := ih p hp
    exact ⟨t, m, List.mem_cons_of_mem _ hm, rest⟩

end Opens

theorem runs_addPeriodicNotifications {ns ns' : List (Notification P)} {tr : PyTrace P}
    (h : Runs (addPeriodicNotifications conf ns) tr (.ok ns')) : Opens conf ns tr ns' := by
  induction ns generalizing tr ns' with
  | nil =>
    obtain ⟨rfl, h⟩ := h
    cases h
    exact .nil
  | cons n ns ih =>
    unfold addPeriodicNotifications at h
    split at h
    · next topicName hlook =>
      replace h := runs_bind_ok.mp h
      obtain ⟨tr₁, tr₂, now, rfl, ⟨t, _, rfl, rfl, hnow⟩, h⟩ := h
      cases hnow
      replace h := runs_bind_ok.mp h
      obtain ⟨tr₃, tr₄, _, rfl, hpub, h⟩ := h
      rw [runs_publish hpub]
      obtain ⟨tr₅, tr₆, rest, rfl, hrest, rfl, hout⟩ := runs_bind_ok.mp h
      cases hout
      rw [List.append_nil]
      exact .periodic hlook (ih hrest)
    · next hlook =>
      obtain ⟨tr₅, tr₆, rest, rfl, hrest, rfl, hout⟩ := runs_bind_ok.mp h
      cases hout
      rw [List.append_nil]
      exact .other hlook (ih hrest)

theorem performs_addPeriodicNotifications {ns : List (Notification P)} {tr : PyTrace P}
    {e : Effect P} (h : Prog.Performs (addPeriodicNotifications conf ns) tr e) :
    e.Silent ∨ ∃ pre n post pre' tr' now topicName, ns = pre ++ n :: post ∧
      Opens conf pre tr' pre' ∧ tr = tr' ++ [⟨.time, now⟩] ∧
      conf.periodic.lookup (n.period.toStr P) = some topicName ∧
      e = .publish (.periodic topicName) [(n.stamp now).toJson] := by
  induction ns generalizing tr with
  | nil => cases h
  | cons n ns ih =>
    unfold addPeriodicNotifications at h
    split at h
    · next topicName hlook =>
      replace h := performs_bind.mp h
      rcases h with h | ⟨tr₁, tr₂, now, rfl, ⟨t, _, rfl, rfl, hnow⟩, h⟩
      · exact Or.inl (Py.uses_time.performs h)
      cases hnow
      replace h := performs_bind.mp h
      rcases h with h | ⟨tr₃, tr₄, _, rfl, hpub, h⟩
      · obtain ⟨rfl, rfl⟩ := performs_publish h
        exact Or.inr ⟨[], n, ns, [], [], now, topicName, rfl, .nil, rfl, hlook, rfl⟩
      rw [runs_publish hpub]
      replace h := performs_bind.mp h
      rcases h with h | ⟨_, _, _, -, -, h⟩
      · rcases ih h with hs | ⟨pre, m, post, pre', tr', now, topic, rfl, hopen, rfl, hm, rfl⟩
        · exact Or.inl hs
        · exact Or.inr ⟨n :: pre, m, post, _, _, now, topic, rfl, .periodic hlook hopen, rfl, hm,
            rfl⟩
      · cases h
    · next hlook =>
      replace h := performs_bind.mp h
      rcases h with h | ⟨_, _, _, -, -, h⟩
      · rcases ih h with hs | ⟨pre, m, post, pre', tr', now, topic, rfl, hopen, rfl, hm, rfl⟩
        · exact Or.inl hs
        · exact Or.inr ⟨n :: pre, m, post, _, _, now, topic, rfl, .other hlook hopen, rfl, hm,
            rfl⟩
      · cases h

/-- `to_notification` returned `ns`. -/
def Built (P : Platform) (conf : Config) (alarm : RawAlarm) (tr : PyTrace P)
    (ns : List (Notification P)) : Prop :=
  ∃ p o, Runs (AlarmProcessor.toNotification P conf alarm) tr (.ok (ns, p, o))

theorem Built.quiet {alarm : RawAlarm} {tr : PyTrace P} {ns : List (Notification P)}
    (h : Built P conf alarm tr ns) : Quiet tr := by
  obtain ⟨p, o, h⟩ := h
  exact (AlarmProcessor.uses_toNotification alarm).runs h

theorem Built.retryCount {alarm : RawAlarm} {tr : PyTrace P} {ns : List (Notification P)}
    (h : Built P conf alarm tr ns) {n : Notification P} (hn : n ∈ ns) : n.retryCount = .int 0 := by
  obtain ⟨p, o, h⟩ := h
  obtain ⟨_, _, -, -, hbuilt⟩ := AlarmProcessor.runs_toNotification h (List.ne_nil_of_mem hn)
  exact (hbuilt.of_mem hn).2.1

/-- After which traces the loop body performs which effect. -/
inductive Performs (conf : Config) (T : Notifiers) (alarm : RawAlarm) :
    PyTrace P → Effect P → Prop where
  | silent {tr e} : e.Silent → Performs conf T alarm tr e
  | plugin {tr notifier n} : Performs conf T alarm tr (.sendNotification notifier n)
  | nothing {tr} : Built P conf alarm tr [] → Performs conf T alarm tr .commit
  | opens {tr₁ tr₂ pre n post pre' now topicName} :
      Built P conf alarm tr₁ (pre ++ n :: post) → Opens conf pre tr₂ pre' →
      conf.periodic.lookup (n.period.toStr P) = some topicName →
      Performs conf T alarm (tr₁ ++ tr₂ ++ [⟨.time, now⟩])
        (.publish (.periodic topicName) [(n.stamp now).toJson])
  | record {tr₁ tr₂ tr₃ ns ns' sent failed} :
      Built P conf alarm tr₁ ns → Opens conf ns tr₂ ns' → Handled T ns' tr₃ sent failed →
      Performs conf T alarm (tr₁ ++ tr₂ ++ tr₃)
        (.publish .notification (sent.map Notification.toJson))
  | requeue {tr₁ tr₂ tr₃ ns ns' sent failed} :
      Built P conf alarm tr₁ ns → Opens conf ns tr₂ ns' → Handled T ns' tr₃ sent failed →
      Performs conf T alarm
        (tr₁ ++ tr₂ ++ tr₃ ++ [publishes P .notification (sent.map Notification.toJson)])
        (.publish .retry (failed.map Notification.toJson))
  | commit {tr₁ tr₂ tr₃ ns ns' sent failed} :
      Built P conf alarm tr₁ ns → Opens conf ns tr₂ ns' → Handled T ns' tr₃ sent failed →
      Performs conf T alarm
        (tr₁ ++ tr₂ ++ tr₃ ++ [publishes P .notification (sent.map Notification.toJson),
          publishes P .retry (failed.map Notification.toJson)]) .commit

theorem performs_body {alarm : RawAlarm} {tr : PyTrace P} {e : Effect P}
    (h : Prog.Performs (body conf T alarm) tr e) : Performs conf T alarm tr e := by
  have hcount : ∀ {counter value} {tr : PyTrace P},
      Prog.Performs (Py.increment counter value : Py P Unit) tr e → e.Silent :=
    fun hperf => (Py.uses_increment _ _).performs hperf
  unfold body at h
  replace h := performs_bind.mp h
  rcases h with h | ⟨tr₁, tr₂, ⟨ns, p, o⟩, rfl, hbuilt, h⟩
  · exact .silent ((AlarmProcessor.uses_toNotification alarm).performs h)
  have hbuilt : Built P conf alarm tr₁ ns := ⟨p, o, hbuilt⟩
  dsimp only at h
  split at h
  · replace h := performs_bind.mp h
    rcases h with h | ⟨tr₃, tr₄, ns', rfl, hopens, h⟩
    · rcases performs_addPeriodicNotifications h with
        hs | ⟨pre, n, post, pre', tr', now, topic, rfl, hopen, rfl, hlook, rfl⟩
      · exact .silent hs
      · rw [← List.append_assoc]
        exact .opens hbuilt hopen hlook
    have hopens := runs_addPeriodicNotifications hopens
    replace h := performs_bind.mp h
    rcases h with h | ⟨tr₅, tr₆, ⟨sent, failed⟩, rfl, hsend, h⟩
    · have hlocal : e.Local := ((uses_send T ns').performs h).local
      cases e with
      | sendNotification notifier n => exact .plugin
      | publish topic messages => cases hlocal
      | commit => cases hlocal
      | _ => exact .silent trivial
    have hsend := runs_send hsend
    dsimp only at h
    replace h := performs_bind.mp h
    rcases h with h | ⟨tr₇, tr₈, _, rfl, hpub, h⟩
    · obtain ⟨rfl, rfl⟩ := performs_publish h
      simpa using Performs.record hbuilt hopens hsend
    rw [runs_publish hpub]
    replace h := performs_bind.mp h
    rcases h with h | ⟨tr₉, tr₁₀, _, rfl, hpub', h⟩
    · obtain ⟨rfl, rfl⟩ := performs_publish h
      simpa using Performs.requeue hbuilt hopens hsend
    rw [runs_publish hpub']
    replace h := performs_bind.mp h
    rcases h with h | ⟨_, _, _, -, -, h⟩
    · obtain ⟨rfl, rfl⟩ := performs_commit h
      simpa using Performs.commit hbuilt hopens hsend
    · exact .silent (hcount h)
  · next hnil =>
    have hnil : ns = [] := by simpa using hnil
    subst hnil
    replace h := performs_bind.mp h
    rcases h with h | ⟨_, _, _, -, -, h⟩
    · obtain ⟨rfl, rfl⟩ := performs_commit h
      simpa using Performs.nothing hbuilt
    · exact .silent (hcount h)

theorem runs_body {alarm : RawAlarm} {tr : PyTrace P}
    (h : Runs (body conf T alarm) tr (.ok ())) :
    ∃ tr', tr = tr' ++ [⟨.commit, ()⟩, ⟨.increment "alarms_finished_count" 1, ()⟩] ∧
      Performs conf T alarm tr' .commit := by
  have hend : ∀ {tr : PyTrace P}, Runs (do Py.commit; Py.increment "alarms_finished_count" 1)
      tr (.ok ()) → tr = [⟨.commit, ()⟩, ⟨.increment "alarms_finished_count" 1, ()⟩] := by
    rintro tr ⟨_, _, rfl, _, _, rfl, rfl, -⟩
    rfl
  have hsuffix : ∃ tr',
      tr = tr' ++ [⟨.commit, ()⟩, ⟨.increment "alarms_finished_count" 1, ()⟩] := by
    have h' := h
    unfold body at h'
    replace h' := runs_bind_ok.mp h'
    obtain ⟨tr₁, tr₂, ⟨ns, p, o⟩, rfl, -, h'⟩ := h'
    dsimp only at h'
    split at h'
    · replace h' := runs_bind_ok.mp h'
      obtain ⟨tr₃, tr₄, ns', rfl, -, h'⟩ := h'
      replace h' := runs_bind_ok.mp h'
      obtain ⟨tr₅, tr₆, ⟨sent, failed⟩, rfl, -, h'⟩ := h'
      replace h' := runs_bind_ok.mp h'
      obtain ⟨tr₇, tr₈, _, rfl, -, h'⟩ := h'
      replace h' := runs_bind_ok.mp h'
      obtain ⟨tr₉, tr₁₀, _, rfl, -, h'⟩ := h'
      rw [hend h']
      exact ⟨tr₁ ++ (tr₃ ++ (tr₅ ++ (tr₇ ++ tr₉))), by simp⟩
    · rw [hend h']
      exact ⟨tr₁, rfl⟩
  obtain ⟨tr', rfl⟩ := hsuffix
  exact ⟨tr', rfl, performs_body (h.performs)⟩

/-- The traces along which the loop body returns. -/
inductive Finished (conf : Config) (T : Notifiers) (alarm : RawAlarm) : PyTrace P → Prop where
  | nothing {tr p o} : Runs (AlarmProcessor.toNotification P conf alarm) tr (.ok ([], p, o)) →
      Finished conf T alarm (tr ++ [⟨.commit, ()⟩, ⟨.increment "alarms_finished_count" 1, ()⟩])
  | handled {tr₁ tr₂ tr₃ p o ns ns' sent failed} :
      Runs (AlarmProcessor.toNotification P conf alarm) tr₁ (.ok (ns, p, o)) → ns ≠ [] →
      Opens conf ns tr₂ ns' → Runs (send T ns') tr₃ (.ok (sent, failed)) →
      Finished conf T alarm (tr₁ ++ tr₂ ++ tr₃ ++
        [publishes P .notification (sent.map Notification.toJson),
          publishes P .retry (failed.map Notification.toJson), ⟨.commit, ()⟩,
          ⟨.increment "alarms_finished_count" 1, ()⟩])

theorem runs_body_finished {alarm : RawAlarm} {tr : PyTrace P}
    (h : Runs (body conf T alarm) tr (.ok ())) : Finished conf T alarm tr := by
  have hend : ∀ {tr : PyTrace P}, Runs (do Py.commit; Py.increment "alarms_finished_count" 1)
      tr (.ok ()) → tr = [⟨.commit, ()⟩, ⟨.increment "alarms_finished_count" 1, ()⟩] := by
    rintro tr ⟨_, _, rfl, _, _, rfl, rfl, -⟩
    rfl
  unfold body at h
  replace h := runs_bind_ok.mp h
  obtain ⟨tr₁, tr₂, ⟨ns, p, o⟩, rfl, hbuilt, h⟩ := h
  dsimp only at h
  split at h
  · next hne =>
    replace h := runs_bind_ok.mp h
    obtain ⟨tr₃, tr₄, ns', rfl, hopens, h⟩ := h
    replace h := runs_bind_ok.mp h
    obtain ⟨tr₅, tr₆, ⟨sent, failed⟩, rfl, hsend, h⟩ := h
    replace h := runs_bind_ok.mp h
    obtain ⟨tr₇, tr₈, _, rfl, hpub, h⟩ := h
    replace h := runs_bind_ok.mp h
    obtain ⟨tr₉, tr₁₀, _, rfl, hpub', h⟩ := h
    rw [runs_publish hpub, runs_publish hpub', hend h]
    simpa using Finished.handled hbuilt hne (runs_addPeriodicNotifications hopens) hsend
  · next hnil =>
    obtain rfl : ns = [] := by simpa using hnil
    rw [hend h]
    exact .nothing hbuilt

/-- A plugin gets what was built for the alarm, in its order. -/
theorem performs_body_plugin {alarm : RawAlarm} {tr : PyTrace P} {notifier : Notifier}
    {n : Notification P} (h : Prog.Performs (body conf T alarm) tr (.sendNotification notifier n)) :
    ∃ tr₁ tr₂ tr₃ ns ns', tr = tr₁ ++ tr₂ ++ tr₃ ∧ Built P conf alarm tr₁ ns ∧
      Opens conf ns tr₂ ns' ∧ Handing T ns' tr₃ notifier n := by
  have hend : ∀ {tr : PyTrace P},
      ¬ Prog.Performs (do Py.commit; Py.increment "alarms_finished_count" 1) tr
        (.sendNotification notifier n : Effect P) := by
    intro tr h
    rcases performs_bind.mp h with h | ⟨_, _, _, -, -, h⟩
    · cases (performs_commit h).2
    · exact (Py.uses_increment _ _).performs h
  unfold body at h
  replace h := performs_bind.mp h
  rcases h with h | ⟨tr₁, tr₂, ⟨ns, p, o⟩, rfl, hbuilt, h⟩
  · exact ((AlarmProcessor.uses_toNotification alarm).performs h).elim
  dsimp only at h
  split at h
  · replace h := performs_bind.mp h
    rcases h with h | ⟨tr₃, tr₄, ns', rfl, hopens, h⟩
    · rcases performs_addPeriodicNotifications h with hs | ⟨_, _, _, _, _, _, _, -, -, -, -, heq⟩
      · exact hs.elim
      · cases heq
    replace h := performs_bind.mp h
    rcases h with h | ⟨tr₅, tr₆, ⟨sent, failed⟩, -, -, h⟩
    · exact ⟨tr₁, tr₃, tr₄, ns, ns', (List.append_assoc _ _ _).symm, ⟨p, o, hbuilt⟩,
        runs_addPeriodicNotifications hopens, performs_send_plugin h⟩
    dsimp only at h
    rcases performs_bind.mp h with h | ⟨_, _, _, -, -, h⟩
    · cases (performs_publish h).2
    rcases performs_bind.mp h with h | ⟨_, _, _, -, -, h⟩
    · cases (performs_publish h).2
    exact absurd h hend
  · exact absurd h hend

end NotificationEngine

/-! ## The two engines that read notifications -/

/-- The message was read into `r`: a notification with its stored method, or nothing to send. -/
def Read (message : KafkaValue) (tr : PyTrace P) (r : Option (Notification P)) : Prop :=
  ∃ data, P.jsonLoads message = .ok data ∧ Runs (constructNotificationObject data) tr (.ok r)

theorem Read.quiet {message : KafkaValue} {tr : PyTrace P} {r : Option (Notification P)}
    (h : Read message tr r) : Quiet tr := by
  obtain ⟨data, -, h⟩ := h
  exact (uses_constructNotificationObject data).runs h

/-- A message that an engine wrote is read back, up to the timestamp, and then refreshed. -/
theorem Read.refreshed {n : Notification P} {tr : PyTrace P} {r : Option (Notification P)}
    (h : Read (.dumps n.toJson) tr r) :
    Refreshed { n with notificationTimestamp := .null } tr r := by
  obtain ⟨data, hdata, h⟩ := h
  cases hdata
  exact runs_constructNotificationObject (decodeNotification_toJson n) h

/-! ## `RetryEngine` -/

namespace RetryEngine

/-- After which traces the loop body performs which effect. -/
inductive Performs (conf : Config) (T : Notifiers) (message : KafkaValue) :
    PyTrace P → Effect P → Prop where
  | silent {tr e} : e.Silent → Performs conf T message tr e
  | drop {tr} : Read message tr none → Performs conf T message tr .commit
  | plugin {tr₁ tr₂ n notifier now} : Read message tr₁ (some n) → Waited tr₂ →
      T.find? n.type = some notifier →
      Performs conf T message (tr₁ ++ tr₂ ++ [⟨.time, now⟩])
        (.sendNotification notifier (n.stamp now))
  | invalid {tr₁ tr₂ tr₃ n} : Read message tr₁ (some n) → Waited tr₂ →
      Handled T [n] tr₃ [] [] → Performs conf T message (tr₁ ++ tr₂ ++ tr₃) .commit
  | record {tr₁ tr₂ tr₃ n m} : Read message tr₁ (some n) → Waited tr₂ →
      Handled T [n] tr₃ [m] [] →
      Performs conf T message (tr₁ ++ tr₂ ++ tr₃) (.publish .notification [m.toJson])
  | sent {tr₁ tr₂ tr₃ n m} : Read message tr₁ (some n) → Waited tr₂ →
      Handled T [n] tr₃ [m] [] →
      Performs conf T message (tr₁ ++ tr₂ ++ tr₃ ++ [publishes P .notification [m.toJson]])
        .commit
  | requeue {tr₁ tr₂ tr₃ n m count now} : Read message tr₁ (some n) → Waited tr₂ →
      Handled T [n] tr₃ [] [m] → m.retryCount.succ P = .ok count →
      count.ltInt conf.maxAttempts = .ok true →
      Performs conf T message (tr₁ ++ tr₂ ++ tr₃ ++ [⟨.time, now⟩])
        (.publish .retry [({ m with retryCount := count }.stamp now).toJson])
  | requeued {tr₁ tr₂ tr₃ n m count now} : Read message tr₁ (some n) → Waited tr₂ →
      Handled T [n] tr₃ [] [m] → m.retryCount.succ P = .ok count →
      count.ltInt conf.maxAttempts = .ok true →
      Performs conf T message (tr₁ ++ tr₂ ++ tr₃ ++ [⟨.time, now⟩,
        publishes P .retry [({ m with retryCount := count }.stamp now).toJson]]) .commit
  | exhausted {tr₁ tr₂ tr₃ n m count now} : Read message tr₁ (some n) → Waited tr₂ →
      Handled T [n] tr₃ [] [m] → m.retryCount.succ P = .ok count →
      count.ltInt conf.maxAttempts = .ok false →
      Performs conf T message (tr₁ ++ tr₂ ++ tr₃ ++ [⟨.time, now⟩]) .commit

theorem performs_afterFailure {m : Notification P} {tr : PyTrace P} {e : Effect P}
    (h : Prog.Performs (afterFailure conf m) tr e) :
    e.Silent ∨ ∃ count now, m.retryCount.succ P = .ok count ∧
      count.ltInt conf.maxAttempts = .ok true ∧ tr = [⟨.time, now⟩] ∧
      e = .publish .retry [({ m with retryCount := count }.stamp now).toJson] := by
  unfold afterFailure at h
  replace h := performs_bind.mp h
  rcases h with h | ⟨tr₁, tr₂, count, rfl, h₁, h⟩
  · exact absurd h performs_ofExcept
  obtain ⟨rfl, hcount⟩ := runs_ofExcept.mp h₁
  replace h := performs_bind.mp h
  rcases h with h | ⟨tr₃, tr₄, now, rfl, ⟨_, _, rfl, rfl, hnow⟩, h⟩
  · exact Or.inl (Py.uses_time.performs h)
  cases hnow
  replace h := performs_bind.mp h
  rcases h with h | ⟨tr₅, tr₆, less, rfl, h₁, h⟩
  · exact absurd h performs_ofExcept
  obtain ⟨rfl, hless⟩ := runs_ofExcept.mp h₁
  split at h
  · next hlt =>
    obtain ⟨rfl, rfl⟩ := performs_publish h
    exact Or.inr ⟨count, now, hcount.symm, by rw [← hless, hlt], rfl, rfl⟩
  · cases h

theorem runs_afterFailure {m : Notification P} {tr : PyTrace P}
    (h : Runs (afterFailure conf m) tr (.ok ())) :
    ∃ count now, m.retryCount.succ P = .ok count ∧
      (count.ltInt conf.maxAttempts = .ok true ∧ tr = [⟨.time, now⟩,
        publishes P .retry [({ m with retryCount := count }.stamp now).toJson]] ∨
      count.ltInt conf.maxAttempts = .ok false ∧ tr = [⟨.time, now⟩]) := by
  unfold afterFailure at h
  replace h := runs_bind_ok.mp h
  obtain ⟨tr₁, tr₂, count, rfl, h₁, h⟩ := h
  obtain ⟨rfl, hcount⟩ := runs_ofExcept.mp h₁
  replace h := runs_bind_ok.mp h
  obtain ⟨tr₃, tr₄, now, rfl, ⟨_, _, rfl, rfl, hnow⟩, h⟩ := h
  cases hnow
  replace h := runs_bind_ok.mp h
  obtain ⟨tr₅, tr₆, less, rfl, h₁, h⟩ := h
  obtain ⟨rfl, hless⟩ := runs_ofExcept.mp h₁
  refine ⟨count, now, hcount.symm, ?_⟩
  split at h
  · next hlt =>
    rw [runs_publish h]
    exact Or.inl ⟨by rw [← hless, hlt], rfl⟩
  · next hge =>
    obtain ⟨rfl, -⟩ := h
    exact Or.inr ⟨by rw [← hless]; simpa using hge, rfl⟩

theorem performs_body {message : KafkaValue} {tr : PyTrace P} {e : Effect P}
    (h : Prog.Performs (body conf T message) tr e) : Performs conf T message tr e := by
  unfold body at h
  replace h := performs_bind.mp h
  rcases h with h | ⟨tr₀, tr', data, rfl, h₁, h⟩
  · exact absurd h performs_ofExcept
  obtain ⟨rfl, hdata⟩ := runs_ofExcept.mp h₁
  rw [List.nil_append]
  replace h := performs_bind.mp h
  rcases h with h | ⟨tr₁, tr₂, r, rfl, hread, h⟩
  · exact .silent ((uses_constructNotificationObject data).performs h)
  have hread : Read message tr₁ r := ⟨data, hdata.symm, hread⟩
  cases r with
  | none =>
    obtain ⟨rfl, rfl⟩ := performs_commit h
    simpa using Performs.drop hread
  | some n =>
    dsimp only at h
    replace h := performs_bind.mp h
    rcases h with h | ⟨tr₃, tr₄, duration, rfl, hdur, h⟩
    · exact .silent ((uses_waitDuration _ _).performs h)
    replace h := performs_bind.mp h
    rcases h with h | ⟨tr₅, tr₆, _, rfl, hfor, h⟩
    · exact .silent ((uses_waitFor _).performs h)
    have hwait : Waited (tr₃ ++ tr₅) := waited hdur hfor
    replace h := performs_bind.mp h
    rcases h with h | ⟨tr₇, tr₈, ⟨sent, failed⟩, rfl, hsend, h⟩
    · rcases performs_send_singleton h with hs | ⟨notifier, now, hfind, rfl, rfl⟩
      · exact .silent hs
      · simpa using Performs.plugin hread hwait hfind
    have hsend := runs_send hsend
    rcases hsend.singleton with ⟨-, rfl, rfl, -⟩ | ⟨-, now, -, -, ⟨rfl, rfl⟩ | ⟨rfl, rfl⟩⟩
    · dsimp only at h
      obtain ⟨rfl, rfl⟩ := performs_commit h
      simpa using Performs.invalid hread hwait hsend
    · dsimp only at h
      replace h := performs_bind.mp h
      rcases h with h | ⟨tr₉, tr₁₀, _, rfl, hpub, h⟩
      · obtain ⟨rfl, rfl⟩ := performs_publish h
        simpa using Performs.record hread hwait hsend
      rw [runs_publish hpub]
      obtain ⟨rfl, rfl⟩ := performs_commit h
      simpa using Performs.sent hread hwait hsend
    · dsimp only at h
      replace h := performs_bind.mp h
      rcases h with h | ⟨tr₉, tr₁₀, _, rfl, hafter, h⟩
      · rcases performs_afterFailure h with hs | ⟨count, t, hcount, hlt, rfl, rfl⟩
        · exact .silent hs
        · simpa using Performs.requeue hread hwait hsend hcount hlt
      obtain ⟨rfl, rfl⟩ := performs_commit h
      obtain ⟨count, t, hcount, ⟨hlt, rfl⟩ | ⟨hge, rfl⟩⟩ := runs_afterFailure hafter
      · simpa using Performs.requeued hread hwait hsend hcount hlt
      · simpa using Performs.exhausted hread hwait hsend hcount hge

theorem runs_body {message : KafkaValue} {tr : PyTrace P}
    (h : Runs (body conf T message) tr (.ok ())) :
    ∃ tr', tr = tr' ++ [⟨.commit, ()⟩] ∧ Performs conf T message tr' .commit := by
  have hsuffix : ∃ tr', tr = tr' ++ [⟨.commit, ()⟩] := by
    have h' := h
    unfold body at h'
    replace h' := runs_bind_ok.mp h'
    obtain ⟨tr₀, tr₁, data, rfl, -, h'⟩ := h'
    replace h' := runs_bind_ok.mp h'
    obtain ⟨tr₂, tr₃, r, rfl, -, h'⟩ := h'
    cases r with
    | none =>
      rw [runs_commit h']
      exact ⟨tr₀ ++ tr₂, by simp⟩
    | some n =>
      dsimp only at h'
      replace h' := runs_bind_ok.mp h'
      obtain ⟨tr₄, tr₅, duration, rfl, -, h'⟩ := h'
      replace h' := runs_bind_ok.mp h'
      obtain ⟨tr₆, tr₇, _, rfl, -, h'⟩ := h'
      replace h' := runs_bind_ok.mp h'
      obtain ⟨tr₈, tr₉, ⟨sent, failed⟩, rfl, hsend, h'⟩ := h'
      refine (?_ : ∃ tr', tr₉ = tr' ++ [⟨.commit, ()⟩]).elim fun tr' htr' =>
        ⟨tr₀ ++ (tr₂ ++ (tr₄ ++ (tr₆ ++ (tr₈ ++ tr')))), by simp [htr']⟩
      rcases (runs_send hsend).singleton with
        ⟨-, rfl, rfl, -⟩ | ⟨-, now, -, -, ⟨rfl, rfl⟩ | ⟨rfl, rfl⟩⟩
      · exact ⟨[], runs_commit h'⟩
      · obtain ⟨tr₁₀, tr₁₁, _, rfl, -, h'⟩ := runs_bind_ok.mp h'
        rw [runs_commit h']
        exact ⟨tr₁₀, rfl⟩
      · obtain ⟨tr₁₀, tr₁₁, _, rfl, -, h'⟩ := runs_bind_ok.mp h'
        rw [runs_commit h']
        exact ⟨tr₁₀, rfl⟩
  obtain ⟨tr', rfl⟩ := hsuffix
  exact ⟨tr', rfl, performs_body h.performs⟩

end RetryEngine

/-! ## `PeriodicEngine` -/

namespace PeriodicEngine

/-- After which traces the loop body performs which effect. -/
inductive Performs (self : PeriodicEngine conf) (T : Notifiers) (message : KafkaValue) :
    PyTrace P → Effect P → Prop where
  | silent {tr e} : e.Silent → Performs self T message tr e
  | drop {tr} : Read message tr none → Performs self T message tr .commit
  | stop {tr₁ tr₂ n current} : Read message tr₁ (some n) →
      StateAnswer P n.alarmId current tr₂ → ¬ self.goesOn current n.state n.period →
      Performs self T message (tr₁ ++ tr₂) .commit
  | plugin {tr₁ tr₂ tr₃ n current notifier now now'} : Read message tr₁ (some n) →
      StateAnswer P n.alarmId current tr₂ → self.goesOn current n.state n.period →
      Waited tr₃ → T.find? n.type = some notifier →
      Performs self T message (tr₁ ++ tr₂ ++ tr₃ ++ [⟨.time, now⟩, ⟨.time, now'⟩])
        (.sendNotification notifier (n.stamp now'))
  | forward {tr₁ tr₂ tr₃ tr₄ n current now now' sent failed} : Read message tr₁ (some n) →
      StateAnswer P n.alarmId current tr₂ → self.goesOn current n.state n.period →
      Waited tr₃ → Handled T [n.stamp now] tr₄ sent failed →
      (sent ++ failed).headD (n.stamp now) = n.stamp now' →
      Performs self T message (tr₁ ++ tr₂ ++ tr₃ ++ ⟨.time, now⟩ :: tr₄)
        (.publish (.periodic self.topicName) [(n.stamp now').toJson])
  | commit {tr₁ tr₂ tr₃ tr₄ n current now now' sent failed} : Read message tr₁ (some n) →
      StateAnswer P n.alarmId current tr₂ → self.goesOn current n.state n.period →
      Waited tr₃ → Handled T [n.stamp now] tr₄ sent failed →
      (sent ++ failed).headD (n.stamp now) = n.stamp now' →
      Performs self T message
        (tr₁ ++ tr₂ ++ tr₃ ++ ⟨.time, now⟩ :: tr₄ ++
          [publishes P (.periodic self.topicName) [(n.stamp now').toJson]]) .commit

/-- The object that is published is the one that was sent, with its last timestamp. -/
theorem exists_headD_eq {n : Notification P} {now : Rat} {tr : PyTrace P}
    {sent failed : List (Notification P)} (h : Handled T [n.stamp now] tr sent failed) :
    ∃ now', (sent ++ failed).headD (n.stamp now) = n.stamp now' := by
  rcases h.singleton with ⟨-, rfl, rfl, -⟩ | ⟨-, now', -, -, ⟨rfl, rfl⟩ | ⟨rfl, rfl⟩⟩
  · exact ⟨now, rfl⟩
  · exact ⟨now', rfl⟩
  · exact ⟨now', rfl⟩

theorem performs_body {self : PeriodicEngine conf} {message : KafkaValue} {tr : PyTrace P}
    {e : Effect P} (h : Prog.Performs (self.body T message) tr e) :
    Performs self T message tr e := by
  unfold body at h
  replace h := performs_bind.mp h
  rcases h with h | ⟨tr₀, tr', data, rfl, h₁, h⟩
  · exact absurd h performs_ofExcept
  obtain ⟨rfl, hdata⟩ := runs_ofExcept.mp h₁
  rw [List.nil_append]
  replace h := performs_bind.mp h
  rcases h with h | ⟨tr₁, tr₂, r, rfl, hread, h⟩
  · exact .silent ((uses_constructNotificationObject data).performs h)
  have hread : Read message tr₁ r := ⟨data, hdata.symm, hread⟩
  cases r with
  | none =>
    obtain ⟨rfl, rfl⟩ := performs_commit h
    simpa using Performs.drop hread
  | some n =>
    dsimp only at h
    replace h := performs_bind.mp h
    rcases h with h | ⟨tr₃, tr₄, keep, rfl, hkeep, h⟩
    · exact .silent ((uses_keepSending self _ _ _).performs h)
    obtain ⟨current, hstate, hgo⟩ := runs_keepSending hkeep
    split at h
    · next htrue =>
      have hgo : self.goesOn current n.state n.period := of_decide_eq_true (hgo ▸ htrue)
      replace h := performs_bind.mp h
      rcases h with h | ⟨tr₅, tr₆, duration, rfl, hdur, h⟩
      · exact .silent ((uses_waitDuration _ _).performs h)
      replace h := performs_bind.mp h
      rcases h with h | ⟨tr₇, tr₈, _, rfl, hfor, h⟩
      · exact .silent ((uses_waitFor _).performs h)
      have hwait : Waited (tr₅ ++ tr₇) := waited hdur hfor
      replace h := performs_bind.mp h
      rcases h with h | ⟨tr₉, tr₁₀, now, rfl, ⟨_, _, rfl, rfl, hnow⟩, h⟩
      · exact .silent (Py.uses_time.performs h)
      cases hnow
      replace h := performs_bind.mp h
      rcases h with h | ⟨tr₁₁, tr₁₂, ⟨sent, failed⟩, rfl, hsend, h⟩
      · rcases performs_send_singleton h with hs | ⟨notifier, now', hfind, rfl, rfl⟩
        · exact .silent hs
        · have hfind : T.find? n.type = some notifier := hfind
          simpa using Performs.plugin hread hstate hgo hwait hfind
      have hsend := runs_send hsend
      obtain ⟨now', hm⟩ := exists_headD_eq hsend
      dsimp only at h
      rw [hm] at h
      replace h := performs_bind.mp h
      rcases h with h | ⟨tr₁₃, tr₁₄, _, rfl, hpub, h⟩
      · obtain ⟨rfl, rfl⟩ := performs_publish h
        simpa using Performs.forward hread hstate hgo hwait hsend hm
      rw [runs_publish hpub]
      obtain ⟨rfl, rfl⟩ := performs_commit h
      simpa using Performs.commit hread hstate hgo hwait hsend hm
    · next hfalse =>
      have hgo : ¬ self.goesOn current n.state n.period :=
        fun hg => hfalse (by rw [hgo]; exact decide_eq_true hg)
      obtain ⟨rfl, rfl⟩ := performs_commit h
      simpa using Performs.stop hread hstate hgo

theorem runs_body {self : PeriodicEngine conf} {message : KafkaValue} {tr : PyTrace P}
    (h : Runs (self.body T message) tr (.ok ())) :
    ∃ tr', tr = tr' ++ [⟨.commit, ()⟩] ∧ Performs self T message tr' .commit := by
  have hsuffix : ∃ tr', tr = tr' ++ [⟨.commit, ()⟩] := by
    have h' := h
    unfold body at h'
    replace h' := runs_bind_ok.mp h'
    obtain ⟨tr₀, tr₁, data, rfl, -, h'⟩ := h'
    replace h' := runs_bind_ok.mp h'
    obtain ⟨tr₂, tr₃, r, rfl, -, h'⟩ := h'
    cases r with
    | none =>
      rw [runs_commit h']
      exact ⟨tr₀ ++ tr₂, by simp⟩
    | some n =>
      dsimp only at h'
      replace h' := runs_bind_ok.mp h'
      obtain ⟨tr₄, tr₅, keep, rfl, -, h'⟩ := h'
      split at h'
      · replace h' := runs_bind_ok.mp h'
        obtain ⟨tr₆, tr₇, duration, rfl, -, h'⟩ := h'
        replace h' := runs_bind_ok.mp h'
        obtain ⟨tr₈, tr₉, _, rfl, -, h'⟩ := h'
        replace h' := runs_bind_ok.mp h'
        obtain ⟨tr₁₀, tr₁₁, now, rfl, -, h'⟩ := h'
        replace h' := runs_bind_ok.mp h'
        obtain ⟨tr₁₂, tr₁₃, ⟨sent, failed⟩, rfl, -, h'⟩ := h'
        replace h' := runs_bind_ok.mp h'
        obtain ⟨tr₁₄, tr₁₅, _, rfl, -, h'⟩ := h'
        rw [runs_commit h']
        exact ⟨tr₀ ++ (tr₂ ++ (tr₄ ++ (tr₆ ++ (tr₈ ++ (tr₁₀ ++ (tr₁₂ ++ tr₁₄)))))), by simp⟩
      · rw [runs_commit h']
        exact ⟨tr₀ ++ (tr₂ ++ tr₄), by simp⟩
  obtain ⟨tr', rfl⟩ := hsuffix
  exact ⟨tr', rfl, performs_body h.performs⟩

end PeriodicEngine

end MonascaNotification
