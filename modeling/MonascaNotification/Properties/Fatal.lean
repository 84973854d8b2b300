import MonascaNotification.Properties.AlarmRobustness
import MonascaNotification.Properties.Queues

/-!
# What kills an engine

Of the three kinds of engines, the `NotificationEngine` is the only one that reads what others
wrote. On an alarm that `to_notification` gets through at any time and for any rows, its loop body
raises only what `fetch_notifications` raised (`runs_body_error`): nothing that comes after the
notifications were built raises, whatever the plugins do. The other two read what the engines
wrote. They have no handler around their waits, and the `PeriodicEngine` has none around
`get_alarm_current_state`.

So in the whole system there are five causes of death (`causes_of_death`). Each of them makes
`main` shut down all engines.
-/

namespace MonascaNotification

open Infra Prog Network

section

variable {P : Platform} {A : (e : Effect P) → e.Answer → Prop} {W : World P A} {conf : Config}
  {T : Notifiers} {mayCrash : Prop} {Reading : Rat → Prop} {s : SystemState W conf}

/--
`fetch_notifications` raised in both tries, or something else than `DatabaseException` in the
first one, and nothing was done after it.
-/
def RowsUnknown (tr : PyTrace P) (x : PyExn) : Prop :=
  ∃ alarm rows,
    x ≠ .databaseException ∧
      tr = [⟨.fetchNotifications alarm, (⟨rows, some x⟩ : RowStream)⟩] ∨
    ∃ rows₁, tr = [
      ⟨.fetchNotifications alarm, (⟨rows₁, some .databaseException⟩ : RowStream)⟩,
      ⟨.fetchNotifications alarm, (⟨rows, some x⟩ : RowStream)⟩]

/-- `to_notification` gets through the message at any time, whatever rows there are for it. -/
def AlwaysDigestible (P : Platform) (conf : Config) (Reading : Rat → Prop) (value : KafkaValue) :
    Prop :=
  ∀ now rows, Reading now → AlarmProcessor.Digestible P conf value now rows

/-! ## `to_notification` -/

namespace AlarmProcessor

/-- A digestible alarm is validated without an exception. -/
theorem ensures_alarmIsValid {value : KafkaValue} {alarm : Json} (hreading : ∃ now, Reading now)
    (h : AlwaysDigestible P conf Reading value) (hparse : parseAlarm P value = .ok alarm) :
    Ensures (Effect.Regular Reading) (alarmIsValid P conf alarm) fun out => ∃ b, out = .ok b := by
  obtain ⟨now, hnow⟩ := hreading
  obtain ⟨fields, rfl, -⟩ := h now (fun _ => []) hnow alarm hparse
  have hfields := parseAlarm_obj hparse
  obtain ⟨enabled, he⟩ := hfields "actionsEnabled" (by decide)
  unfold alarmIsValid
  simp only [bind_eq, Json.getItem, he, ofExcept_ok, bind_ret]
  cases htrue : enabled.truthy with
  | false => exact ensures_ret ⟨_, rfl⟩
  | true =>
    refine ensures_perform fun now hnow => ?_
    obtain ⟨_, hobj, hdig⟩ := h now (fun _ => []) hnow _ hparse
    cases hobj
    obtain ⟨timestamp, seconds, htimestamp, hseconds, hrest⟩ := hdig enabled he htrue
    simp only [htimestamp, ofExcept_ok, hseconds, bind_ret]
    by_cases hold : olderThanTtl conf (P.sub (.fin now) seconds) = true
    · simp only [hold, if_true] at hrest ⊢
      obtain ⟨text, htext⟩ := hrest
      rw [htext]
      exact ensures_ret ⟨_, rfl⟩
    · simp only [hold]
      exact ensures_ret ⟨_, rfl⟩

/-- For a digestible alarm that is reported, the constructor raises nothing. -/
theorem exists_slots_of_reportedAt {value : KafkaValue} {alarm : Json} {now : Rat}
    (h : AlwaysDigestible P conf Reading value) (hparse : parseAlarm P value = .ok alarm)
    (hnow : Reading now) (hreported : ReportedAt P conf alarm now) :
    ∃ slots, AlarmSlots.ofAlarm P alarm = .ok slots := by
  obtain ⟨fields, rfl, hdig⟩ := h now (fun _ => [emailRow]) hnow alarm hparse
  obtain ⟨enabled, timestamp, seconds, henabled, htrue, htimestamp, hseconds, hyoung⟩ := hreported
  obtain ⟨_, hobj, henabled⟩ := Json.getItem_eq_ok henabled
  cases hobj
  obtain ⟨_, hobj, htimestamp⟩ := Json.getItem_eq_ok htimestamp
  cases hobj
  obtain ⟨timestamp', seconds', htimestamp', hseconds', hrest⟩ := hdig enabled henabled htrue
  rw [htimestamp] at htimestamp'
  cases htimestamp'
  rw [hseconds] at hseconds'
  cases hseconds'
  simp only [hyoung, Bool.false_eq_true, if_false] at hrest
  exact (ofAlarm_obj_iff (parseAlarm_obj hparse) htimestamp).mpr (hrest (by simp))

/-- When the constructor raises nothing, building raises what the repository raised. -/
theorem runs_buildNotification_error {alarm : Json} {slots : AlarmSlots}
    (hslots : AlarmSlots.ofAlarm P alarm = .ok slots) {tr : PyTrace P} {x : PyExn}
    (h : Runs (buildNotification P alarm) tr (.error x)) :
    ∃ rows, tr = [⟨.fetchNotifications alarm, (⟨rows, some x⟩ : RowStream)⟩] := by
  obtain ⟨⟨rows, failure⟩, tr', rfl, h⟩ := h
  obtain ⟨ns, hns, -⟩ := mapM_init_ok hslots rows
  dsimp only at h
  rw [hns] at h
  cases failure with
  | none => cases h.2
  | some y =>
    obtain ⟨rfl, h⟩ := h
    cases h
    exact ⟨rows, rfl⟩

/-- On a digestible alarm, `to_notification` raises only what the query for its rows raised. -/
theorem runs_toNotification_error {rawAlarm : RawAlarm} (hreading : ∃ now, Reading now)
    (h : AlwaysDigestible P conf Reading rawAlarm.value) {tr : PyTrace P} {x : PyExn}
    (hregular : Trace.Admits (Effect.Regular Reading) tr)
    (hrun : Runs (toNotification P conf rawAlarm) tr (.error x)) :
    ∃ tr₁ tr₂, tr = tr₁ ++ tr₂ ∧ RowsUnknown tr₂ x := by
  have hcounted : ∀ {name value α} {a : α} {tr : PyTrace P},
      ¬ Runs (do Py.increment name value; return a) tr (.error x) := by
    rintro name value α a tr ⟨_, _, -, -, hx⟩
    cases hx
  unfold toNotification at hrun
  split at hrun
  · exact absurd hrun hcounted
  next alarm hparse =>
  obtain ⟨tr₁, tr₂, valid, rfl, hvalid, -, hadm, -, hrest⟩ :=
    (ensures_alarmIsValid hreading h hparse).runs_bind (by simp) hregular hrun
  split at hrest
  · exact absurd hrest hcounted
  next htrue =>
  obtain rfl : valid = true := by simpa using htrue
  obtain ⟨now, rfl, hreported⟩ := runs_alarmIsValid_true hvalid
  have hnow : Reading now := hadm ⟨.time, now⟩ List.mem_cons_self
  obtain ⟨slots, hslots⟩ := exists_slots_of_reportedAt h hparse hnow hreported
  replace hrest := runs_bind_error.mp hrest
  rcases hrest with hbuild | ⟨tr₃, tr₄, ns, rfl, -, hrest⟩
  · rcases Py.runs_retryOnDatabaseException.mp hbuild with
      ⟨hone, hne⟩ | ⟨tr₃, tr₄, rfl, hone, htwo⟩
    · obtain ⟨rows, rfl⟩ := runs_buildNotification_error hslots hone
      have hx : x ≠ .databaseException := fun hx => hne (congrArg Except.error hx)
      exact ⟨_, _, rfl, alarm, rows, Or.inl ⟨hx, rfl⟩⟩
    · obtain ⟨rows₁, rfl⟩ := runs_buildNotification_error hslots hone
      obtain ⟨rows₂, rfl⟩ := runs_buildNotification_error hslots htwo
      exact ⟨_, _, rfl, alarm, rows₂, Or.inr ⟨rows₁, rfl⟩⟩
  · split at hrest
    · exact absurd hrest hcounted
    · exact absurd hrest hcounted

end AlarmProcessor

/-! ## The rest of the loop body -/

namespace NotificationEngine

/-- Opening the chains raises nothing, and keeps the types. -/
theorem ensures_addPeriodicNotifications {ns : List (Notification P)}
    (h : ∀ n ∈ ns, hashable n.type = .ok ()) :
    Ensures (Effect.Regular Reading) (addPeriodicNotifications conf ns) fun out =>
      ∃ ns', out = .ok ns' ∧ ∀ n ∈ ns', hashable n.type = .ok () := by
  induction ns with
  | nil => exact ensures_ret ⟨[], rfl, h⟩
  | cons n ns ih =>
    have ih := ih fun m hm => h m (List.mem_cons_of_mem _ hm)
    have hcons : ∀ n' : Notification P, n'.type = n.type → Ensures (Effect.Regular Reading)
        ((addPeriodicNotifications conf ns).bind fun rest => .ret (n' :: rest)) fun out =>
          ∃ ns', out = .ok ns' ∧ ∀ n ∈ ns', hashable n.type = .ok () := by
      intro n' htype
      refine ih.bind ?_ (by rintro _ ⟨_, hx, -⟩; cases hx)
      rintro rest ⟨_, hrest, hall⟩
      cases hrest
      refine ensures_ret ⟨_, rfl, fun m hm => ?_⟩
      rcases List.mem_cons.mp hm with rfl | hm
      · rw [htype]
        exact h n List.mem_cons_self
      · exact hall m hm
    unfold addPeriodicNotifications
    split
    · exact ensures_perform fun now _ => ensures_perform fun _ _ => hcons (n.stamp now) rfl
    · exact hcons n rfl

/-- What the engine does with the notifications that were built raises nothing. -/
theorem ensures_afterBuild {ns : List (Notification P)} (h : ∀ n ∈ ns, hashable n.type = .ok ()) :
    Ensures (Effect.Regular Reading) (do
      if ns ≠ [] then
        let notifications ← addPeriodicNotifications conf ns
        let (sent, failed) ← send T notifications
        Py.publish .notification (sent.map Notification.toJson)
        Py.publish .retry (failed.map Notification.toJson)
      Py.commit
      Py.increment "alarms_finished_count" 1 : Py P Unit) (· = .ok ()) := by
  have hend : Ensures (Effect.Regular Reading) (do
      Py.commit
      Py.increment "alarms_finished_count" 1 : Py P Unit) (· = .ok ()) :=
    ensures_perform fun _ _ => ensures_perform fun _ _ => ensures_ret rfl
  split
  · refine (ensures_addPeriodicNotifications h).bind ?_ (by rintro _ ⟨_, hx, -⟩; cases hx)
    rintro ns' ⟨_, hns', htypes⟩
    cases hns'
    refine (ensures_send T htypes).bind ?_ (by rintro _ ⟨_, hx⟩; cases hx)
    rintro ⟨sent, failed⟩ -
    exact ensures_perform fun _ _ => ensures_perform fun _ _ => hend
  · exact hend

/-- **On a digestible alarm, the engine dies only of the query for its rows.** -/
theorem runs_body_error {alarm : RawAlarm} (hreading : ∃ now, Reading now)
    (h : AlwaysDigestible P conf Reading alarm.value) {tr : PyTrace P} {x : PyExn}
    (hregular : Trace.Admits (Effect.Regular Reading) tr)
    (hrun : Runs (body conf T alarm) tr (.error x)) :
    ∃ tr₁ tr₂, tr = tr₁ ++ tr₂ ∧ RowsUnknown tr₂ x := by
  unfold body at hrun
  rcases runs_bind_error.mp hrun with hbuild | ⟨tr₁, tr₂, ⟨ns, p, o⟩, rfl, hbuild, hrest⟩
  · exact AlarmProcessor.runs_toNotification_error hreading h hregular hbuild
  · have htypes : ∀ n ∈ ns, hashable n.type = .ok () := by
      intro n hn
      obtain ⟨_, rows, -, -, hbuilt⟩ :=
        AlarmProcessor.runs_toNotification hbuild (List.ne_nil_of_mem hn)
      obtain ⟨-, -, row, -, -, htype, -⟩ := hbuilt.of_mem hn
      rw [htype]
      rfl
    rw [Trace.admits_append] at hregular
    cases ensures_afterBuild htypes tr₂ _ hregular.2 hrest

/-- What the engine has died of, in any reachable state. -/
theorem raised_of_phase (hW : W.Regular Reading) (hreading : ∃ now, Reading now)
    (h : Reachable (system W conf T mayCrash) s) {o : Nat} {m : KafkaValue} {tr : PyTrace P}
    {x : PyExn}
    (hph : s.phase .notification = .running o m tr (.raise x)) :
    ¬ AlwaysDigestible P conf Reading m ∨
      ∃ tr₁ tr₂, tr = tr₁ ++ tr₂ ∧ RowsUnknown tr₂ x := by
  by_cases hdig : AlwaysDigestible P conf Reading m
  · have hinv := (queueContract conf T mayCrash hW).inv_reachable h
    obtain ⟨-, hadm, hreach⟩ := hinv.running hph
    have hrun : Runs (body conf T { partition := 0, offset := o, value := m }) (tr ++ [])
        (.error x) := hreach.runs ⟨rfl, rfl⟩
    rw [List.append_nil] at hrun
    exact Or.inr (runs_body_error hreading hdig hadm hrun)
  · exact Or.inl hdig

end NotificationEngine

/-! ## The other engines -/

/-- The engine dies only of a wait that is not computed, or that `time.sleep` refuses. -/
theorem RetryEngine.raised_of_phase (hW : W.Regular Reading)
    (h : Reachable (system W conf T mayCrash) s) {o : Nat} {m : KafkaValue} {tr : PyTrace P}
    {x : PyExn} (hph : s.phase .retry = .running o m tr (.raise x)) :
    WaitRefused P conf.interval m tr x ∧ IsQueued P Reading m ∧
      Trace.Admits (Effect.Regular Reading) tr := by
  have hinv := (queueContract conf T mayCrash hW).inv_reachable h
  obtain ⟨hm, hadm, hreach⟩ := hinv.running hph
  have hqueued : IsQueued P Reading m := hinv.valid _ _ (List.mem_of_getElem? hm) trivial
  have hrun : Runs (body conf T m) (tr ++ []) (.error x) := hreach.runs ⟨rfl, rfl⟩
  rw [List.append_nil] at hrun
  rcases outcome_body hqueued hadm hrun with ⟨hx, -⟩ | ⟨x', hx, hrefused⟩
  · cases hx
  · cases hx
    exact ⟨hrefused, hqueued, hadm⟩

/-- An engine whose waits are measured raises nothing on a queued message. -/
theorem retry_not_raised (hW : W.Regular Reading) (hinterval : P.Measures Reading conf.interval)
    (h : Reachable (system W conf T mayCrash) s) {o : Nat} {m : KafkaValue} {tr : PyTrace P}
    {x : PyExn} : s.phase .retry ≠ .running o m tr (.raise x) := by
  intro hph
  obtain ⟨hrefused, hqueued, hadm⟩ := RetryEngine.raised_of_phase hW h hph
  exact hrefused.not_measures hqueued hadm hinterval

namespace PeriodicEngine

/-- The engine dies only of a state that it did not get, or of its wait. -/
theorem raised_of_phase (self : PeriodicEngine conf) (hW : W.Regular Reading)
    (h : Reachable (system W conf T mayCrash) s) {o : Nat} {m : KafkaValue} {tr : PyTrace P}
    {x : PyExn} (hph : s.phase (.periodic self) = .running o m tr (.raise x)) :
    (∃ tr₁ tr₂, tr = tr₁ ++ tr₂ ∧ StateUnknown tr₂ x) ∨
      WaitRefused P self.period m tr x ∧ IsQueued P Reading m ∧
        Trace.Admits (Effect.Regular Reading) tr := by
  have hinv := (queueContract conf T mayCrash hW).inv_reachable h
  obtain ⟨hm, hadm, hreach⟩ := hinv.running hph
  have hqueued : IsQueued P Reading m := hinv.valid _ _ (List.mem_of_getElem? hm) trivial
  have hrun : Runs (self.body T m) (tr ++ []) (.error x) := hreach.runs ⟨rfl, rfl⟩
  rw [List.append_nil] at hrun
  rcases self.outcome_body hqueued hadm hrun with
    ⟨hx, -⟩ | ⟨x', tr₁, tr₂, hx, rfl, hunknown, -⟩ | ⟨x', hx, hrefused⟩
  · cases hx
  · cases hx
    exact Or.inl ⟨tr₁, tr₂, rfl, hunknown⟩
  · cases hx
    exact Or.inr ⟨hrefused, hqueued, hadm⟩

/-- With measured waits, only of a state that it did not get. -/
theorem unknown_of_phase (self : PeriodicEngine conf) (hW : W.Regular Reading)
    (hperiod : P.Measures Reading self.period) (h : Reachable (system W conf T mayCrash) s)
    {o : Nat} {m : KafkaValue} {tr : PyTrace P} {x : PyExn}
    (hph : s.phase (.periodic self) = .running o m tr (.raise x)) :
    ∃ tr₁ tr₂, tr = tr₁ ++ tr₂ ∧ StateUnknown tr₂ x := by
  rcases self.raised_of_phase hW h hph with hunknown | ⟨hrefused, hqueued, hadm⟩
  · exact hunknown
  · exact absurd hperiod (hrefused.not_measures hqueued hadm)

end PeriodicEngine

/-- Why the body of a message has raised. -/
inductive CauseOfDeath (P : Platform) (Reading : Rat → Prop) :
    Engine conf → KafkaValue → PyTrace P → PyExn → Prop where
  | indigestible {m tr x} : ¬ AlwaysDigestible P conf Reading m →
      CauseOfDeath P Reading .notification m tr x
  | rowsUnknown {m tr₁ tr₂ x} : RowsUnknown tr₂ x →
      CauseOfDeath P Reading .notification m (tr₁ ++ tr₂) x
  | stateUnknown {self m tr₁ tr₂ x} : PeriodicEngine.StateUnknown tr₂ x →
      CauseOfDeath P Reading (.periodic self) m (tr₁ ++ tr₂) x
  | retryRefused {m tr x} : WaitRefused P conf.interval m tr x →
      CauseOfDeath P Reading .retry m tr x
  | periodicRefused {self m tr x} : WaitRefused P self.period m tr x →
      CauseOfDeath P Reading (.periodic self) m tr x

/--
**What kills an engine.** In every reachable state, crashes or not, an engine whose body has raised
is a `NotificationEngine` on an alarm that is not digestible or whose rows it did not get, a
`PeriodicEngine` that did not get a state, or an engine whose wait was not computed or refused.
Plugins kill none.
-/
theorem causes_of_death (hW : W.Regular Reading) (hreading : ∃ now, Reading now)
    (h : Reachable (system W conf T mayCrash) s) {i : Engine conf} {o : Nat}
    {m : KafkaValue} {tr : PyTrace P} {x : PyExn}
    (hph : s.phase i = .running o m tr (.raise x)) : CauseOfDeath P Reading i m tr x := by
  cases i with
  | notification =>
    rcases NotificationEngine.raised_of_phase hW hreading h hph with
      hdig | ⟨tr₁, tr₂, rfl, hunknown⟩
    · exact .indigestible hdig
    · exact .rowsUnknown hunknown
  | retry => exact .retryRefused (RetryEngine.raised_of_phase hW h hph).1
  | periodic self =>
    rcases self.raised_of_phase hW h hph with ⟨tr₁, tr₂, rfl, hunknown⟩ | ⟨hrefused, -⟩
    · exact .stateUnknown hunknown
    · exact .periodicRefused hrefused

end

/-! ## In the deployment -/

namespace Deployment

/-- The world that answers from the store, and whose queries for rows fail. -/
def unanswered (e : Effect cpython) (w : Unit) : e.Answer × Unit :=
  match e with
  | .fetchNotifications _ => (⟨[], some .databaseException⟩, w)
  | e => (store.reply 0 (.ok (.bool true)) e, w)

theorem answers_unanswered (w : Unit) (e : Effect cpython) :
    (system (anyRegular cpython InRange) conf notifiers False).answer w e (unanswered e w).1
      (unanswered e w).2 := by
  cases e with
  | fetchNotifications alarm =>
    exact ⟨List.nodup_nil, fun row hrow => absurd hrow List.not_mem_nil⟩
  | _ => exact ⟨(store.answers_reply 0 (.ok (.bool true)) _).admissible,
      regular_reply inRange_zero (.ok (.bool true)) _⟩

/-- The `NotificationEngine` does not survive that both tries fail. -/
theorem exists_raised : ∃ s tr,
    Reachable (system (anyRegular cpython InRange) conf notifiers False) s ∧
      s.phase .notification = .running 0 (transitionMessage (alarm "OK" "ALARM")) tr
        (.raise .databaseException) := by
  have hinit : Reachable (system (anyRegular cpython InRange) conf notifiers False)
      (initial ()) := .init trivial
  have halarm : (system (anyRegular cpython InRange) conf notifiers False).env ()
      [(.alarm, transitionMessage (alarm "OK" "ALARM"))] () :=
    ⟨[transitionMessage (alarm "OK" "ALARM")], rfl, trivial⟩
  have hread := (hinit.step (.env halarm)).step
    (.read (i := .notification) (m := transitionMessage (alarm "OK" "ALARM")) rfl rfl)
  have hraised : (firstBody.run unanswered ()).1 = .error .databaseException := by decide +kernel
  have hrun := runs_trace_of_eq hraised
  obtain ⟨s, hs, hph⟩ := hread.raise_body (Function.update_self _ _ _) hrun
    (Answers.trace answers_unanswered firstBody ())
  exact ⟨s, _, hs, hph⟩

end Deployment

open Deployment in
theorem causes_of_death_unanswered : ∃ s : SystemState (anyRegular cpython InRange) conf, ∃ tr,
    s.phase .notification = .running 0 (transitionMessage (alarm "OK" "ALARM")) tr
      (.raise .databaseException) ∧
    CauseOfDeath cpython InRange (.notification : Engine conf)
      (transitionMessage (alarm "OK" "ALARM")) tr .databaseException := by
  obtain ⟨s, tr, hs, hph⟩ := exists_raised
  exact ⟨s, tr, hph, causes_of_death (W := anyRegular cpython InRange) (T := notifiers)
    (fun h => h.2) ⟨0, inRange_zero⟩ hs hph⟩

end MonascaNotification
