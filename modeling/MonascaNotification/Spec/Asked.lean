import MonascaNotification.Spec.Engines

/-!
# What the engines ask the repository

A loop body asks the repository first. What follows looks at the clock, sleeps, calls plugins,
counts, publishes and commits, and asks nothing any more. So the queries of a body are known from
its message.

* `NotificationEngine.asks_body` — the rows for the alarm
* `RetryEngine.asks_body` — the method of the document
* `PeriodicEngine.asks_body` — the method of the document, and the state of its alarm
-/

namespace MonascaNotification

open Infra Prog

variable {P : Platform} {conf : Config} {T : Notifiers} {S : Effect P → Prop}

/-! ## Programs that ask nothing -/

/-- Looking at the clock, publishing and committing. -/
def Effect.Records : Effect P → Prop
  | .time => True
  | .publish _ _ => True
  | .commit => True
  | _ => False

theorem Effect.Records.isQuery {e : Effect P} (h : e.Records) : e.isQuery = false := by
  cases e <;> first | rfl | cases h

theorem Effect.Sends.isQuery {e : Effect P} (h : e.Sends) : e.isQuery = false := by
  cases e <;> first | rfl | cases h

theorem uses_commit : Uses Effect.Records (Py.commit : Py P Unit) := ⟨trivial, fun _ => trivial⟩

/-- A wait asks nothing. -/
theorem asksNothing_wait {α : Type} {bound data : Json} {k : Py P α}
    (hk : Uses (fun e => e.isQuery = false) k) : Uses (fun e => e.isQuery = false) (do
      let duration ← waitDuration bound data
      waitFor duration
      k : Py P α) := by
  rw [bind_eq, waitDuration_eq]
  refine uses_bind ⟨rfl, fun now => uses_ofExcept⟩ fun duration => uses_bind ?_ fun _ => hk
  unfold waitFor
  split
  · exact Py.uses_sleep (fun _ => rfl) _
  · trivial

theorem asksNothing_send (ns : List (Notification P)) :
    Uses (fun e => e.isQuery = false) (send T ns) :=
  (uses_send T ns).mono fun _ => Effect.Sends.isQuery

/-! ## `NotificationEngine` -/

namespace NotificationEngine

theorem uses_addPeriodicNotifications (ns : List (Notification P)) :
    Uses Effect.Records (addPeriodicNotifications conf ns) := by
  induction ns with
  | nil => trivial
  | cons n ns ih =>
    unfold addPeriodicNotifications
    split
    · refine uses_bind ⟨trivial, fun _ => trivial⟩ fun now => ?_
      refine uses_bind ⟨trivial, fun _ => trivial⟩ fun _ => uses_bind ih fun _ => trivial
    · exact uses_bind ih fun _ => trivial

theorem asksNothing_afterBuild (ns : List (Notification P)) :
    Uses (fun e => e.isQuery = false) (do
      if ns ≠ [] then
        let notifications ← addPeriodicNotifications conf ns
        let (sent, failed) ← send T notifications
        Py.publish .notification (sent.map Notification.toJson)
        Py.publish .retry (failed.map Notification.toJson)
      Py.commit
      Py.increment "alarms_finished_count" 1 : Py P Unit) := by
  have hend : Uses (fun e => e.isQuery = false) (do
      Py.commit
      Py.increment "alarms_finished_count" 1 : Py P Unit) :=
    ⟨rfl, fun _ => ⟨rfl, fun _ => trivial⟩⟩
  split
  · refine uses_bind ((uses_addPeriodicNotifications ns).mono fun _ => Effect.Records.isQuery)
      fun ns' => uses_bind (asksNothing_send ns') fun r => ?_
    exact ⟨rfl, fun _ => ⟨rfl, fun _ => hend⟩⟩
  · exact hend

/-- The queries of the loop body are for the rows of the alarm, which is a dict. -/
theorem asks_body {alarm : RawAlarm} (hS : ∀ e : Effect P, e.isQuery = false → S e)
    (h : ∀ fields, AlarmProcessor.parseAlarm P alarm.value = .ok (.obj fields) →
      S (.fetchNotifications (.obj fields))) :
    Uses S (body conf T alarm) := by
  have hcount : ∀ {name value} {r : List (Notification P) × Nat × Nat},
      Uses S (do Py.increment name value; return r) := fun {_ _ _} => ⟨hS _ rfl, fun _ => trivial⟩
  refine uses_bind ?_ fun r => (asksNothing_afterBuild r.1).mono hS
  unfold AlarmProcessor.toNotification
  split
  · exact hcount
  · next json hjson =>
    refine uses_bind_of_runs ((AlarmProcessor.asks_alarmIsValid json).mono fun e he => hS e ?_)
      fun tr valid hvalid => ?_
    · rw [he]
      rfl
    -- the validation has read a field
    obtain ⟨_, _, _, -, henabled, -⟩ := runs_bind_ok.mp hvalid
    obtain ⟨-, henabled⟩ := runs_ofExcept.mp henabled
    obtain ⟨fields, rfl, -⟩ := Json.getItem_eq_ok henabled.symm
    split
    · exact hcount
    · refine uses_bind (Py.uses_retryOnDatabaseException ⟨h fields hjson, fun answer => ?_⟩)
        fun ns => ?_
      · refine uses_bind uses_ofExcept fun ns => ?_
        split <;> trivial
      · split
        · exact hcount
        · exact hcount

end NotificationEngine

/-! ## `RetryEngine` -/

namespace RetryEngine

theorem uses_afterFailure (m : Notification P) : Uses Effect.Records (afterFailure conf m) := by
  unfold afterFailure
  refine uses_bind (by simp) fun count => uses_bind ⟨trivial, fun _ => trivial⟩ fun now => ?_
  refine uses_bind (by simp) fun less => ?_
  split
  · exact ⟨trivial, fun _ => trivial⟩
  · trivial

theorem uses_afterFailed (conf : Config) (failed : List (Notification P)) :
    Uses Effect.Records (do
      if let notification :: _ := failed then
        afterFailure conf notification
      Py.commit : Py P Unit) := by
  cases failed with
  | nil => exact uses_commit
  | cons m _ => exact uses_bind (uses_afterFailure m) fun _ => uses_commit

/-- The end of the loop body. -/
theorem uses_afterSend (conf : Config) (sent failed : List (Notification P)) :
    Uses Effect.Records (do
      if let notification :: _ := sent then
        Py.publish .notification [notification.toJson]
      if let notification :: _ := failed then
        afterFailure conf notification
      Py.commit : Py P Unit) := by
  cases sent with
  | nil => exact uses_afterFailed conf failed
  | cons m _ => exact ⟨trivial, fun _ => uses_afterFailed conf failed⟩

/-- The queries of the loop body are for the method of the document. -/
theorem asks_body {m : KafkaValue} (hS : ∀ e : Effect P, e.isQuery = false → S e)
    (h : ∀ data (n : Notification P), P.jsonLoads m = .ok data →
      decodeNotification P data = .ok n → S (.getNotification n.id)) :
    Uses S (body conf T m) := by
  refine uses_bind_of_runs uses_ofExcept fun _ data hdata => ?_
  obtain ⟨-, hdata⟩ := runs_ofExcept.mp hdata
  refine uses_bind (asksMethod_constructNotificationObject fun n => h data n hdata.symm) fun r => ?_
  cases r with
  | none => exact uses_commit.mono fun e he => hS e he.isQuery
  | some n =>
    refine (asksNothing_wait ?_).mono hS
    exact uses_bind (asksNothing_send [n]) fun r =>
      (uses_afterSend conf r.1 r.2).mono fun _ => Effect.Records.isQuery

end RetryEngine

/-! ## `PeriodicEngine` -/

namespace PeriodicEngine

variable {self : PeriodicEngine conf}

theorem asksNothing_afterCheck (n : Notification P) (bound data : Json) :
    Uses (fun e => e.isQuery = false) (do
      let duration ← waitDuration bound data
      waitFor duration
      let now ← Py.time
      let notification := n.stamp now
      let (sent, failed) ← send T [notification]
      let notification := (sent ++ failed).headD notification
      Py.publish (.periodic self.topicName) [notification.toJson]
      Py.commit : Py P Unit) := by
  refine asksNothing_wait (uses_bind ⟨rfl, fun _ => trivial⟩ fun now => ?_)
  exact uses_bind (asksNothing_send _) fun r => ⟨rfl, fun _ => ⟨rfl, fun _ => trivial⟩⟩

/-- The queries of the loop body are for the method of the document and the state of its alarm. -/
theorem asks_body {m : KafkaValue} (hS : ∀ e : Effect P, e.isQuery = false → S e)
    (h : ∀ data (n : Notification P), P.jsonLoads m = .ok data →
      decodeNotification P data = .ok n →
        S (.getNotification n.id) ∧ S (.getAlarmCurrentState n.alarmId)) :
    Uses S (self.body T m) := by
  have hcommit : Uses S (Py.commit : Py P Unit) := uses_commit.mono fun e he => hS e he.isQuery
  refine uses_bind_of_runs uses_ofExcept fun _ data hdata => ?_
  obtain ⟨-, hdata⟩ := runs_ofExcept.mp hdata
  refine uses_bind_of_runs
    (asksMethod_constructNotificationObject fun n hn => (h data n hdata.symm hn).1)
    fun tr r hr => ?_
  cases r with
  | none => exact hcommit
  | some m' =>
    have hstate : S (.getAlarmCurrentState m'.alarmId) := by
      cases hdec : decodeNotification P data with
      | error x =>
        rw [runs_constructNotificationObject_iff, hdec] at hr
        cases hr.2
      | ok n =>
        obtain ⟨-, -, -, hslots⟩ := (runs_constructNotificationObject hdec hr).some
        rw [hslots]
        exact (h data n hdata.symm hdec).2
    refine uses_bind (asksState_keepSending self hstate) fun keep => ?_
    split
    · exact (asksNothing_afterCheck m' _ data).mono hS
    · exact hcommit

end PeriodicEngine

end MonascaNotification
