import MonascaNotification.Python.Clock
import MonascaNotification.Spec.Asked
import MonascaNotification.Spec.Repositories
import MonascaNotification.Spec.System

/-!
# What the engines can rely on in each other's messages

The retry engine and the periodic engines compute with what they read outside of any exception
handler. `queueContract` says what the engines therefore promise each other: a message on one of
these topics is the document of a notification whose type, period, count and timestamp have
their proper types. It holds for all answers of the repository that do (`Effect.Regular`).
-/

namespace MonascaNotification

open Infra Prog Network

section

variable {P : Platform} {A : (e : Effect P) → e.Answer → Prop} {W : World P A} {conf : Config}
  {T : Notifiers} {mayCrash : Prop} {Reading : Rat → Prop}

/-! ## Answers -/

/-- The value of a period column. -/
def IsPeriod (period : Json) : Prop := period = .null ∨ ∃ p, period = .int p

/--
The clock gives a reading. A type is a string, which the repositories make lower-case, and a
period is an int or null. A query may also answer a row of any length, or raise.
-/
def Effect.Regular (Reading : Rat → Prop) : (e : Effect P) → e.Answer → Prop
  | .time, now => Reading now
  | .fetchNotifications _, answer => ∀ row ∈ answer.rows, IsPeriod row.period
  | .getNotification _, answer => ∀ row, answer = .ok (some row) →
      (∀ type, row[1]? = some type → ∃ t, type = .str t) ∧
        ∀ period, row[3]? = some period → IsPeriod period
  | _, _ => True

/-- The answers of the world are regular. -/
def World.Regular (W : World P A) (Reading : Rat → Prop) : Prop :=
  ∀ {w e r w'}, W.answer w e r w' → e.Regular Reading r

/-! ## Messages -/

/-- The slots an engine computes with have their types. -/
structure Notification.Typed (n : Notification P) : Prop where
  type_eq : ∃ t, n.type = .str t
  period : IsPeriod n.period
  retryCount_eq : ∃ count, n.retryCount = .int count

theorem Notification.Typed.hashable {n : Notification P} (h : n.Typed) :
    hashable n.type = .ok () := by
  obtain ⟨t, ht⟩ := h.type_eq
  rw [ht]
  rfl

theorem Notification.Typed.stamp {n : Notification P} (h : n.Typed) (now : Rat) :
    (n.stamp now).Typed :=
  ⟨h.type_eq, h.period, h.retryCount_eq⟩

/-- What is refreshed from a regular answer keeps its types. -/
theorem Notification.Typed.answered {n m : Notification P} (h : n.Typed)
    {answer : Except PyExn (Option (List Json))}
    (hreg : Effect.Regular (P := P) Reading (.getNotification n.id) answer)
    (hm : n.answered answer = some m) : m.Typed := by
  match answer with
  | .ok none => cases hm
  | .ok (some (name :: type :: address :: period :: rest)) =>
    cases hm
    obtain ⟨htype, hperiod⟩ := hreg _ rfl
    exact ⟨htype type rfl, hperiod period rfl, h.retryCount_eq⟩
  | .ok (some []) => cases hm
  | .ok (some [_]) => cases hm
  | .ok (some [_, _]) => cases hm
  | .ok (some [_, _, _]) => cases hm
  | .error x =>
    rw [Notification.answered_error] at hm
    split at hm
    · cases hm
      exact h
    · cases hm

theorem NotificationEngine.Built.typed {alarm : RawAlarm} {tr : PyTrace P}
    {ns : List (Notification P)} (h : NotificationEngine.Built P conf alarm tr ns)
    (hadm : Trace.Admits (Effect.Regular Reading) tr) {n : Notification P} (hn : n ∈ ns) :
    n.Typed := by
  obtain ⟨p, o, h⟩ := h
  obtain ⟨_, rows, -, hfetch, hbuilt⟩ :=
    AlarmProcessor.runs_toNotification h (List.ne_nil_of_mem hn)
  obtain ⟨-, hcount, row, hrow, -, htype, hperiod⟩ := hbuilt.of_mem hn
  exact ⟨⟨_, htype⟩, hperiod ▸ hadm _ hfetch row hrow, ⟨0, hcount⟩⟩

/-- The message is the document of a notification that was stamped. -/
def IsQueued (P : Platform) (Reading : Rat → Prop) (m : KafkaValue) : Prop :=
  ∃ n : Notification P, m = .dumps n.toJson ∧ n.Typed ∧
    ∃ stamp, Reading stamp ∧ n.notificationTimestamp = .float (.fin stamp)

theorem IsQueued.stamp {n : Notification P} (h : n.Typed) {now : Rat} (hnow : Reading now) :
    IsQueued P Reading (.dumps (n.stamp now).toJson) :=
  ⟨n.stamp now, rfl, h.stamp now, now, hnow, rfl⟩

/-! ## The contract -/

theorem Read.typed {message : KafkaValue} (hm : IsQueued P Reading message) {tr : PyTrace P}
    {n : Notification P} (h : Read message tr (some n))
    (hadm : Trace.Admits (Effect.Regular Reading) tr) : n.Typed := by
  obtain ⟨n₀, rfl, htyped, -⟩ := hm
  obtain ⟨data, hdata, h⟩ := h
  cases hdata
  rw [runs_constructNotificationObject_iff, decodeNotification_toJson] at h
  obtain ⟨answer, hgrab, hn⟩ := h
  exact Notification.Typed.answered (n := { n₀ with notificationTimestamp := .null })
    ⟨htyped.type_eq, htyped.period, htyped.retryCount_eq⟩ (hadm _ hgrab.mem)
    (Except.ok.inj hn).symm

theorem NotificationEngine.Opens.typed {ns ns' : List (Notification P)} {tr : PyTrace P}
    (h : Opens conf ns tr ns') (hns : ∀ n ∈ ns, n.Typed) {n' : Notification P} (hn' : n' ∈ ns') :
    n'.Typed := by
  obtain ⟨n, hn, rfl | ⟨now, rfl⟩⟩ := h.of_mem hn'
  · exact hns _ hn
  · exact (hns n hn).stamp now

/--
What an engine puts on a queue is a notification with a time that it has just read. The
notification is typed when the message is that the engine works on.
-/
theorem Engine.Performs.stamped {i : Engine conf} {o : Nat} {m : KafkaValue} {tr : PyTrace P}
    {e : Effect P} (h : i.Performs T o m tr e) {p : Topic × KafkaValue} (hp : p ∈ e.published)
    (hqueue : p.1.IsQueue) :
    ∃ (n : Notification P) (now : Rat), p.2 = .dumps (n.stamp now).toJson ∧
      (⟨.time, now⟩ : PyEvent P) ∈ tr ∧
      ∀ {Reading : Rat → Prop}, Trace.Admits (Effect.Regular Reading) tr →
        (i.source.IsQueue → IsQueued P Reading m) → n.Typed := by
  have hsilent := Effect.not_silent_of_mem_published hp
  cases i with
  | notification =>
    cases h with
    | silent hs => exact absurd hs hsilent
    | @opens tr₁ tr₂ pre n post pre' now topicName hb _ _ =>
      obtain rfl : p = (.periodic topicName, .dumps (n.stamp now).toJson) := by simpa using hp
      refine ⟨n, now, rfl, by simp, fun hadm _ => ?_⟩
      simp only [Trace.admits_append] at hadm
      exact hb.typed hadm.1.1 (by simp)
    | record _ _ _ =>
      obtain ⟨j, -, rfl⟩ := List.mem_map.mp hp
      cases hqueue
    | @requeue tr₁ tr₂ tr₃ ns ns' sent failed hb ho hh =>
      simp only [Effect.published_publish, List.map_map, List.mem_map, Function.comp] at hp
      obtain ⟨m', hm', rfl⟩ := hp
      obtain ⟨n', hn', -, now, hnow, rfl⟩ := hh.of_mem_failed hm'
      refine ⟨n', now, rfl, by simp [hnow], fun hadm _ => ?_⟩
      simp only [Trace.admits_append] at hadm
      exact ho.typed (fun n hn => hb.typed hadm.1.1.1 hn) hn'
    | _ => cases hp
  | retry =>
    cases h with
    | silent hs => exact absurd hs hsilent
    | record _ _ _ =>
      obtain ⟨j, -, rfl⟩ := List.mem_map.mp hp
      cases hqueue
    | @requeue tr₁ tr₂ tr₃ n m' count now hr _ hh hcount _ =>
      obtain ⟨-, -, t, rfl⟩ := hh.of_failed
      obtain rfl : p = (.retry,
          .dumps ({ n.stamp t with retryCount := count }.stamp now).toJson) := by
        simpa using hp
      refine ⟨{ n.stamp t with retryCount := count }, now, rfl, by simp, fun hadm hm => ?_⟩
      simp only [Trace.admits_append] at hadm
      have htyped : n.Typed := hr.typed (hm trivial) hadm.1.1.1
      obtain ⟨c, hc⟩ := htyped.retryCount_eq
      rw [Notification.stamp_retryCount, hc] at hcount
      cases hcount
      exact ⟨htyped.type_eq, htyped.period, ⟨c + 1, rfl⟩⟩
    | _ => cases hp
  | periodic self =>
    cases h with
    | silent hs => exact absurd hs hsilent
    | @forward tr₁ tr₂ tr₃ tr₄ n _ now now' sent failed hr _ _ _ hh heq =>
      obtain rfl : p = (.periodic self.topicName, .dumps (n.stamp now').toJson) := by
        simpa using hp
      refine ⟨n, now', rfl, ?_, fun hadm hm => ?_⟩
      · rcases hh.time_of_headD heq with rfl | hmem
        · simp
        · simp [hmem]
      · simp only [Trace.admits_append] at hadm
        exact hr.typed (hm trivial) hadm.1.1.1
    | _ => cases hp

/-- What the engines promise each other about the queues, in a world that is regular. -/
def queueContract (conf : Config) (T : Notifiers) (mayCrash : Prop) (hW : W.Regular Reading) :
    Contract (system W conf T mayCrash) where
  Valid := fun t m => t.IsQueue → IsQueued P Reading m
  A := Effect.Regular Reading
  Φ := fun i o m tr e => i.Performs T o m tr e ∧ Trace.Admits (Effect.Regular Reading) tr ∧
    (i.source.IsQueue → IsQueued P Reading m)
  Q := fun _ _ _ _ => True
  answer_admits := fun h => hW h
  env_valid := by
    rintro w pubs w' ⟨alarms, rfl, -⟩ p hp hqueue
    obtain ⟨m, -, rfl⟩ := List.mem_map.mp hp
    cases hqueue
  handler_performs := fun hm hadm h => ⟨Engine.performs_body h, hadm, hm⟩
  handler_returns := fun _ _ _ => trivial
  publish_valid := by
    rintro i o m tr e ⟨h, hadm, hm⟩ p hp hqueue
    obtain ⟨n, now, heq, hnow, htyped⟩ := Engine.Performs.stamped h hp hqueue
    rw [heq]
    exact IsQueued.stamp (htyped hadm hm) (hadm _ hnow)

/-! ## Consumers -/

/-- What the consumers compute with is there and has its type. -/
def Readable (P : Platform) (m : KafkaValue) : Prop :=
  ∃ data n count stamp, P.jsonLoads m = .ok data ∧ decodeNotification P data = .ok n ∧
    (∀ key ∈ ["id", "type", "name", "address", "period", "retry_count", "raw_alarm"],
      ∃ v, data.getItem key = .ok v) ∧
    data.getItem "retry_count" = .ok (.int count) ∧
    data.getItem "notification_timestamp" = .ok (.float (.fin stamp))

theorem IsQueued.readable {m : KafkaValue} (h : IsQueued P Reading m) : Readable P m := by
  obtain ⟨n, rfl, htyped, stamp, -, hstamp⟩ := h
  obtain ⟨count, hcount⟩ := htyped.retryCount_eq
  refine ⟨n.toJson, _, count, stamp, rfl, decodeNotification_toJson n, ?_, ?_, ?_⟩
  · intro key hkey
    simp only [List.mem_cons, List.not_mem_nil, or_false] at hkey
    rcases hkey with rfl | rfl | rfl | rfl | rfl | rfl | rfl <;>
      simp [Notification.toJson, Json.getItem, List.lookup_cons]
  · simp [Notification.toJson, Json.getItem, List.lookup_cons, hcount]
  · rw [getItem_toJson_timestamp, hstamp]

/-- Reading a queued message raises nothing. -/
theorem ensures_constructNotificationObject {n : Notification P} (h : n.Typed) :
    Ensures (Effect.Regular Reading) (constructNotificationObject n.toJson)
      fun out => ∃ r, out = .ok r ∧ ∀ m : Notification P, r = some m → m.Typed := by
  intro tr out hadm hrun
  rw [runs_constructNotificationObject_iff, decodeNotification_toJson] at hrun
  obtain ⟨answer, hgrab, rfl⟩ := hrun
  refine ⟨_, rfl, fun m hm => ?_⟩
  exact Notification.Typed.answered (n := { n with notificationTimestamp := .null })
    ⟨h.type_eq, h.period, h.retryCount_eq⟩ (hadm _ hgrab.mem) hm

theorem intToFloat_eq {n : Int} {q : Rat} (h : P.round n = .fin q) :
    P.intToFloat n = .ok (.fin q) := by
  rw [Platform.intToFloat, h]

/-! ## Waits -/

/-- The first reading of the clock. -/
def firstReading (tr : PyTrace P) : Option Rat :=
  tr.findSome? fun
    | ⟨.time, now⟩ => some now
    | _ => none

/-- The wait from the first reading on is computed, and `time.sleep` takes what is left of it. -/
def WaitTaken (P : Platform) (bound : Int) (m : KafkaValue) (tr : PyTrace P) : Prop :=
  ∀ data now, P.jsonLoads m = .ok data → firstReading tr = some now →
    ∃ slept, waitSlept P (.int bound) data now = .ok slept

/-- The wait was not computed, or `time.sleep` refused it, and nothing was done after it. -/
def WaitRefused (P : Platform) (bound : Int) (m : KafkaValue) (tr : PyTrace P) (x : PyExn) : Prop :=
  ∃ tr₁ data now, tr = tr₁ ++ [⟨.time, now⟩] ∧ (∀ ev ∈ tr₁, ev.1.isQuery = true) ∧
    P.jsonLoads m = .ok data ∧ waitSlept P (.int bound) data now = .error x

/-- Queries do not look at the clock. -/
theorem firstReading_append {tr₁ : PyTrace P} (h : ∀ ev ∈ tr₁, ev.1.isQuery = true)
    (tr₂ : PyTrace P) : firstReading (tr₁ ++ tr₂) = firstReading tr₂ := by
  have hnone : firstReading tr₁ = none := by
    rw [firstReading, List.findSome?_eq_none_iff]
    rintro ⟨e, r⟩ hev
    have hquery := h _ hev
    cases e <;> first | rfl | cases hquery
  unfold firstReading at hnone ⊢
  rw [List.findSome?_append, hnone, Option.none_or]

theorem waitTaken_of_isQuery {bound : Int} {m : KafkaValue} {tr₁ tr₂ : PyTrace P}
    (h : ∀ ev ∈ tr₁, ev.1.isQuery = true) (hnone : firstReading tr₂ = none) :
    WaitTaken P bound m (tr₁ ++ tr₂) := by
  intro data now _ hnow
  rw [firstReading_append h, hnone] at hnow
  cases hnow

theorem waitTaken_of_slept {bound : Int} {data : Json} {now : Rat} {slept : Option Rat}
    {tr₁ : PyTrace P} (h : ∀ ev ∈ tr₁, ev.1.isQuery = true)
    (hslept : waitSlept P (.int bound) data now = .ok slept) (tr₂ : PyTrace P) :
    WaitTaken P bound (.dumps data) (tr₁ ++ (waitTrace now slept ++ tr₂)) := by
  intro data' now' hdata hnow
  cases hdata
  rw [firstReading_append h] at hnow
  cases hnow
  exact ⟨slept, hslept⟩

theorem WaitRefused.not_taken {bound : Int} {m : KafkaValue} {tr : PyTrace P} {x : PyExn}
    (h : WaitRefused P bound m tr x) : ¬ WaitTaken P bound m tr := by
  obtain ⟨tr₁, data, now, rfl, hasks, hdata, hrefused⟩ := h
  intro htaken
  obtain ⟨slept, hslept⟩ := htaken data now hdata (firstReading_append hasks _)
  rw [hrefused] at hslept
  cases hslept

/-- A wait that is measured is taken. -/
theorem exists_waitSlept {bound : Int} (hP : P.Measures Reading bound) {n : Notification P}
    {stamp now : Rat} (hstamp : n.notificationTimestamp = .float (.fin stamp))
    (hreading : Reading stamp) (hnow : Reading now) :
    ∃ slept, waitSlept P (.int bound) n.toJson now = .ok slept := by
  obtain ⟨b, d, q, hb, hd, hq, hsleep⟩ := hP now stamp hnow hreading
  have hleft : waitLeft P (.int bound) n.toJson now = .ok (.fin q) := by
    unfold waitLeft
    rw [getItem_toJson_timestamp, hstamp]
    show (do
      let bound ← P.intToFloat bound
      return P.sub bound (P.sub (.fin now) (.fin stamp)) : Except PyExn PyFloat) = _
    rw [intToFloat_eq hb]
    show Except.ok (P.sub (.fin b) (P.round (now - stamp))) = _
    rw [hd]
    exact congrArg Except.ok hq
  unfold waitSlept
  rw [hleft, ok_bind]
  by_cases hpos : 0 < q
  · obtain ⟨q', hq'⟩ := hsleep hpos
    refine ⟨some q', ?_⟩
    simp [PyFloat.gtInt, hpos, hq']
  · refine ⟨none, ?_⟩
    rw [if_neg (by simpa [PyFloat.gtInt] using hpos)]
    rfl

theorem WaitRefused.not_measures {bound : Int} {m : KafkaValue} {tr : PyTrace P} {x : PyExn}
    (h : WaitRefused P bound m tr x) (hm : IsQueued P Reading m)
    (hadm : Trace.Admits (Effect.Regular Reading) tr) : ¬ P.Measures Reading bound := by
  intro hP
  obtain ⟨n, rfl, -, stamp, hreading, hstamp⟩ := hm
  obtain ⟨tr₁, data, now, rfl, -, hdata, hrefused⟩ := h
  cases hdata
  have hnow : Reading now := hadm ⟨.time, now⟩ (by simp)
  obtain ⟨slept, hslept⟩ := exists_waitSlept hP hstamp hreading hnow
  rw [hrefused] at hslept
  cases hslept

/-! ## The two loop bodies -/

/-- What is left of the list after a send are the objects that were given to it. -/
theorem ensures_send_singleton {n : Notification P} (h : n.Typed) :
    Ensures (Effect.Regular Reading) (send T [n]) fun out => ∃ sent failed,
      out = .ok (sent, failed) ∧ ∀ m ∈ failed, m.Typed := by
  intro tr out hadm hrun
  obtain ⟨⟨sent, failed⟩, rfl⟩ :=
    ensures_send T (by simpa using h.hashable) tr out hadm hrun
  refine ⟨sent, failed, rfl, fun m hm => ?_⟩
  obtain ⟨n', hn', -, now, -, rfl⟩ := (runs_send hrun).of_mem_failed hm
  rw [List.mem_singleton] at hn'
  subst hn'
  exact h.stamp now

theorem RetryEngine.ensures_afterFailure {m : Notification P} (h : m.Typed) :
    Ensures (Effect.Regular Reading) (afterFailure conf m) (· = .ok ()) := by
  obtain ⟨count, hcount⟩ := h.retryCount_eq
  unfold afterFailure
  rw [hcount]
  refine ensures_perform fun now _ => ?_
  show Ensures _ (if decide (count + 1 < conf.maxAttempts) = true then _ else _) _
  split
  · exact ensures_perform fun _ _ => ensures_ret rfl
  · exact ensures_ret rfl

theorem ensures_commit : Ensures (Effect.Regular Reading) (Py.commit : Py P Unit) (· = .ok ()) :=
  ensures_perform fun _ _ => ensures_ret rfl

/-- The end of the loop body of the retry engine. -/
theorem RetryEngine.ensures_afterSend {failed : List (Notification P)}
    (h : ∀ m ∈ failed, m.Typed) :
    Ensures (Effect.Regular Reading) (do
      if let notification :: _ := failed then
        afterFailure conf notification
      Py.commit : Py P Unit) (· = .ok ()) := by
  cases failed with
  | nil => exact ensures_commit
  | cons m _ =>
    exact (ensures_afterFailure (h m (by simp))).bind (fun _ _ => ensures_commit)
      (by rintro _ hx; cases hx)

/-- The loop body of the retry engine after its wait. -/
theorem RetryEngine.ensures_afterWait {n : Notification P} (h : n.Typed) :
    Ensures (Effect.Regular Reading) (do
      let (sent, failed) ← send T [n]
      if let notification :: _ := sent then
        Py.publish .notification [notification.toJson]
      if let notification :: _ := failed then
        afterFailure conf notification
      Py.commit : Py P Unit) (· = .ok ()) := by
  refine (ensures_send_singleton h).bind ?_ (by rintro _ ⟨_, _, hx, -⟩; cases hx)
  rintro ⟨sent, failed⟩ ⟨_, _, hlists, hfailed⟩
  cases hlists
  cases sent with
  | nil => exact ensures_afterSend hfailed
  | cons m _ => exact ensures_perform fun _ _ => ensures_afterSend hfailed

/-- The retry engine raises on a queued message only what the wait for it raises. -/
theorem RetryEngine.outcome_body {m : KafkaValue} (hm : IsQueued P Reading m) {tr : PyTrace P}
    {out : Except PyExn Unit} (hadm : Trace.Admits (Effect.Regular Reading) tr)
    (h : Runs (body conf T m) tr out) :
    out = .ok () ∧ WaitTaken P conf.interval m tr ∨
      ∃ x, out = .error x ∧ WaitRefused P conf.interval m tr x := by
  obtain ⟨n, rfl, htyped, -⟩ := hm
  obtain ⟨tr₁, tr₂, r, rfl, hread, ⟨_, hr, htyped⟩, -, hadm, hrest⟩ :=
    (ensures_constructNotificationObject htyped).runs_bind (by simp) hadm h
  cases hr
  have hasks := (asks_constructNotificationObject _).runs hread
  cases r with
  | none =>
    obtain ⟨_, _, rfl, rfl, rfl⟩ := hrest
    exact Or.inl ⟨rfl, waitTaken_of_isQuery hasks rfl⟩
  | some n' =>
    obtain ⟨now, ⟨x, hslept, rfl, rfl⟩ | ⟨slept, tr₃, hslept, rfl, hsend⟩⟩ := runs_wait.mp hrest
    · exact Or.inr ⟨x, rfl, tr₁, n.toJson, now, rfl, hasks, rfl, hslept⟩
    · simp only [Trace.admits_append] at hadm
      exact Or.inl ⟨ensures_afterWait (htyped n' rfl) tr₃ _ hadm.2 hsend,
        waitTaken_of_slept hasks hslept tr₃⟩

namespace PeriodicEngine

/-- Whenever it was called, `get_alarm_current_state` answered or raised `DatabaseException`. -/
def StateGot (tr : PyTrace P) : Prop :=
  ∀ alarmId x, (⟨.getAlarmCurrentState alarmId, (.error x : Except PyExn (Option String))⟩ :
    PyEvent P) ∈ tr → x = .databaseException

/--
`get_alarm_current_state` raised in both tries, or something else than `DatabaseException` in the
first one, and nothing was done after it.
-/
def StateUnknown (tr : PyTrace P) (x : PyExn) : Prop :=
  ∃ alarmId,
    x ≠ .databaseException ∧
      tr = [⟨.getAlarmCurrentState alarmId, (.error x : Except PyExn (Option String))⟩] ∨
    tr = [
      ⟨.getAlarmCurrentState alarmId, (.error .databaseException : Except PyExn (Option String))⟩,
      ⟨.getAlarmCurrentState alarmId, (.error x : Except PyExn (Option String))⟩]

theorem stateGot_append {tr₁ tr₂ : PyTrace P} :
    StateGot (tr₁ ++ tr₂) ↔ StateGot tr₁ ∧ StateGot tr₂ := by
  simp [StateGot, or_imp, forall_and]

/-- A program that does not ask for a state. -/
theorem stateGot_of_uses {α : Type} {p : Py P α}
    (hp : Uses (fun e => ∀ alarmId, e ≠ .getAlarmCurrentState alarmId) p) {tr : PyTrace P}
    {out : Except PyExn α} (h : Runs p tr out) : StateGot tr :=
  fun alarmId _ hmem => absurd rfl (hp.runs h _ hmem alarmId)

theorem stateGot_of_stateAnswer {alarmId : Json} {current : Option String} {tr : PyTrace P}
    (h : StateAnswer P alarmId current tr) : StateGot tr := by
  intro alarmId' x hmem
  rcases h.eq_of_mem hmem with hx | hx
  · exact Except.error.inj hx
  · cases hx

theorem StateUnknown.stateGot_iff {tr : PyTrace P} {x : PyExn} (h : StateUnknown tr x) :
    StateGot tr ↔ x = .databaseException := by
  obtain ⟨alarmId, ⟨hne, rfl⟩ | rfl⟩ := h
  · exact iff_of_false (fun hgot => hne (hgot alarmId x List.mem_cons_self)) hne
  · constructor
    · exact fun hgot => hgot alarmId x (by simp)
    · rintro rfl alarmId' y hmem
      have hmem : alarmId' = alarmId ∧ y = .databaseException := by simpa using hmem
      exact hmem.2

theorem StateUnknown.isQuery {tr : PyTrace P} {x : PyExn} (h : StateUnknown tr x) :
    ∀ ev ∈ tr, ev.1.isQuery = true := by
  obtain ⟨alarmId, ⟨-, rfl⟩ | rfl⟩ := h <;> simp [Effect.isQuery]

/-- `_keep_sending` raises only what the query raised. -/
theorem runs_keepSending_error {self : PeriodicEngine conf} {alarmId originalState period : Json}
    {tr : PyTrace P} {x : PyExn}
    (h : Runs (self.keepSending alarmId originalState period) tr (.error x)) :
    StateUnknown tr x := by
  rw [keepSending_eq] at h
  rcases runs_bind_error.mp h with hquery | ⟨_, _, _, -, -, -, hrest⟩
  · simp only [Py.runs_retryOnDatabaseException, runs_getAlarmCurrentState] at hquery
    rcases hquery with ⟨rfl, hne⟩ | ⟨_, _, rfl, rfl, rfl⟩
    · exact ⟨alarmId, Or.inl ⟨by simpa using hne, rfl⟩⟩
    · exact ⟨alarmId, Or.inr rfl⟩
  · cases hrest

/-- The loop body of the periodic engine after its wait. -/
theorem ensures_afterWait {self : PeriodicEngine conf} {m : Notification P} (hm : m.Typed) :
    Ensures (Effect.Regular Reading) (do
      let now ← Py.time
      let notification := m.stamp now
      let (sent, failed) ← send T [notification]
      let notification := (sent ++ failed).headD notification
      Py.publish (.periodic self.topicName) [notification.toJson]
      Py.commit) (· = .ok ()) := by
  refine ensures_perform fun now _ => ?_
  refine (ensures_send_singleton (hm.stamp now)).bind ?_ (by rintro _ ⟨_, _, hx, -⟩; cases hx)
  rintro ⟨sent, failed⟩ -
  exact ensures_perform fun _ _ => ensures_commit

/-- A chain goes on only in the period of its engine. -/
theorem period_eq_of_goesOn {self : PeriodicEngine conf} {current : Option String}
    {originalState : Json} {m : Notification P} (hm : m.Typed)
    (h : self.goesOn current originalState m.period) : m.period = .int self.period := by
  rcases hm.period with hnull | ⟨p, hp⟩
  · rw [hnull] at h
    exact absurd h.2 (by simp [Json.eqInt, Json.asInt?])
  · rw [hp] at h ⊢
    simpa [Json.eqInt, Json.asInt?] using h.2

/--
The periodic engine raises on a queued message only what the query for the state raised, or the
wait.
-/
theorem outcome_body (self : PeriodicEngine conf) {m : KafkaValue} (hm : IsQueued P Reading m)
    {tr : PyTrace P} {out : Except PyExn Unit} (hadm : Trace.Admits (Effect.Regular Reading) tr)
    (h : Runs (self.body T m) tr out) :
    out = .ok () ∧ StateGot tr ∧ WaitTaken P self.period m tr ∨
    (∃ x tr₁ tr₂, out = .error x ∧ tr = tr₁ ++ tr₂ ∧ StateUnknown tr₂ x ∧ StateGot tr₁ ∧
      ∀ ev ∈ tr₁, ev.1.isQuery = true) ∨
    ∃ x, out = .error x ∧ WaitRefused P self.period m tr x := by
  obtain ⟨n, rfl, htyped, -⟩ := hm
  obtain ⟨tr₁, tr₂, r, rfl, hread, ⟨_, hr, htyped⟩, -, hadm, hrest⟩ :=
    (ensures_constructNotificationObject htyped).runs_bind (by simp) hadm h
  cases hr
  have hasks := (asks_constructNotificationObject _).runs hread
  have hgot : StateGot tr₁ := stateGot_of_uses
    (asksMethod_constructNotificationObject fun _ _ _ hne => by cases hne) hread
  cases r with
  | none =>
    obtain ⟨_, _, rfl, rfl, rfl⟩ := hrest
    refine Or.inl ⟨rfl, stateGot_append.mpr ⟨hgot, ?_⟩, waitTaken_of_isQuery hasks rfl⟩
    simp [StateGot]
  | some m' =>
    have htyped : m'.Typed := htyped m' rfl
    rcases runs_bind.mp hrest with ⟨x, rfl, hkeep⟩ | ⟨tr₃, tr₄, keep, rfl, hkeep, hsend⟩
    · exact Or.inr (Or.inl ⟨x, tr₁, tr₂, rfl, rfl, runs_keepSending_error hkeep, hgot, hasks⟩)
    simp only [Trace.admits_append] at hadm
    obtain ⟨current, hstate, hgo⟩ := runs_keepSending hkeep
    have hgot' := stateGot_append.mpr ⟨hgot, stateGot_of_stateAnswer hstate⟩
    have hasks' : ∀ ev ∈ tr₁ ++ tr₃, ev.1.isQuery = true := fun ev hev =>
      (List.mem_append.mp hev).elim (hasks ev) ((asks_keepSending _ _ _ _).runs hkeep ev)
    rw [← List.append_assoc]
    cases keep with
    | false =>
      obtain ⟨_, _, rfl, rfl, rfl⟩ := hsend
      refine Or.inl ⟨rfl, stateGot_append.mpr ⟨hgot', ?_⟩, waitTaken_of_isQuery hasks' rfl⟩
      simp [StateGot]
    | true =>
      have hperiod := period_eq_of_goesOn htyped (of_decide_eq_true hgo.symm)
      have hrest : StateGot tr₄ := stateGot_of_uses ((asksNothing_afterCheck m' _ _).mono
        fun e he alarmId hne => by rw [hne] at he; cases he) hsend
      rw [hperiod] at hsend
      replace hsend : Runs (do
        let duration ← waitDuration (.int self.period) n.toJson
        waitFor duration
        let now ← Py.time
        let notification := m'.stamp now
        let (sent, failed) ← send T [notification]
        let notification := (sent ++ failed).headD notification
        Py.publish (.periodic self.topicName) [notification.toJson]
        Py.commit) tr₄ out := hsend
      obtain ⟨now, ⟨x, hslept, rfl, rfl⟩ | ⟨slept, tr₅, hslept, rfl, hlast⟩⟩ := runs_wait.mp hsend
      · exact Or.inr (Or.inr ⟨x, rfl, _, n.toJson, now, rfl, hasks', rfl, hslept⟩)
      · simp only [Trace.admits_append] at hadm
        exact Or.inl ⟨ensures_afterWait htyped tr₅ _ hadm.2.2 hlast,
          stateGot_append.mpr ⟨hgot', hrest⟩, waitTaken_of_slept hasks' hslept tr₅⟩

/-- The body of a queued message ends as it should if and only if its answers are as they should. -/
theorem digests_iff (self : PeriodicEngine conf) {m : KafkaValue} (hm : IsQueued P Reading m)
    {tr : PyTrace P} {out : Except PyExn Unit} (hadm : Trace.Admits (Effect.Regular Reading) tr)
    (h : Runs (self.body T m) tr out) :
    (out = .ok () ∨ out = .error .databaseException ∧ ∃ tr₁ tr₂, tr = tr₁ ++ tr₂ ∧
      StateUnknown tr₂ .databaseException) ↔
    StateGot tr ∧ WaitTaken P self.period m tr := by
  rcases self.outcome_body hm hadm h with ⟨rfl, hgot, htaken⟩ |
    ⟨x, tr₁, tr₂, rfl, rfl, hunknown, hgot, hasks⟩ | ⟨x, rfl, hrefused⟩
  · exact iff_of_true (Or.inl rfl) ⟨hgot, htaken⟩
  · constructor
    · rintro (hx | ⟨hx, -⟩)
      · cases hx
      · cases hx
        refine ⟨stateGot_append.mpr ⟨hgot, hunknown.stateGot_iff.mpr rfl⟩,
          waitTaken_of_isQuery hasks ?_⟩
        rw [← List.append_nil tr₂, firstReading_append hunknown.isQuery]
        rfl
    · rintro ⟨hgot, -⟩
      obtain rfl := hunknown.stateGot_iff.mp (stateGot_append.mp hgot).2
      exact Or.inr ⟨rfl, tr₁, tr₂, rfl, hunknown⟩
  · refine iff_of_false ?_ fun h => hrefused.not_taken h.2
    rintro (hx | ⟨-, tr₁, tr₂, htr, hunknown⟩)
    · cases hx
    · -- a wait ends in a look at the clock, and this trace ends in a query
      obtain ⟨tr₃, data, now, rfl, -⟩ := hrefused
      have hlast := congrArg List.getLast? htr
      obtain ⟨alarmId, ⟨hne, -⟩ | rfl⟩ := hunknown
      · exact hne rfl
      · simp at hlast

end PeriodicEngine

/--
**When the engines choke on each other's messages.** In every reachable state, every message on the
retry topic and on the topics of the periodic engines can be read. The loop body of the retry engine
raises nothing on it if and only if the wait for it is computed and taken by `time.sleep`. That of a
periodic engine raises nothing but a `DatabaseException` of both tries of `get_alarm_current_state`
if and only if the same holds of its wait, and this query answers or raises `DatabaseException`.
-/
theorem queues_digestible_iff (hW : W.Regular Reading) {s : SystemState W conf}
    (h : Reachable (system W conf T mayCrash) s) :
    (∀ m ∈ s.log .retry, Readable P m ∧
      ∀ (tr : PyTrace P) out, Trace.Admits (Effect.Regular Reading) tr →
        Runs (RetryEngine.body conf T m) tr out →
          (out = .ok () ↔ WaitTaken P conf.interval m tr)) ∧
    ∀ (self : PeriodicEngine conf), ∀ m ∈ s.log (.periodic self.topicName), Readable P m ∧
      ∀ (tr : PyTrace P) out, Trace.Admits (Effect.Regular Reading) tr →
        Runs (self.body T m) tr out →
          ((out = .ok () ∨ out = .error .databaseException ∧ ∃ tr₁ tr₂, tr = tr₁ ++ tr₂ ∧
            PeriodicEngine.StateUnknown tr₂ .databaseException) ↔
          PeriodicEngine.StateGot tr ∧ WaitTaken P self.period m tr) := by
  have hinv := (queueContract conf T mayCrash hW).inv_reachable h
  constructor
  · intro m hm
    have hqueued : IsQueued P Reading m := hinv.valid _ m hm trivial
    refine ⟨hqueued.readable, fun tr out hadm hrun => ?_⟩
    rcases RetryEngine.outcome_body hqueued hadm hrun with ⟨rfl, htaken⟩ | ⟨x, rfl, hrefused⟩
    · exact iff_of_true rfl htaken
    · exact iff_of_false nofun hrefused.not_taken
  · intro self m hm
    have hqueued : IsQueued P Reading m := hinv.valid _ m hm trivial
    exact ⟨hqueued.readable, fun tr out hadm hrun => self.digests_iff hqueued hadm hrun⟩

/-- The environment with all regular answers, in which anything is published as an alarm. -/
def anyRegular (P : Platform) (Reading : Rat → Prop) : Environment P where
  State := Unit
  init := fun _ => True
  answer := fun _ e r _ => e.Admissible r ∧ e.Regular Reading r
  change := fun _ _ _ => True
  admissible := fun h => h.1

end

namespace Deployment

theorem regular_reply {Reading : Rat → Prop} {now : Rat} (hnow : Reading now)
    (plugin : Except PyExn Json) (e : Effect cpython) :
    e.Regular Reading (store.reply now plugin e) := by
  cases e with
  | time => exact hnow
  | fetchNotifications alarm =>
    intro row hrow
    change row ∈ store.notifications alarm at hrow
    unfold store at hrow
    dsimp only at hrow
    split at hrow
    · rw [List.mem_singleton] at hrow
      rw [hrow]
      exact Or.inr ⟨60, rfl⟩
    · cases hrow
  | getNotification id =>
    intro row hrow
    change Except.ok ((store.method id).map StoredMethod.columns) = Except.ok (some row) at hrow
    unfold store at hrow
    dsimp only at hrow
    split at hrow
    · cases hrow
      constructor
      · rintro _ ⟨⟩
        exact ⟨_, rfl⟩
      · rintro _ ⟨⟩
        exact Or.inr ⟨60, rfl⟩
    · cases hrow
  | _ => trivial

/-- The loop body for the first alarm. -/
abbrev firstBody : Py cpython Unit :=
  (Engine.notification : Engine conf).body cpython notifiers 0
    (transitionMessage (alarm "OK" "ALARM"))

/-- The world that answers from the store, at the time 0, with a plugin that refuses. -/
def refuses (e : Effect cpython) (w : Unit) : e.Answer × Unit :=
  (store.reply 0 (.ok (.bool false)) e, w)

/-- The first alarm was refused by the plugin, in the environment with all regular answers. -/
def refusedOnce (Reading : Rat → Prop) : SystemState (anyRegular cpython Reading) conf :=
  (system (anyRegular cpython Reading) conf notifiers False).after
    { (initial () : SystemState (anyRegular cpython Reading) conf) with
      log := deliver (fun _ => []) [(.alarm, transitionMessage (alarm "OK" "ALARM"))] }
    .notification 0 (transitionMessage (alarm "OK" "ALARM")) [] (firstBody.trace refuses ()) ()

theorem reachable_refusedOnce {Reading : Rat → Prop} (h : Reading 0) :
    Reachable (system (anyRegular cpython Reading) conf notifiers False) (refusedOnce Reading) := by
  have hinit : Reachable (system (anyRegular cpython Reading) conf notifiers False)
      (initial ()) := .init trivial
  have halarm : (system (anyRegular cpython Reading) conf notifiers False).env ()
      [(.alarm, transitionMessage (alarm "OK" "ALARM"))] () :=
    ⟨[transitionMessage (alarm "OK" "ALARM")], rfl, trivial⟩
  have hok : (firstBody.run refuses ()).1 = .ok () := by decide +kernel
  have hrun : Runs firstBody (firstBody.trace refuses ()) (.ok ()) := runs_trace_of_eq hok
  have hanswers : ∀ (w : Unit) (e : Effect cpython),
      (system (anyRegular cpython Reading) conf notifiers False).answer w e (refuses e w).1
        (refuses e w).2 :=
    fun w e => ⟨(store.answers_reply 0 _ e).admissible, regular_reply h _ e⟩
  exact (hinit.step (.env halarm)).run_body rfl rfl hrun (Answers.trace hanswers firstBody ())

/-- What the loop body of the retry engine gets for the message that the refused alarm left. -/
abbrev onRetryTrace : PyTrace cpython := (RetryEngine.body conf notifiers onRetry).trace refuses ()

abbrev onPeriodicTrace : PyTrace cpython := (everyMinute.body notifiers onPeriodic).trace refuses ()

end Deployment

open Deployment in
/-- Both waits of a minute and less are taken, and the state of the alarm is there. -/
theorem queues_digestible_iff_refusedOnce :
    WaitTaken cpython conf.interval onRetry onRetryTrace ∧
      PeriodicEngine.StateGot onPeriodicTrace ∧
        WaitTaken cpython everyMinute.period onPeriodic onPeriodicTrace := by
  have hboth := queues_digestible_iff (W := anyRegular cpython InRange) (T := notifiers)
    (fun h => h.2) (reachable_refusedOnce inRange_zero)
  have hadm : ∀ {α : Type} (p : Py cpython α),
      Trace.Admits (Effect.Regular InRange) (p.trace refuses ()) :=
    fun p => admits_trace (fun e _ => regular_reply inRange_zero _ e) p ()
  constructor
  · have hmem : onRetry ∈ (refusedOnce InRange).log .retry := by decide +kernel
    have hok : ((RetryEngine.body conf notifiers onRetry).run refuses ()).1 = .ok () := by
      decide +kernel
    exact ((hboth.1 onRetry hmem).2 onRetryTrace _ (hadm _) (runs_trace _ _ _)).mp hok
  · have hmem : onPeriodic ∈ (refusedOnce InRange).log (.periodic everyMinute.topicName) := by
      decide +kernel
    have hok : ((everyMinute.body notifiers onPeriodic).run refuses ()).1 = .ok () := by
      decide +kernel
    exact ((hboth.2 everyMinute onPeriodic hmem).2 onPeriodicTrace _ (hadm _)
      (runs_trace _ _ _)).mp (Or.inl hok)

/-! ## An ordinary identifier -/

/-- The world of a database that a driver asks on a connection that lives. -/
def Driver.serving (D : Driver) (S : Server) (db : Database) (now : Rat)
    (plugin : Except PyExn Json) : World P fun _ _ => True where
  State := Unit
  init := fun _ => True
  answer := fun _ e r _ => r = (D.answer S now plugin e (.live db)).1
  change := fun _ _ _ => True
  admissible := fun _ => trivial

namespace Deployment

/-- The identifier of the method is one character, and that of the alarm is four. -/
def longDatabase : Database :=
  { database with
    alarmAction := [{ actionId := "7", alarmDefinitionId := "2", alarmState := "ALARM" }]
    notificationMethod :=
      [{ id := "7", name := method.name, type := .str "EMAIL", address := method.address,
         period := method.period }]
    alarm := [{ id := "1234", state := some "ALARM" }]
    action_nodup := by decide
    method_nodup := by decide
    alarm_nodup := by decide }

/-- The transition of alarm `1234`. -/
def longAlarm : Json := .obj
  [("tenantId", .str "0"), ("alarmId", .str "1234"), ("alarmDefinitionId", .str "2"),
   ("alarmName", .str "test Alarm"), ("oldState", .str "OK"), ("newState", .str "ALARM"),
   ("stateChangeReason", .str "I am alarming!"), ("severity", .str "LOW"), ("link", .str ""),
   ("lifecycleState", .str "OPEN"), ("timestamp", .int 0), ("actionsEnabled", .int 1),
   ("metrics", .obj [("name", .str "cpu")])]

/-- PostgreSQL, at the time 0, with a plugin that accepts. -/
abbrev postgresql : World cpython fun _ _ => True :=
  Driver.postgresql.serving server longDatabase 0 (.ok (.bool true))

theorem lower_email : cpython.lower "EMAIL" = "email" := by decide +kernel

/-- The answer to the first query. -/
def longRows (type : String) : RowStream where
  rows := [{ id := .str "7", type, name := method.name, address := method.address,
             period := method.period }]
  failure := none

/-- The answer to the second query. -/
def longColumns (type : String) : Except PyExn (Option (List Json)) :=
  .ok (some [method.name, .str type, method.address, method.period])

/-- The answers of PostgreSQL, in which the type is already lower-case. -/
def longReply (e : Effect cpython) (w : Unit) : e.Answer × Unit :=
  (match e with
    | .fetchNotifications _ => longRows "email"
    | .getNotification _ => longColumns "email"
    | .getAlarmCurrentState _ => .error .typeError
    | e => (Driver.postgresql.answer server 0 (.ok (.bool true)) e (.live longDatabase)).1, w)

/-- What the engines ask of PostgreSQL for the alarm. -/
def LongAsked (e : Effect cpython) : Prop := postgresql.answer () e (longReply e ()).1 ()

theorem longAsked_of_isQuery {e : Effect cpython} (h : e.isQuery = false) : LongAsked e := by
  cases e <;> first | rfl | cases h

theorem longAsked_fetchNotifications : LongAsked (.fetchNotifications longAlarm) :=
  congrArg longRows lower_email.symm

theorem longAsked_getNotification : LongAsked (.getNotification (.str "7")) :=
  congrArg longColumns lower_email.symm

theorem longAsked_getAlarmCurrentState : LongAsked (.getAlarmCurrentState (.str "1234")) := rfl

abbrev longBody : Py cpython Unit :=
  (Engine.notification : Engine conf).body cpython notifiers 0 (transitionMessage longAlarm)

/-- The notification of the alarm was sent. -/
def longSent : SystemState postgresql conf :=
  (system postgresql conf notifiers False).after
    { (initial () : SystemState postgresql conf) with
      log := deliver (fun _ => []) [(.alarm, transitionMessage longAlarm)] }
    .notification 0 (transitionMessage longAlarm) [] (longBody.trace longReply ()) ()

theorem reachable_longSent : Reachable (system postgresql conf notifiers False) longSent := by
  have hinit : Reachable (system postgresql conf notifiers False) (initial ()) := .init trivial
  have halarm : (system postgresql conf notifiers False).env ()
      [(.alarm, transitionMessage longAlarm)] () :=
    ⟨[transitionMessage longAlarm], rfl, trivial⟩
  have hok : (longBody.run longReply ()).1 = .ok () := by decide +kernel
  have hrun : Runs longBody (longBody.trace longReply ()) (.ok ()) := runs_trace_of_eq hok
  have hasked : Uses LongAsked longBody := by
    refine NotificationEngine.asks_body (fun _ => longAsked_of_isQuery) fun json hjson => ?_
    cases hjson
    exact longAsked_fetchNotifications
  exact (hinit.step (.env halarm)).run_body rfl rfl hrun
    (Answers.trace_of_uses (fun _ _ he => he) hasked ())

/-- The message that the alarm left on the periodic topic. -/
def longPeriodic : KafkaValue :=
  (longSent.log (.periodic everyMinute.topicName)).headD (.text "")

theorem asked_longPeriodic : Uses LongAsked (everyMinute.body notifiers longPeriodic) := by
  refine PeriodicEngine.asks_body (fun _ => longAsked_of_isQuery) fun data n hdata hn => ?_
  have hids : (cpython.jsonLoads longPeriodic >>= decodeNotification cpython).map
      (fun n => (n.id, n.alarmId)) = .ok (.str "7", .str "1234") := by
    decide +kernel
  rw [hdata, ok_bind, hn] at hids
  obtain ⟨hid, halarmId⟩ := Prod.mk.inj (Except.ok.inj hids)
  rw [hid, halarmId]
  exact ⟨longAsked_getNotification, longAsked_getAlarmCurrentState⟩

end Deployment

open Deployment in
/-- psycopg2 is given the four characters of the alarm for one placeholder. -/
theorem periodic_engine_chokes :
    ∃ (s : SystemState postgresql conf) (tr : PyTrace cpython),
      Reachable (system postgresql conf notifiers False) s ∧
      s.phase (.periodic everyMinute) = .running 0 longPeriodic tr (.raise .typeError) := by
  have hmem : (longSent.log (.periodic everyMinute.topicName))[0]? = some longPeriodic := by
    decide +kernel
  have hraise : ((everyMinute.body notifiers longPeriodic).run longReply ()).1 =
      .error .typeError := by
    decide +kernel
  have hrun := runs_trace_of_eq hraise
  have hphase : longSent.phase (.periodic everyMinute) = .idle 0 := rfl
  obtain ⟨s, hs, hphase⟩ := (reachable_longSent.step (.read hphase hmem)).raise_body
    (Function.update_self _ _ _) hrun
    (Answers.trace_of_uses (fun _ _ he => he) asked_longPeriodic ())
  exact ⟨s, _, hs, hphase⟩

end MonascaNotification
