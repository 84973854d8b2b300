import MonascaNotification.Python.Binary64
import MonascaNotification.Spec.AlarmProcessor

/-!
# Which alarm messages stop the notification engine

An exception that escapes `to_notification` kills the engine before it commits, and the
restarted engine reads the same message again. `_parse_alarm` stands inside a catch-all, but
it checks only that the expected fields are there. What it lets through is indexed and
computed with outside of any handler:

* `in` also accepts a list and a string, which cannot be indexed with a field name
* the timestamp is divided, compared with the ttl and given to `time.ctime`
* the constructor reads `metrics`, which is not among the expected fields

`toNotification_returns_iff` says exactly which messages pass.
-/

namespace MonascaNotification

open Infra Prog

namespace AlarmProcessor

variable {P : Platform} {conf : Config}

/-! ## The repository that answers -/

/-- The clock shows `now`, and the repository answers every query, with `rows` for an alarm. -/
def answersWith (P : Platform) (now : Rat) (rows : Json → List ActionRow) :
    (e : Effect P) → e.Answer
  | .time => now
  | .sleep _ => ()
  | .fetchNotifications alarm => ⟨rows alarm, none⟩
  | .getNotification _ => .ok none
  | .getAlarmCurrentState _ => .ok none
  | .sendNotification _ _ => .ok (.bool true)
  | .increment _ _ => ()
  | .publish _ _ => ()
  | .commit => ()

theorem eval_retryOnDatabaseException {α : Type} (ans : (e : Effect P) → e.Answer)
    (p : Py P α) : (Py.retryOnDatabaseException p).eval ans = p.eval ans := by
  rw [Py.retryOnDatabaseException, eval_tryCatch]
  cases hp : p.eval ans with
  | ok a => rfl
  | error x =>
    dsimp only
    split
    · exact hp
    · rfl

/-! ## The parsed object -/

theorem checkFields_obj {fields : List (String × Json)} {expected : List String}
    (h : checkFields (.obj fields) expected = .ok ()) :
    ∀ field ∈ expected, ∃ v, fields.lookup field = some v := by
  induction expected with
  | nil => simp
  | cons f rest ih =>
    simp only [checkFields, Json.contains] at h
    cases hf : fields.lookup f with
    | none => rw [hf] at h; cases h
    | some v =>
      rw [hf] at h
      intro field hmem
      rcases List.mem_cons.mp hmem with rfl | hmem
      · exact ⟨v, hf⟩
      · exact ih h field hmem

/-- An object that parses has every expected field. -/
theorem parseAlarm_obj {value : KafkaValue} {fields : List (String × Json)}
    (h : parseAlarm P value = .ok (.obj fields)) :
    ∀ field ∈ expectedFields, ∃ v, fields.lookup field = some v := by
  obtain ⟨jsonAlarm, -, h⟩ := bind_eq_ok.mp h
  obtain ⟨alarm, -, h⟩ := bind_eq_ok.mp h
  obtain ⟨_, hcheck, h⟩ := bind_eq_ok.mp h
  obtain ⟨tenant, -, h⟩ := bind_eq_ok.mp h
  obtain ⟨id, -, h⟩ := bind_eq_ok.mp h
  split at h
  · cases h
  · cases h
    exact checkFields_obj hcheck

/-- With the expected fields there, the constructor needs `metrics` and a finite timestamp. -/
theorem ofAlarm_obj_iff {fields : List (String × Json)} {timestamp : Json}
    (h : ∀ field ∈ expectedFields, ∃ v, fields.lookup field = some v)
    (ht : fields.lookup "timestamp" = some timestamp) :
    (∃ slots, AlarmSlots.ofAlarm P (.obj fields) = .ok slots) ↔
      (fields.lookup "metrics").isSome ∧ ∃ q, timestamp.divByFloat P 1000 = .ok (.fin q) := by
  obtain ⟨v₁, h₁⟩ := h "alarmId" (by decide)
  obtain ⟨v₂, h₂⟩ := h "alarmName" (by decide)
  obtain ⟨v₃, h₃⟩ := h "stateChangeReason" (by decide)
  obtain ⟨v₄, h₄⟩ := h "newState" (by decide)
  obtain ⟨v₅, h₅⟩ := h "severity" (by decide)
  obtain ⟨v₆, h₆⟩ := h "link" (by decide)
  obtain ⟨v₇, h₇⟩ := h "lifecycleState" (by decide)
  obtain ⟨v₈, h₈⟩ := h "tenantId" (by decide)
  simp only [AlarmSlots.ofAlarm, Json.getItem, h₁, h₂, h₃, h₄, h₅, h₆, h₇, h₈, ht, ok_bind]
  cases timestamp.divByFloat P 1000 with
  | error x => simp
  | ok seconds =>
    cases seconds with
    | nan => simp [PyFloat.toInt]
    | inf negative => simp [PyFloat.toInt]
    | fin q =>
      cases fields.lookup "metrics" with
      | none => simp [PyFloat.toInt]
      | some metrics => simp [PyFloat.toInt, pure, Except.pure]

/-! ## The three functions after the parser -/

theorem eval_alarmIsValid (now : Rat) (rows : Json → List ActionRow)
    {fields : List (String × Json)} {enabled timestamp : Json}
    (he : fields.lookup "actionsEnabled" = some enabled)
    (ht : fields.lookup "timestamp" = some timestamp) :
    (alarmIsValid P conf (.obj fields)).eval (answersWith P now rows) =
      if enabled.truthy then
        match timestamp.divByInt P 1000 with
        | .error x => .error x
        | .ok seconds =>
          if olderThanTtl conf (P.sub (.fin now) seconds) then
            (P.ctime seconds).map fun _ => false
          else .ok true
      else .ok false := by
  unfold alarmIsValid
  simp only [bind_eq, Json.getItem, he, ht, ofExcept_ok, bind_ret]
  cases htr : enabled.truthy with
  | false => simp
  | true =>
    simp only [Bool.not_true, Bool.false_eq_true, if_false, if_true, Py.time, bind_perform,
      bind_ret, eval_perform, eval_bind, eval_ofExcept]
    cases hd : timestamp.divByInt P 1000 with
    | error x => rfl
    | ok seconds =>
      simp only [answersWith]
      by_cases ho : olderThanTtl conf (P.sub (.fin now) seconds) = true
      · simp only [ho, if_true, eval_bind, eval_ofExcept]
        cases P.ctime seconds with
        | error x => rfl
        | ok text => rfl
      · simp only [ho, Bool.false_eq_true, if_false]
        rfl

theorem mapM_init_ok {alarm : Json} {slots : AlarmSlots}
    (h : AlarmSlots.ofAlarm P alarm = .ok slots) (rows : List ActionRow) :
    ∃ ns, rows.mapM (fun row => Notification.init P row.id (.str row.type) row.name
      row.address row.period (.int 0) alarm) = .ok ns ∧ ns.length = rows.length := by
  induction rows with
  | nil => exact ⟨[], rfl, rfl⟩
  | cons row rows ih =>
    obtain ⟨ns, hns, hlen⟩ := ih
    cases hrow : Notification.init P row.id (.str row.type) row.name row.address row.period
        (.int 0) alarm with
    | error x => rw [Notification.init_eq_error, h] at hrow; cases hrow
    | ok n =>
      refine ⟨n :: ns, ?_, by rw [List.length_cons, List.length_cons, hlen]⟩
      rw [List.mapM_cons, hrow, hns]
      rfl

/-- Every row meets the same alarm: with rows, building succeeds if and only if it parses. -/
theorem eval_buildNotification (now : Rat) (rows : Json → List ActionRow) (alarm : Json) :
    (∃ ns, (buildNotification P alarm).eval (answersWith P now rows) = .ok ns) ↔
      (rows alarm ≠ [] → ∃ slots, AlarmSlots.ofAlarm P alarm = .ok slots) := by
  simp only [buildNotification, eval_perform, answersWith, bind_eq, eval_bind, eval_ofExcept,
    pure_eq, eval_ret]
  cases hslots : AlarmSlots.ofAlarm P alarm with
  | ok slots =>
    obtain ⟨ns, hns, -⟩ := mapM_init_ok hslots (rows alarm)
    simp [hns]
  | error x =>
    cases hrows : rows alarm with
    | nil => simp [pure, Except.pure]
    | cons row rest =>
      have hrow : Notification.init P row.id (.str row.type) row.name row.address row.period
          (.int 0) alarm = .error x := Notification.init_eq_error.mpr hslots
      simp [List.mapM_cons, hrow]

/-! ## The exact condition -/

/--
The messages that `to_notification` gets through, with the clock at `now` and the rows that
the repository has for the alarm.

A message that does not parse is one of them. If it parses, it must be an object (not a list
or a string). If its actions are enabled, its timestamp must be a number whose thousandth is a
float; when the alarm is older than the ttl, `time.ctime` must accept that number; when it is
not and there is a row for it, `metrics` must be there and the timestamp must be finite.
-/
def Digestible (P : Platform) (conf : Config) (value : KafkaValue) (now : Rat)
    (rows : Json → List ActionRow) : Prop :=
  ∀ alarm, parseAlarm P value = .ok alarm → ∃ fields, alarm = .obj fields ∧
    ∀ enabled, fields.lookup "actionsEnabled" = some enabled → enabled.truthy = true →
      ∃ timestamp seconds, fields.lookup "timestamp" = some timestamp ∧
        timestamp.divByInt P 1000 = .ok seconds ∧
        if olderThanTtl conf (P.sub (.fin now) seconds) then
          ∃ text, P.ctime seconds = .ok text
        else
          rows alarm ≠ [] → (fields.lookup "metrics").isSome ∧
            ∃ q, timestamp.divByFloat P 1000 = .ok (.fin q)

/-- After a parsed alarm that is valid and not older, what counts is whether it can be built. -/
theorem eval_toNotification_build {rawAlarm : RawAlarm} {now : Rat}
    {rows : Json → List ActionRow} {alarm : Json}
    (hparse : parseAlarm P rawAlarm.value = .ok alarm)
    (hvalid : (alarmIsValid P conf alarm).eval (answersWith P now rows) = .ok true) :
    (∃ ns, (toNotification P conf rawAlarm).eval (answersWith P now rows) =
        .ok (ns, rawAlarm.partition, rawAlarm.offset)) ↔
      ∃ ns, (buildNotification P alarm).eval (answersWith P now rows) = .ok ns := by
  simp only [toNotification, hparse, bind_eq, eval_bind, hvalid, Bool.not_true,
    Bool.false_eq_true, if_false, eval_retryOnDatabaseException]
  cases (buildNotification P alarm).eval (answersWith P now rows) with
  | error x => simp
  | ok ns =>
    by_cases hns : ns.length = 0
    · simp [hns, Py.increment]
    · simp [hns, Py.increment]

/-- A value that does not parse gives no notification. -/
theorem eval_toNotification_unparsable {rawAlarm : RawAlarm} {now : Rat}
    {rows : Json → List ActionRow} {x : PyExn} (hparse : parseAlarm P rawAlarm.value = .error x) :
    (toNotification P conf rawAlarm).eval (answersWith P now rows) =
      .ok ([], rawAlarm.partition, rawAlarm.offset) := by
  simp [toNotification, hparse, Py.increment]

/--
**Which messages `to_notification` gets through.** For every message, clock reading, ttl and
answering repository, it returns the triple, with no notification for a value that does not parse,
if and only if the message is digestible.
-/
theorem toNotification_returns_iff (P : Platform) (conf : Config) (rawAlarm : RawAlarm)
    (now : Rat) (rows : Json → List ActionRow) :
    (∃ ns, (toNotification P conf rawAlarm).eval (answersWith P now rows) =
        .ok (ns, rawAlarm.partition, rawAlarm.offset) ∧
        ((∀ alarm, parseAlarm P rawAlarm.value ≠ .ok alarm) → ns = [])) ↔
      Digestible P conf rawAlarm.value now rows := by
  have hempty : ∀ ns, (toNotification P conf rawAlarm).eval (answersWith P now rows) =
      .ok (ns, rawAlarm.partition, rawAlarm.offset) →
      (∀ alarm, parseAlarm P rawAlarm.value ≠ .ok alarm) → ns = [] := by
    intro ns hns hnone
    cases hparse : parseAlarm P rawAlarm.value with
    | error x =>
      rw [eval_toNotification_unparsable hparse] at hns
      exact (congrArg Prod.fst (Except.ok.inj hns)).symm
    | ok alarm => exact absurd hparse (hnone alarm)
  rw [exists_congr fun ns => and_iff_left_of_imp (hempty ns)]
  cases hparse : parseAlarm P rawAlarm.value with
  | error x =>
    refine iff_of_true ?_ (fun alarm h => by rw [hparse] at h; cases h)
    exact ⟨[], eval_toNotification_unparsable hparse⟩
  | ok alarm =>
    by_cases hobj : ∃ fields, alarm = .obj fields
    · obtain ⟨fields, rfl⟩ := hobj
      have hfields := parseAlarm_obj hparse
      obtain ⟨enabled, he⟩ := hfields "actionsEnabled" (by decide)
      obtain ⟨timestamp, ht⟩ := hfields "timestamp" (by decide)
      have hvalid := @eval_alarmIsValid P conf now rows _ _ _ he ht
      have hdig : Digestible P conf rawAlarm.value now rows ↔ (enabled.truthy = true →
          ∃ seconds, timestamp.divByInt P 1000 = .ok seconds ∧
            if olderThanTtl conf (P.sub (.fin now) seconds) then
              ∃ text, P.ctime seconds = .ok text
            else
              rows (.obj fields) ≠ [] → (fields.lookup "metrics").isSome ∧
                ∃ q, timestamp.divByFloat P 1000 = .ok (.fin q)) := by
        simp [Digestible, hparse, he, ht]
      rw [hdig]
      cases htr : enabled.truthy with
      | false =>
        rw [htr] at hvalid
        refine iff_of_true ⟨[], ?_⟩ (by simp)
        simp [toNotification, hparse, eval_bind, hvalid, Py.increment]
      | true =>
        simp only [htr, if_true] at hvalid
        simp only [forall_const]
        cases hd : timestamp.divByInt P 1000 with
        | error x =>
          rw [hd] at hvalid
          simp [toNotification, hparse, eval_bind, hvalid]
        | ok seconds =>
          simp only [hd] at hvalid
          simp only [Except.ok.injEq, exists_eq_left']
          by_cases ho : olderThanTtl conf (P.sub (.fin now) seconds) = true
          · rw [if_pos ho] at hvalid
            rw [if_pos ho]
            cases hct : P.ctime seconds with
            | error x =>
              rw [hct] at hvalid
              simp [toNotification, hparse, eval_bind, hvalid, Except.map]
            | ok text =>
              rw [hct] at hvalid
              simp [toNotification, hparse, eval_bind, hvalid, Except.map, Py.increment]
          · rw [if_neg ho] at hvalid
            rw [if_neg ho, eval_toNotification_build hparse hvalid, eval_buildNotification,
              ofAlarm_obj_iff hfields ht]
    · -- a list or a string passes the parser, and `alarm['actionsEnabled']` raises
      have hitem : alarm.getItem "actionsEnabled" = .error .typeError := by
        cases alarm with
        | obj fields => exact absurd ⟨fields, rfl⟩ hobj
        | _ => rfl
      refine iff_of_false ?_ fun h => hobj ?_
      · simp [toNotification, hparse, alarmIsValid, hitem]
      · obtain ⟨fields, hf, -⟩ := h alarm hparse
        exact ⟨fields, hf⟩

/-- An alarm message with all the expected fields, and with no `metrics`. -/
def alarmWithoutMetrics : Json :=
  .obj [("alarm-transitioned", .obj
    [("tenantId", .str "0"), ("alarmId", .str "1"), ("alarmDefinitionId", .str "2"),
     ("alarmName", .str "test Alarm"), ("oldState", .str "OK"), ("newState", .str "ALARM"),
     ("stateChangeReason", .str "I am alarming!"), ("severity", .str "LOW"), ("link", .str ""),
     ("lifecycleState", .str "OPEN"), ("timestamp", .int 0), ("actionsEnabled", .int 1)])]

/-- One stored e-mail method for every alarm. -/
def emailRow : ActionRow where
  id := .str "1"
  type := "email"
  name := .str "name"
  address := .str "me@here.com"
  period := .int 0

/-- The message that raises a `KeyError` in the constructor, after it has passed the parser. -/
theorem toNotification_raises_without_metrics :
    (toNotification cpython { alarmTtl := none, periodic := [], interval := 30, maxAttempts := 5 }
      { partition := 0, offset := 0, value := .dumps alarmWithoutMetrics }).eval
        (answersWith cpython 0 fun _ => [emailRow]) = .error (.keyError "metrics") ∧
    ¬ ∃ ns, (toNotification cpython
      { alarmTtl := none, periodic := [], interval := 30, maxAttempts := 5 }
      { partition := 0, offset := 0, value := .dumps alarmWithoutMetrics }).eval
        (answersWith cpython 0 fun _ => [emailRow]) = .ok (ns, 0, 0) := by
  have heval : (toNotification cpython
      { alarmTtl := none, periodic := [], interval := 30, maxAttempts := 5 }
      { partition := 0, offset := 0, value := .dumps alarmWithoutMetrics }).eval
        (answersWith cpython 0 fun _ => [emailRow]) = .error (.keyError "metrics") := by
    decide +kernel
  refine ⟨heval, fun ⟨ns, hns⟩ => ?_⟩
  rw [heval] at hns
  cases hns

end AlarmProcessor

end MonascaNotification
