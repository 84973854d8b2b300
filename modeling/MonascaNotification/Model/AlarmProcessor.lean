import MonascaNotification.Model.Effect

/-!
# `processors/alarm_processor.py`

From a Kafka message to the notifications of the alarm in it. Only the parsing step stands
inside the catch-all `except Exception`; validation and construction run outside of it.
-/

namespace MonascaNotification

open Infra

/-- A message of the alarm topic, as the Kafka client hands it out. -/
structure RawAlarm where
  partition : Nat
  offset : Nat
  value : KafkaValue

namespace AlarmProcessor

variable (P : Platform) (conf : Config)

def expectedFields : List String :=
  ["actionsEnabled", "alarmId", "alarmDefinitionId", "alarmName", "newState", "oldState",
   "stateChangeReason", "severity", "link", "lifecycleState", "tenantId", "timestamp"]

/-- The loop of `_parse_alarm` over the expected fields. -/
def checkFields (alarm : Json) : List String → Except PyExn Unit
  | [] => .ok ()
  | field :: rest => do
    if !(← alarm.contains field) then
      throw (.alarmFormatError ("Alarm data missing field " ++ field))
    checkFields alarm rest

/--
`AlarmProcessor._parse_alarm`.

`in` tests the keys of a dict, but also the elements of a list and the parts of a string, so
what is returned need not be an object.
-/
def parseAlarm (alarmData : KafkaValue) : Except PyExn Json := do
  let jsonAlarm ← P.jsonLoads alarmData
  let alarm ← jsonAlarm.getItem "alarm-transitioned"
  checkFields alarm expectedFields
  if !(← alarm.contains "tenantId") || !(← alarm.contains "alarmId") then
    throw (.alarmFormatError "")
  return alarm

/-- `(self._alarm_ttl is not None) and (alarm_age > self._alarm_ttl)` -/
def olderThanTtl (alarmAge : PyFloat) : Bool :=
  match conf.alarmTtl with
  | some ttl => alarmAge.gtInt ttl
  | none => false

/-- `AlarmProcessor._alarm_is_valid`. -/
def alarmIsValid (alarm : Json) : Py P Bool := do
  let actionsEnabled ← .ofExcept (alarm.getItem "actionsEnabled")
  if !actionsEnabled.truthy then
    return false
  let now ← Py.time
  let timestamp ← .ofExcept (alarm.getItem "timestamp")
  let seconds ← .ofExcept (timestamp.divByInt P 1000)
  if olderThanTtl conf (P.sub (.fin now) seconds) then
    -- the text of the warning is built before the answer is given
    let _ ← .ofExcept (P.ctime seconds)
    return false
  return true

/-- `AlarmProcessor._build_notification`. The rows are iterated while the objects are built. -/
def buildNotification (alarm : Json) : Py P (List (Notification P)) :=
  .perform (.fetchNotifications alarm) fun (answer : RowStream) => do
    let notifications ← .ofExcept (answer.rows.mapM fun row =>
      Notification.init P row.id (.str row.type) row.name row.address row.period (.int 0) alarm)
    match answer.failure with
    | some x => .raise x
    | none => return notifications

/-- `AlarmProcessor.to_notification`. -/
def toNotification (rawAlarm : RawAlarm) : Py P (List (Notification P) × Nat × Nat) := do
  match parseAlarm P rawAlarm.value with
  | .error _ =>
    Py.increment "alarms_failed_parse_count" 1
    return ([], rawAlarm.partition, rawAlarm.offset)
  | .ok alarm =>
    if !(← alarmIsValid P conf alarm) then
      Py.increment "alarms_no_notification_count" 1
      return ([], rawAlarm.partition, rawAlarm.offset)
    let notifications ← Py.retryOnDatabaseException (buildNotification P alarm)
    if notifications.length = 0 then
      Py.increment "alarms_no_notification_count" 1
      return ([], rawAlarm.partition, rawAlarm.offset)
    else
      Py.increment "created_count" notifications.length
      return (notifications, rawAlarm.partition, rawAlarm.offset)

end AlarmProcessor

end MonascaNotification
