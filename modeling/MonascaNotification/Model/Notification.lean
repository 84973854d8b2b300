import MonascaNotification.Python.Value

/-!
# `notification.py`

A notification keeps the raw alarm it was made from next to the slots derived from it. The
engines change six of the other slots and never these, so that the derived slots agree with
the raw alarm is a field of the structure.
-/

namespace MonascaNotification

/-- The slots that the constructor takes from the alarm. -/
structure AlarmSlots where
  alarmId : Json
  alarmName : Json
  alarmTimestamp : Int
  message : Json
  state : Json
  severity : Json
  link : Json
  lifecycleState : Json
  tenantId : Json
  metrics : Json
  deriving DecidableEq

/-- The part of `Notification.__init__` that reads the alarm, in its order. -/
def AlarmSlots.ofAlarm (P : Platform) (alarm : Json) : Except PyExn AlarmSlots := do
  let alarmId ← alarm.getItem "alarmId"
  let alarmName ← alarm.getItem "alarmName"
  -- The event timestamp is in milliseconds
  let timestamp ← alarm.getItem "timestamp"
  let seconds ← timestamp.divByFloat P 1000
  let alarmTimestamp ← seconds.toInt
  let message ← alarm.getItem "stateChangeReason"
  let state ← alarm.getItem "newState"
  let severity ← alarm.getItem "severity"
  let link ← alarm.getItem "link"
  let lifecycleState ← alarm.getItem "lifecycleState"
  let tenantId ← alarm.getItem "tenantId"
  let metrics ← alarm.getItem "metrics"
  return { alarmId, alarmName, alarmTimestamp, message, state, severity, link, lifecycleState,
           tenantId, metrics }

structure Notification (P : Platform) extends AlarmSlots where
  id : Json
  type : Json
  name : Json
  address : Json
  period : Json
  retryCount : Json
  notificationTimestamp : Json
  rawAlarm : Json
  derived : AlarmSlots.ofAlarm P rawAlarm = .ok toAlarmSlots
  deriving DecidableEq

namespace Notification

variable {P : Platform}

/-- `Notification.__init__`. -/
def init (P : Platform) (id type name address period retryCount alarm : Json) :
    Except PyExn (Notification P) :=
  match h : AlarmSlots.ofAlarm P alarm with
  | .ok slots => .ok
      { toAlarmSlots := slots
        id, type, name, address, period, retryCount
        -- to be updated on actual notification send time
        notificationTimestamp := .null
        rawAlarm := alarm
        derived := h }
  | .error x => .error x

/-- `Notification.to_json`, as the document that is written. `metrics` is not a field of it. -/
def toJson (n : Notification P) : Json :=
  .obj
    [("id", n.id),
     ("type", n.type),
     ("name", n.name),
     ("address", n.address),
     ("retry_count", n.retryCount),
     ("raw_alarm", n.rawAlarm),
     ("alarm_id", n.alarmId),
     ("alarm_name", n.alarmName),
     ("alarm_timestamp", .int n.alarmTimestamp),
     ("message", n.message),
     ("notification_timestamp", n.notificationTimestamp),
     ("state", n.state),
     ("severity", n.severity),
     ("link", n.link),
     ("lifecycle_state", n.lifecycleState),
     ("tenant_id", n.tenantId),
     ("period", n.period)]

/-- `notification.notification_timestamp = now`. -/
def stamp (n : Notification P) (now : Rat) : Notification P :=
  { n with notificationTimestamp := .float (.fin now) }

@[simp] theorem stamp_id (n : Notification P) (now : Rat) : (n.stamp now).id = n.id := rfl

@[simp] theorem stamp_type (n : Notification P) (now : Rat) : (n.stamp now).type = n.type := rfl

@[simp] theorem stamp_rawAlarm (n : Notification P) (now : Rat) :
    (n.stamp now).rawAlarm = n.rawAlarm := rfl

@[simp] theorem stamp_retryCount (n : Notification P) (now : Rat) :
    (n.stamp now).retryCount = n.retryCount := rfl

@[simp] theorem stamp_period (n : Notification P) (now : Rat) :
    (n.stamp now).period = n.period := rfl

@[simp] theorem stamp_notificationTimestamp (n : Notification P) (now : Rat) :
    (n.stamp now).notificationTimestamp = .float (.fin now) := rfl

@[simp] theorem stamp_toAlarmSlots (n : Notification P) (now : Rat) :
    (n.stamp now).toAlarmSlots = n.toAlarmSlots := rfl

@[simp] theorem stamp_stamp (n : Notification P) (now now' : Rat) :
    (n.stamp now).stamp now' = n.stamp now' := rfl

/-- The constructor fails exactly where reading the alarm fails, and with the same error. -/
theorem init_eq_error {id type name address period retryCount alarm : Json} {x : PyExn} :
    init P id type name address period retryCount alarm = .error x ↔
      AlarmSlots.ofAlarm P alarm = .error x := by
  unfold init
  split
  · next slots h => simp [h]
  · next y h => simp [h]

/-- What the constructor stores. -/
theorem init_eq_ok {id type name address period retryCount alarm : Json} {n : Notification P}
    (h : init P id type name address period retryCount alarm = .ok n) :
    n.id = id ∧ n.type = type ∧ n.name = name ∧ n.address = address ∧ n.period = period ∧
      n.retryCount = retryCount ∧ n.rawAlarm = alarm ∧ n.notificationTimestamp = .null := by
  unfold init at h
  split at h
  · cases h
    exact ⟨rfl, rfl, rfl, rfl, rfl, rfl, rfl, rfl⟩
  · cases h

end Notification

end MonascaNotification
