import MonascaNotification.Model.AlarmProcessor
import MonascaNotification.Model.Notifiers

/-!
# `common/utils.py` and the three engines

For each engine the body of its `for ... in self._consumer` loop, as the program that runs
for one message.
-/

namespace MonascaNotification

open Infra

variable {P : Platform}

/-! ## `common/utils.py` -/

/-- `db_repo.get_notification`. -/
def getNotification (id : Json) : Py P (Option (List Json)) :=
  .perform (.getNotification id) fun (answer : Except PyExn (Option (List Json))) =>
    .ofExcept answer

/-- `grab_stored_notification_method`. -/
def grabStoredNotificationMethod (id : Json) : Py P (Option (List Json)) :=
  Py.retryOnDatabaseException (getNotification id)

/-- The constructor call of `construct_notification_object`: seven keys of the document. -/
def decodeNotification (P : Platform) (notificationJson : Json) :
    Except PyExn (Notification P) := do
  let id ← notificationJson.getItem "id"
  let type ← notificationJson.getItem "type"
  let name ← notificationJson.getItem "name"
  let address ← notificationJson.getItem "address"
  let period ← notificationJson.getItem "period"
  let retryCount ← notificationJson.getItem "retry_count"
  let rawAlarm ← notificationJson.getItem "raw_alarm"
  Notification.init P id type name address period retryCount rawAlarm

/-- The four assignments from the stored row, `stored_notification[0]` to `[3]`. -/
def Notification.refresh (n : Notification P) (stored : List Json) :
    Except PyExn (Notification P) :=
  match stored with
  | name :: type :: address :: period :: _ => .ok { n with name, type, address, period }
  | _ => .error .indexError

/--
`construct_notification_object`.

The two handlers differ: a DatabaseException keeps the cached method, any other exception
drops the notification.
-/
def constructNotificationObject (notificationJson : Json) : Py P (Option (Notification P)) :=
  match decodeNotification P notificationJson with
  | .error _ => return none
  | .ok notification =>
    Prog.tryCatch
      (do
        match ← grabStoredNotificationMethod notification.id with
        | none => return none
        | some stored =>
          let notification ← .ofExcept (notification.refresh stored)
          return some notification)
      (fun x => if x = .databaseException then return some notification else return none)

/-- `bound - (time.time() - notification_data['notification_timestamp'])` -/
def waitDuration (bound notificationData : Json) : Py P PyFloat := do
  let now ← Py.time
  let stamp ← .ofExcept (notificationData.getItem "notification_timestamp")
  let stamp ← .ofExcept (stamp.toFloat P)
  let bound ← .ofExcept (bound.toFloat P)
  return P.sub bound (P.sub (.fin now) stamp)

/-- `if wait_duration > 0: time.sleep(wait_duration)` -/
def waitFor (duration : PyFloat) : Py P Unit :=
  if duration.gtInt 0 then Py.sleep duration else return ()

/-! ## `notification_engine.py` -/

namespace NotificationEngine

variable (conf : Config)

/-- `_add_periodic_notifications`. The list is returned because its objects are stamped. -/
def addPeriodicNotifications : List (Notification P) → Py P (List (Notification P))
  | [] => return []
  | n :: rest => do
    match conf.periodic.lookup (n.period.toStr P) with
    | some topicName =>
      let now ← Py.time
      let n := n.stamp now
      Py.publish (.periodic topicName) [n.toJson]
      let rest ← addPeriodicNotifications rest
      return n :: rest
    | none =>
      let rest ← addPeriodicNotifications rest
      return n :: rest

/-- The loop body of `NotificationEngine.run`. -/
def body (T : Notifiers) (alarm : RawAlarm) : Py P Unit := do
  let (notifications, _, _) ← AlarmProcessor.toNotification P conf alarm
  if notifications ≠ [] then
    let notifications ← addPeriodicNotifications conf notifications
    let (sent, failed) ← send T notifications
    Py.publish .notification (sent.map Notification.toJson)
    Py.publish .retry (failed.map Notification.toJson)
  Py.commit
  Py.increment "alarms_finished_count" 1

end NotificationEngine

/-! ## `retry_engine.py` -/

namespace RetryEngine

variable (conf : Config)

/--
What follows `if failed`: `notification` is the object in the list, with its new timestamp.
-/
def afterFailure (notification : Notification P) : Py P Unit := do
  let retryCount ← .ofExcept (notification.retryCount.succ P)
  let now ← Py.time
  let notification := { notification with retryCount }.stamp now
  if ← .ofExcept (retryCount.ltInt conf.maxAttempts) then
    Py.publish .retry [notification.toJson]

/-- The loop body of `RetryEngine.run`. -/
def body (T : Notifiers) (message : KafkaValue) : Py P Unit := do
  let notificationData ← .ofExcept (P.jsonLoads message)
  match ← constructNotificationObject notificationData with
  | none => Py.commit
  | some notification =>
    let duration ← waitDuration (.int conf.interval) notificationData
    waitFor duration
    let (sent, failed) ← send T [notification]
    if let notification :: _ := sent then
      Py.publish .notification [notification.toJson]
    if let notification :: _ := failed then
      afterFailure conf notification
    Py.commit

end RetryEngine

/-! ## `periodic_engine.py` -/

/-- A `PeriodicEngine` that could be constructed: its topic is configured. -/
structure PeriodicEngine (conf : Config) where
  period : Int
  topicName : String
  topic_eq : conf.periodic.lookup (toString period) = some topicName
  deriving DecidableEq

namespace PeriodicEngine

variable {conf : Config}

/-- `db_repo.get_alarm_current_state`. -/
def getAlarmCurrentState (alarmId : Json) : Py P (Option String) :=
  .perform (.getAlarmCurrentState alarmId) fun (answer : Except PyExn (Option String)) =>
    .ofExcept answer

/-- `_keep_sending`. -/
def keepSending (self : PeriodicEngine conf) (alarmId originalState period : Json) :
    Py P Bool := do
  let currentState ← Py.retryOnDatabaseException (getAlarmCurrentState alarmId)
  match currentState with
  -- Alarm was deleted
  | none => return false
  | some currentState =>
    -- Alarm state changed
    if Json.str currentState ≠ originalState then return false
    -- Period changed
    else if !period.eqInt self.period then return false
    else return true

/-- The loop body of `PeriodicEngine.run`. -/
def body (self : PeriodicEngine conf) (T : Notifiers) (message : KafkaValue) : Py P Unit := do
  let notificationData ← .ofExcept (P.jsonLoads message)
  match ← constructNotificationObject notificationData with
  | none => Py.commit
  | some notification =>
    if ← self.keepSending notification.alarmId notification.state notification.period then
      let duration ← waitDuration notification.period notificationData
      waitFor duration
      let now ← Py.time
      let notification := notification.stamp now
      let (sent, failed) ← send T [notification]
      -- a send stamps the object itself; an unconfigured type leaves it as it was
      let notification := (sent ++ failed).headD notification
      Py.publish (.periodic self.topicName) [notification.toJson]
    Py.commit

end PeriodicEngine

end MonascaNotification
