import MonascaNotification.Model.System
import MonascaNotification.Python.Binary64

/-!
# The database behind the repository

A `Store` is the content of the database as the engines see it through the three queries of
the repository. `following` is the environment in which the stored state of every alarm follows
the alarm transitions that are published, and every query is answered.

The section at the end fixes one deployment with an e-mail method of period 60 on `cpython`.
-/

namespace MonascaNotification

open Infra

variable {P : Platform}

/-- A row of `notification_method`, its type as the repositories return it. -/
structure StoredMethod where
  name : Json
  type : String
  address : Json
  period : Json

/-- The row that `get_notification` returns. -/
def StoredMethod.columns (m : StoredMethod) : List Json :=
  [m.name, .str m.type, m.address, m.period]

structure Store where
  notifications : Json → List ActionRow
  method : Json → Option StoredMethod
  alarmState : Json → Option String
  ids_nodup : ∀ alarm, ((notifications alarm).map (·.id)).Nodup

namespace Store

/-- The answer of a world with this store, this time and this plugin. -/
def reply (d : Store) (now : Rat) (plugin : Except PyExn Json) : (e : Effect P) → e.Answer
  | .time => now
  | .sleep _ => ()
  | .fetchNotifications alarm => ⟨d.notifications alarm, none⟩
  | .getNotification id => .ok ((d.method id).map StoredMethod.columns)
  | .getAlarmCurrentState alarmId => .ok (d.alarmState alarmId)
  | .sendNotification _ _ => plugin
  | .increment _ _ => ()
  | .publish _ _ => ()
  | .commit => ()

/-- The queries are answered from the store. Nothing is said about the clock or a plugin. -/
def Answers (d : Store) : (e : Effect P) → e.Answer → Prop
  | .fetchNotifications alarm, answer => answer = ⟨d.notifications alarm, none⟩
  | .getNotification id, answer => answer = .ok ((d.method id).map StoredMethod.columns)
  | .getAlarmCurrentState alarmId, answer => answer = .ok (d.alarmState alarmId)
  | _, _ => True

theorem answers_reply (d : Store) (now : Rat) (plugin : Except PyExn Json) (e : Effect P) :
    d.Answers e (d.reply now plugin e) := by
  cases e <;> simp [Answers, reply]

theorem Answers.admissible {d : Store} {e : Effect P} {r : e.Answer} (h : d.Answers e r) :
    e.Admissible r := by
  cases e with
  | fetchNotifications alarm =>
    cases h
    exact d.ids_nodup alarm
  | getNotification id =>
    cases h
    cases d.method id with
    | none => exact Or.inr (Or.inl rfl)
    | some m => exact Or.inr (Or.inr ⟨m.name, m.type, m.address, m.period, rfl⟩)
  | _ => trivial

/-- The world around one process, as a function: the store does not change. -/
def sem (now : Rat) (plugin : Except PyExn Json) (e : Effect P) (d : Store) : e.Answer × Store :=
  (d.reply now plugin e, d)

end Store

/-! ## Transitions -/

/-- The message that announces a transition. -/
def transitionMessage (alarm : Json) : KafkaValue := .dumps (.obj [("alarm-transitioned", alarm)])

/--
The environment in which the stored state of an alarm is that of its last transition. Every
transition is published on the alarm topic.
-/
def following (P : Platform) : Environment P where
  State := Store
  init := fun _ => True
  answer := fun d e r d' => d' = d ∧ d.Answers e r
  change := fun d alarms d' => ∃ alarm alarmId state, alarms = [transitionMessage alarm] ∧
    alarm.getItem "alarmId" = .ok alarmId ∧ alarm.getItem "newState" = .ok (.str state) ∧
    d' = { d with alarmState := fun id => if id = alarmId then some state else d.alarmState id }
  admissible := fun h => h.2.admissible

theorem following_answer (now : Rat) (plugin : Except PyExn Json) (d : Store) (e : Effect P) :
    (following P).answer d e (Store.sem now plugin e d).1 (Store.sem now plugin e d).2 :=
  ⟨rfl, d.answers_reply now plugin e⟩

/-! ## Changes during a sleep -/

/--
The environment in which the store changes in any way while an engine is inside `time.sleep`,
and not between its other effects. Every query is answered.
-/
def whileAsleep (P : Platform) : Environment P where
  State := Store
  init := fun _ => True
  answer := fun d e r d' => d.Answers e r ∧ (d' = d ∨ ∃ seconds, e = .sleep seconds)
  change := fun d _ d' => d' = d
  admissible := fun h => h.1.admissible

/-- The world around one process in which the first sleep ends with the store `later`. -/
def Store.semAsleep (later : Store) (now : Rat) (plugin : Except PyExn Json) (e : Effect P)
    (d : Store) : e.Answer × Store :=
  (d.reply now plugin e, match e with
    | .sleep _ => later
    | _ => d)

theorem whileAsleep_answer (later : Store) (now : Rat) (plugin : Except PyExn Json) (d : Store)
    (e : Effect P) : (whileAsleep P).answer d e (Store.semAsleep later now plugin e d).1
      (Store.semAsleep later now plugin e d).2 := by
  refine ⟨d.answers_reply now plugin e, ?_⟩
  cases e with
  | sleep seconds => exact Or.inr ⟨seconds, rfl⟩
  | _ => exact Or.inl rfl

/-! ## A deployment -/

namespace Deployment

/-- The defaults, with one periodic topic. -/
def conf : Config where
  alarmTtl := some 14400
  periodic := [("60", "60-seconds-notifications")]
  interval := 30
  maxAttempts := 5

def email : Notifier where
  index := 0
  type := "email"
  statsdName := "sent_smtp_count"

def notifiers : Notifiers := Notifiers.config cpython [email]

def everyMinute : PeriodicEngine conf where
  period := 60
  topicName := "60-seconds-notifications"
  topic_eq := by decide +kernel

def method : StoredMethod where
  name := .str "name"
  type := "email"
  address := .str "me@here.com"
  period := .int 60

/-- Transitions to `ALARM` are reported to the one method. -/
def store : Store where
  notifications := fun alarm =>
    match alarm.getItem "newState" with
    | .ok (.str "ALARM") =>
      [{ id := .str "10", type := method.type, name := method.name, address := method.address,
         period := method.period }]
    | _ => []
  method := fun id => if id = .str "10" then some method else none
  alarmState := fun id => if id = .str "1" then some "ALARM" else none
  ids_nodup := fun _ => by split <;> simp

/-- A transition of alarm `1`. -/
def alarm (oldState newState : String) : Json := .obj
  [("tenantId", .str "0"), ("alarmId", .str "1"), ("alarmDefinitionId", .str "2"),
   ("alarmName", .str "test Alarm"), ("oldState", .str oldState), ("newState", .str newState),
   ("stateChangeReason", .str "I am alarming!"), ("severity", .str "LOW"), ("link", .str ""),
   ("lifecycleState", .str "OPEN"), ("timestamp", .int 0), ("actionsEnabled", .int 1),
   ("metrics", .obj [("name", .str "cpu")])]

end Deployment

end MonascaNotification
