import MonascaNotification.Infra.Network
import MonascaNotification.Model.Engines

/-!
# The engines over the broker

The three kinds of engines as processes of one network (`system`). What lies outside of the
repository is a `World`: the database, the plugins, the clock, and whoever publishes alarms. Of an
`Environment` nothing more is assumed than `Effect.Admissible`.

`main.py` starts one `PeriodicEngine` for each configured period. The engines read different
topics; the names under `CONF.kafka` are taken to be distinct.
-/

namespace MonascaNotification

open Infra Prog

variable {P : Platform} {A : (e : Effect P) → e.Answer → Prop}

/-- The world around the engines: its states, its answers, and its own steps. -/
structure World (P : Platform) (A : (e : Effect P) → e.Answer → Prop) where
  State : Type
  init : State → Prop
  answer : State → (e : Effect P) → e.Answer → State → Prop
  /-- A step of the world itself, with the alarm messages that are published in it. -/
  change : State → List KafkaValue → State → Prop
  admissible : ∀ {w e r w'}, answer w e r w' → A e r

/--
For a method, the repository answers or raises `DatabaseException`, and the method is a row of four
columns whose type is a string. The rows for an alarm have different ids, which are a primary key.
The queries for these rows and for the state of an alarm may raise anything.
-/
def Effect.Admissible : (e : Effect P) → e.Answer → Prop
  | .fetchNotifications _, answer => (answer.rows.map (·.id)).Nodup
  | .getNotification _, answer =>
    answer = .error .databaseException ∨ answer = .ok none ∨
      ∃ name type address period, answer = .ok (some [name, .str type, address, period])
  | _, _ => True

abbrev Environment (P : Platform) := World P Effect.Admissible

/-- The processes that `main.py` starts. -/
inductive Engine (conf : Config) where
  | notification
  | retry
  | periodic (self : PeriodicEngine conf)
  deriving DecidableEq

namespace Engine

variable {conf : Config}

/-- The topic of the consumer. -/
def source : Engine conf → Topic
  | .notification => .alarm
  | .retry => .retry
  | .periodic self => .periodic self.topicName

/-- The loop body, for the message at an offset. Every topic has one partition. -/
def body (P : Platform) (T : Notifiers) : Engine conf → Nat → KafkaValue → Py P Unit
  | .notification, offset, value =>
    NotificationEngine.body conf T { partition := 0, offset, value }
  | .retry, _, message => RetryEngine.body conf T message
  | .periodic self, _, message => self.body T message

end Engine

/-- The engines in a world. -/
def system (W : World P A) (conf : Config) (T : Notifiers) (mayCrash : Prop) :
    Network (Engine conf) Topic KafkaValue W.State (Effect P) Effect.Answer PyExn where
  source := Engine.source
  handler := Engine.body P T
  published := Effect.published
  commits := Effect.isCommit
  init := W.init
  answer := W.answer
  env := fun w pubs w' => ∃ alarms, pubs = alarms.map (fun m => (Topic.alarm, m)) ∧
    W.change w alarms w'
  mayCrash := mayCrash

/-- A state of the engines in a world. -/
abbrev SystemState (W : World P A) (conf : Config) :=
  NetState (Engine conf) Topic KafkaValue W.State (Effect P) Effect.Answer PyExn

end MonascaNotification
