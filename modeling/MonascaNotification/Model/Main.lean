import MonascaNotification.Model.System

/-!
# `main.py`

The processes that `main` starts, and the engine that `start_process` constructs in each of them.
The clients of an engine (Kafka, the database, statsd) are constructed here without failing.

`int` of a text is a parameter: Python also reads white space, underscores and the digits of other
scripts.
-/

namespace MonascaNotification

open Infra

/-- `PeriodicEngine.__init__`: a period needs a topic, and a path in Zookeeper. -/
def PeriodicEngine.init (conf : Config) (periodicPath : List (String × String)) (period : Int) :
    Except PyExn (PeriodicEngine conf) :=
  match h : conf.periodic.lookup (toString period) with
  | none => .error (.keyError (toString period))
  | some topicName =>
    match periodicPath.lookup (toString period) with
    | none => .error (.keyError (toString period))
    | some _ => .ok { period, topicName, topic_eq := h }

/-- The arguments of `start_process`. -/
inductive ProcessType where
  | notificationEngine
  | retryEngine
  | periodicEngine (notificationPeriod : Int)
  deriving DecidableEq

namespace Main

variable (int : String → Except PyExn Int) (conf : Config) (periodicPath : List (String × String))

/-- The list `processors`. `number` is `CONF.notification_processor.number`. -/
def processors (number : Int) : Except PyExn (List ProcessType) := do
  let periodic ← conf.periodic.mapM fun item =>
    (int item.1).map ProcessType.periodicEngine
  return List.replicate number.toNat .notificationEngine ++ .retryEngine :: periodic

/-- `start_process`, up to `p.run()`. -/
def startProcess : ProcessType → Except PyExn (Engine conf)
  | .notificationEngine => .ok .notification
  | .retryEngine => .ok .retry
  | .periodicEngine notificationPeriod =>
    (PeriodicEngine.init conf periodicPath notificationPeriod).map Engine.periodic

/-- The engines that run, if all processes of `main` could start. -/
def engines (number : Int) : Except PyExn (List (Engine conf)) := do
  let processes ← processors int conf number
  processes.mapM (startProcess conf periodicPath)

end Main

end MonascaNotification
