import MonascaNotification.Infra.Prog
import MonascaNotification.Model.Notification

/-!
# The effects of the engines

Everything an engine does outside its own memory: reading the clock, sleeping, querying the
repository, handing a notification to a plugin, counting, publishing and committing. The loop
bodies are programs over these effects (`Py`).
-/

namespace MonascaNotification

open Infra

/-- The configuration values the engines read. -/
structure Config where
  /-- `CONF.alarm_processor.ttl` -/
  alarmTtl : Option Int
  /-- `CONF.kafka.periodic`: the text of a period, and the name of its topic. -/
  periodic : List (String × String)
  /-- `CONF.retry_engine.interval` -/
  interval : Int
  /-- `CONF.retry_engine.max_attempts` -/
  maxAttempts : Int

/-- The topics by their role; a periodic topic by the name that `CONF.kafka.periodic` gives. -/
inductive Topic where
  | alarm
  | notification
  | retry
  | periodic (name : String)
  deriving DecidableEq

/-- A plugin instance: its place in `possible_notifiers` and its two attributes. -/
structure Notifier where
  index : Nat
  type : String
  statsdName : String
  deriving DecidableEq

/-- A row of `fetch_notifications`, as the repositories yield it. -/
structure ActionRow where
  id : Json
  type : String
  name : Json
  address : Json
  period : Json

/-- The rows that were iterated, and the exception that ended the iteration, if any. -/
structure RowStream where
  rows : List ActionRow
  failure : Option PyExn

inductive Effect (P : Platform) where
  | time
  | sleep (seconds : Rat)
  | fetchNotifications (alarm : Json)
  | getNotification (id : Json)
  | getAlarmCurrentState (alarmId : Json)
  | sendNotification (notifier : Notifier) (n : Notification P)
  | increment (counter : String) (value : Nat)
  | publish (topic : Topic) (messages : List Json)
  | commit

namespace Effect

variable {P : Platform}

/-- What each effect is answered with. A plugin returns any value or raises. -/
@[reducible] def Answer : Effect P → Type
  | .time => Rat
  | .sleep _ => Unit
  | .fetchNotifications _ => RowStream
  | .getNotification _ => Except PyExn (Option (List Json))
  | .getAlarmCurrentState _ => Except PyExn (Option String)
  | .sendNotification _ _ => Except PyExn Json
  | .increment _ _ => Unit
  | .publish _ _ => Unit
  | .commit => Unit

/-- What an effect appends to the topics. -/
def published : Effect P → List (Topic × KafkaValue)
  | .publish topic messages => messages.map fun j => (topic, .dumps j)
  | _ => []

def isCommit : Effect P → Bool
  | .commit => true
  | _ => false

/-- Effects that neither the broker nor a plugin sees. -/
def Silent : Effect P → Prop
  | .sendNotification _ _ => False
  | .publish _ _ => False
  | .commit => False
  | _ => True

/-- Effects that the broker does not see. -/
def Local : Effect P → Prop
  | .publish _ _ => False
  | .commit => False
  | _ => True

/-- Queries of the repository. -/
def isQuery : Effect P → Bool
  | .fetchNotifications _ => true
  | .getNotification _ => true
  | .getAlarmCurrentState _ => true
  | _ => false

/-- Counting for statsd. -/
def Counts : Effect P → Prop
  | .increment _ _ => True
  | _ => False

theorem Counts.silent {e : Effect P} (h : e.Counts) : e.Silent := by
  cases e <;> trivial

theorem Counts.isQuery {e : Effect P} (h : e.Counts) : e.isQuery = false := by
  cases e <;> first | rfl | cases h

theorem isQuery.silent {e : Effect P} (h : e.isQuery = true) : e.Silent := by
  cases e <;> trivial

theorem Silent.local {e : Effect P} (h : e.Silent) : e.Local := by
  cases e <;> trivial

theorem Local.isCommit {e : Effect P} (h : e.Local) : e.isCommit = false := by
  cases e <;> first | rfl | cases h

theorem Local.published {e : Effect P} (h : e.Local) : e.published = [] := by
  cases e <;> first | rfl | cases h

theorem not_silent_of_mem_published {e : Effect P} {p : Topic × KafkaValue}
    (hp : p ∈ e.published) : ¬ e.Silent := by
  intro hs
  rw [hs.local.published] at hp
  cases hp

theorem not_silent_of_isCommit {e : Effect P} (he : e.isCommit = true) : ¬ e.Silent := by
  intro hs
  rw [hs.local.isCommit] at he
  cases he

@[simp] theorem published_publish (topic : Topic) (messages : List Json) :
    (Effect.publish (P := P) topic messages).published =
      messages.map fun j => (topic, .dumps j) := rfl

end Effect

/-- A Python function of the engines: it performs effects and may raise. -/
abbrev Py (P : Platform) (α : Type) := Prog (Effect P) Effect.Answer PyExn α

abbrev PyTrace (P : Platform) := Trace (Effect P) Effect.Answer

abbrev PyEvent (P : Platform) := Event (Effect P) Effect.Answer

namespace Py

variable {P : Platform} {α : Type}

def time : Py P Rat := .perform .time .ret

/-- `time.sleep`, for a positive duration. It may refuse a long one. -/
def sleep (duration : PyFloat) : Py P Unit :=
  match P.sleepDuration duration with
  | .ok q => .perform (.sleep q) .ret
  | .error x => .raise x

def publish (topic : Topic) (messages : List Json) : Py P Unit :=
  .perform (.publish topic messages) .ret

def commit : Py P Unit := .perform .commit .ret

def increment (counter : String) (value : Nat) : Py P Unit :=
  .perform (.increment counter value) .ret

/-- `try: p except DatabaseException: p`, the one retry of every caller of the repository. -/
def retryOnDatabaseException (p : Py P α) : Py P α :=
  p.tryCatch fun x => if x = .databaseException then p else .raise x

/-! ## Which effects the helpers perform -/

theorem uses_time : Prog.Uses Effect.Silent (time : Py P Rat) :=
  ⟨trivial, fun _ => trivial⟩

theorem uses_sleep {S : Effect P → Prop} (h : ∀ q, S (.sleep q)) (duration : PyFloat) :
    Prog.Uses S (sleep duration : Py P Unit) := by
  unfold sleep
  split
  · exact ⟨h _, fun _ => trivial⟩
  · trivial

theorem counts_increment (counter : String) (value : Nat) :
    Prog.Uses Effect.Counts (increment counter value : Py P Unit) :=
  ⟨trivial, fun _ => trivial⟩

theorem uses_increment (counter : String) (value : Nat) :
    Prog.Uses Effect.Silent (increment counter value : Py P Unit) :=
  (counts_increment counter value).mono fun _ => Effect.Counts.silent

theorem uses_retryOnDatabaseException {S : Effect P → Prop} {p : Py P α} (h : Prog.Uses S p) :
    Prog.Uses S (retryOnDatabaseException p) := by
  refine Prog.uses_tryCatch h fun x => ?_
  split
  · exact h
  · trivial

/-- The two tries: the first one answers or raises something else, or the second one counts. -/
theorem runs_retryOnDatabaseException {p : Py P α} {tr : PyTrace P} {out : Except PyExn α} :
    Prog.Runs (retryOnDatabaseException p) tr out ↔
      (Prog.Runs p tr out ∧ out ≠ .error .databaseException) ∨
        ∃ tr₁ tr₂, tr = tr₁ ++ tr₂ ∧ Prog.Runs p tr₁ (.error .databaseException) ∧
          Prog.Runs p tr₂ out := by
  rw [retryOnDatabaseException, Prog.runs_tryCatch]
  constructor
  · rintro (⟨a, rfl, h⟩ | ⟨tr₁, tr₂, x, rfl, h₁, h₂⟩)
    · exact Or.inl ⟨h, by simp⟩
    · by_cases hx : x = .databaseException
      · subst hx
        exact Or.inr ⟨tr₁, tr₂, rfl, h₁, by simpa using h₂⟩
      · simp only [hx, if_false, Prog.runs_raise] at h₂
        obtain ⟨rfl, rfl⟩ := h₂
        exact Or.inl ⟨by simpa using h₁, by simpa using hx⟩
  · rintro (⟨h, hne⟩ | ⟨tr₁, tr₂, rfl, h₁, h₂⟩)
    · cases out with
      | ok a => exact Or.inl ⟨a, rfl, h⟩
      | error x =>
        have hx : x ≠ .databaseException := by simpa using hne
        exact Or.inr ⟨tr, [], x, by simp, h, by simp [hx]⟩
    · exact Or.inr ⟨tr₁, tr₂, .databaseException, rfl, h₁, by simpa using h₂⟩

end Py

end MonascaNotification
