import Mathlib.Data.List.Dedup
import MonascaNotification.Infra.Concurrent
import MonascaNotification.Infra.Interpret
import MonascaNotification.Model.Notifiers
import MonascaNotification.Model.Repositories

/-!
# The start of `processors/notification_processor.py`

When it starts, a process adds the types of its plugins to the database. Others may start at the
same time and add the same types.
-/

namespace MonascaNotification

open Infra

/-- `notifiers.enabled_notifications`. -/
def Notifiers.enabledNotifications (P : Platform) (T : Notifiers) : List String :=
  T.configured.map fun entry => P.upper entry.1

/-- The order in which a set of strings is iterated. -/
structure SetOrder where
  arrange : List String → List String
  perm : ∀ names, (arrange names).Perm names

namespace NotificationProcessor

variable (P : Platform) (T : Notifiers) (D : Driver) (order : SetOrder)

/-- `set(configured) - set(persisted)`, as it is iterated. -/
def difference (configured : List String) (persisted : List Json) : List String :=
  order.arrange (configured.dedup.filter fun name => Json.str name ∉ persisted)

/-- `_remaining_plugin_types`. -/
def remainingPluginTypes : Db (List String) := do
  let persistedPluginTypes ← D.fetchNotificationMethodTypes
  return difference order (T.enabledNotifications P) persistedPluginTypes

/--
The loop of `insert_configured_plugins` with `n` attempts left.

The types are read again in the body of the `try` and in its handler, and the two tests for an
empty set are the one that follows.
-/
def attempts : Nat → List String → Db Unit
  | 0, _ => return ()
  | n + 1, remaining => do
    let remaining ← Prog.tryCatch
      (do
        D.insertNotificationMethodTypes remaining
        remainingPluginTypes P T D order)
      fun x =>
        if x = .databaseException then do
          -- the other process may have registered the type
          let remaining ← remainingPluginTypes P T D order
          if remaining ≠ [] ∧ n = 0 then throw x else return remaining
        else throw x
    if remaining = [] then return () else attempts n remaining

/-- `insert_configured_plugins`. -/
def insertConfiguredPlugins : Db Unit := do
  let remaining ← remainingPluginTypes P T D order
  attempts P T D order remaining.length remaining

end NotificationProcessor

/-! ## Over the calls of the repository -/

/-- The calls of `insert_configured_plugins` to `self._db_repo`. -/
inductive RepoCall where
  | fetchNotificationMethodTypes
  | insertNotificationMethodTypes (types : List String)
  deriving DecidableEq

@[reducible] def RepoCall.Result : RepoCall → Type
  | .fetchNotificationMethodTypes => List Json
  | .insertNotificationMethodTypes _ => Unit

/-- A function that calls a repository. Each call may raise. -/
abbrev Repo (α : Type) := Prog RepoCall (fun call => Except PyExn call.Result) PyExn α

abbrev RepoEvent := Event RepoCall fun call => Except PyExn call.Result

abbrev RepoTrace := Trace RepoCall fun call => Except PyExn call.Result

/-- A driver as the repository. -/
def Driver.carryOut (D : Driver) : (call : RepoCall) → Db call.Result
  | .fetchNotificationMethodTypes => D.fetchNotificationMethodTypes
  | .insertNotificationMethodTypes types => D.insertNotificationMethodTypes types

namespace Repo

def call (call : RepoCall) : Repo call.Result := Prog.call call

variable (P : Platform) (T : Notifiers) (order : SetOrder)

/-- `_remaining_plugin_types`, for any repository. -/
def remainingPluginTypes : Repo (List String) := do
  let persistedPluginTypes ← call .fetchNotificationMethodTypes
  return NotificationProcessor.difference order (T.enabledNotifications P) persistedPluginTypes

/-- The loop of `insert_configured_plugins` with `n` attempts left, for any repository. -/
def attempts : Nat → List String → Repo Unit
  | 0, _ => return ()
  | n + 1, remaining => do
    let remaining ← Prog.tryCatch
      (do
        call (.insertNotificationMethodTypes remaining)
        remainingPluginTypes P T order)
      fun x =>
        if x = .databaseException then do
          let remaining ← remainingPluginTypes P T order
          if remaining ≠ [] ∧ n = 0 then throw x else return remaining
        else throw x
    if remaining = [] then return () else attempts n remaining

/-- `insert_configured_plugins`, for any repository. -/
def insertConfiguredPlugins : Repo Unit := do
  let remaining ← remainingPluginTypes P T order
  attempts P T order remaining.length remaining

end Repo

/-! ## Processes on one database -/

/-- What a step of a process does to the database and to its connection. -/
def DbEffect.acts (L : Library) : Acts DbEffect DbEffect.Answer Database (Option Connection) :=
  fun e db connection answer db' connection' =>
    ∃ S : Server, DbEffect.sem L S e ⟨db, connection⟩ = (answer, ⟨db', connection'⟩)

/-- A process that starts. -/
structure Process where
  platform : Platform
  notifiers : Notifiers
  driver : Driver
  library : Library
  order : SetOrder

namespace Process

def enabled (self : Process) : List String :=
  self.notifiers.enabledNotifications self.platform

def insertConfiguredPlugins (self : Process) : Db Unit :=
  NotificationProcessor.insertConfiguredPlugins self.platform self.notifiers self.driver self.order

end Process

/-- All processes at their start. A new repository object has no connection. -/
def starting {ι : Type} (processes : ι → Process) (db : Database) :
    Pool ι DbEffect DbEffect.Answer PyExn Unit Database (Option Connection) where
  shared := db
  own := fun _ => none
  prog := fun i => (processes i).insertConfiguredPlugins

end MonascaNotification
