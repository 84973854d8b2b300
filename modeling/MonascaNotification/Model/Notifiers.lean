import MonascaNotification.Model.Effect

/-!
# `types/notifiers.py` and `NotificationProcessor.send`

The module-level tables of the plugins, how they are filled, and the loop that hands each
notification to the plugin of its type.
-/

namespace MonascaNotification

open Infra

/-! ## The tables -/

/-- `d[key] = v` on a dict: a key keeps its place. -/
def dictSet {β : Type} (d : List (String × β)) (key : String) (v : β) : List (String × β) :=
  match d with
  | [] => [(key, v)]
  | (k, w) :: rest => if k = key then (k, v) :: rest else (k, w) :: dictSet rest key v

theorem lookup_dictSet {β : Type} (d : List (String × β)) (key k : String) (v : β) :
    (dictSet d key v).lookup k = if k = key then some v else d.lookup k := by
  induction d with
  | nil =>
    by_cases h : k = key
    · simp [dictSet, h]
    · simp [dictSet, List.lookup_cons, h, beq_false_of_ne h]
  | cons p rest ih =>
    obtain ⟨l, w⟩ := p
    by_cases hl : l = key
    · subst hl
      by_cases h : k = l
      · simp [dictSet, h]
      · simp [dictSet, List.lookup_cons, h, beq_false_of_ne h]
    · by_cases h : k = key
      · subst h
        simpa [dictSet, List.lookup_cons, hl, beq_false_of_ne (Ne.symm hl)] using ih
      · simp only [dictSet, hl, if_false, List.lookup_cons, ih, h]

/-- `configured_notifiers` and `statsd_counter`. `config` fills both with the same keys. -/
structure Notifiers where
  configured : List (String × Notifier)
  statsdCounter : List (String × String)
  same_keys : ∀ k, (configured.lookup k).isSome = (statsdCounter.lookup k).isSome

namespace Notifiers

/-- `notifiers.init`. -/
def init : Notifiers where
  configured := []
  statsdCounter := []
  same_keys := fun _ => rfl

/-- `plugin_class.replace(':', '.')` -/
def classPath (pluginClass : String) : String :=
  String.ofList (pluginClass.toList.map fun c => if c = ':' then '.' else c)

/--
One turn of the loop of `notifiers.load_plugins`. To import a class and to make its instance gives
the two attributes of the instance, or raises, and then the class is ignored.
-/
def loadPlugin (load : String → Except PyExn (String × String))
    (possibleNotifiers : List Notifier) (pluginClass : String) : List Notifier :=
  match load (classPath pluginClass) with
  | .ok (type, statsdName) =>
    possibleNotifiers ++ [{ index := possibleNotifiers.length, type, statsdName }]
  | .error _ => possibleNotifiers

/-- `notifiers.load_plugins`, after `init`. -/
def loadPlugins (load : String → Except PyExn (String × String)) (enabled : List String) :
    List Notifier :=
  enabled.foldl (loadPlugin load) []

/-- One turn of the loop of `notifiers.config`. -/
def configure (P : Platform) (T : Notifiers) (notifier : Notifier) : Notifiers where
  configured := dictSet T.configured (P.lower notifier.type) notifier
  statsdCounter := dictSet T.statsdCounter (P.lower notifier.type) notifier.statsdName
  same_keys := by
    intro k
    rw [lookup_dictSet, lookup_dictSet]
    split
    · rfl
    · exact T.same_keys k

/-- `notifiers.config`. -/
def config (P : Platform) (possibleNotifiers : List Notifier) : Notifiers :=
  possibleNotifiers.foldl (configure P) init

/-- The notifier of a notification type, when it is a configured key. -/
def find? (T : Notifiers) (ntype : Json) : Option Notifier :=
  match ntype with
  | .str t => T.configured.lookup t
  | _ => none

end Notifiers

/-! ## Sending -/

variable {P : Platform}

/-- The test `ntype not in configured_notifiers`. A list or dict cannot be a key. -/
def hashable : Json → Except PyExn Unit
  | .arr _ => .error .typeError
  | .obj _ => .error .typeError
  | _ => .ok ()

/-- `send_single_notification`. Whatever the plugin raises counts as `False`. -/
def sendSingleNotification (notifier : Notifier) (n : Notification P) : Py P Json :=
  Prog.tryCatch
    (.perform (.sendNotification notifier n) fun (answer : Except PyExn Json) =>
      .ofExcept answer)
    (fun _ => .ret (.bool false))

/-- `notifiers.send_notifications`: the lists `sent`, `failed` and `invalid`. -/
def sendNotifications (T : Notifiers) : List (Notification P) →
    Py P (List (Notification P) × List (Notification P) × List (Notification P))
  | [] => return ([], [], [])
  | n :: rest => do
    .ofExcept (hashable n.type)
    match T.find? n.type with
    | none =>
      let (sent, failed, invalid) ← sendNotifications T rest
      return (sent, failed, n :: invalid)
    | some notifier =>
      let now ← Py.time
      let n := n.stamp now
      let result ← sendSingleNotification notifier n
      if result.truthy then
        let counter ← .ofExcept (match n.type with
          | .str t => (T.statsdCounter.lookup t).elim (.error (.keyError t)) .ok
          | _ => .error .typeError)
        Py.increment counter 1
        let (sent, failed, invalid) ← sendNotifications T rest
        return (n :: sent, failed, invalid)
      else
        let (sent, failed, invalid) ← sendNotifications T rest
        return (sent, n :: failed, invalid)

/-- `NotificationProcessor.send`. -/
def send (T : Notifiers) (notifications : List (Notification P)) :
    Py P (List (Notification P) × List (Notification P)) := do
  let (sent, failed, invalid) ← sendNotifications T notifications
  if failed ≠ [] then
    Py.increment "sent_failed_count" failed.length
  if invalid ≠ [] then
    Py.increment "invalid_type_count" invalid.length
  return (sent, failed)

end MonascaNotification
