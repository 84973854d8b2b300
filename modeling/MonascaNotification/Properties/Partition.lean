import Mathlib.Data.List.Basic
import MonascaNotification.Model.Store
import MonascaNotification.Spec.Sending

/-!
# What becomes of each notification

`send_notifications` after `init`, `load_plugins` and `config`. A type goes to the last plugin
that was loaded for it, ignoring case (`find?_config`), and to the counter of the same plugin
(`counter?_config`).

A notification is handled in one of two ways (`Handling`), and the three lists of the result, the
calls of the plugins and the increments of the counters are read off the list of handlings.
-/

namespace MonascaNotification

open Infra Prog

variable {P : Platform}

/-! ## The tables after `config` -/

namespace Notifiers

/-- The plugin for a type: of those that were loaded for it, the last one. -/
def pluginFor (P : Platform) (loaded : List Notifier) (ntype : Json) : Option Notifier :=
  match ntype with
  | .str t => (loaded.filter fun notifier => P.lower notifier.type = t).getLast?
  | _ => none

/-- Each loaded plugin replaces the one before it of the same type. -/
theorem pluginFor_append_singleton (loaded : List Notifier) (notifier : Notifier) (t : String) :
    pluginFor P (loaded ++ [notifier]) (.str t) =
      if t = P.lower notifier.type then some notifier else pluginFor P loaded (.str t) := by
  unfold pluginFor
  dsimp only
  rw [List.filter_append]
  by_cases h : t = P.lower notifier.type
  · rw [if_pos h, List.filter_cons_of_pos (by simp [h]), List.filter_nil, List.getLast?_concat]
  · rw [if_neg h, List.filter_cons_of_neg (by simpa using Ne.symm h), List.filter_nil,
      List.append_nil]

theorem config_append_singleton (loaded : List Notifier) (notifier : Notifier) :
    config P (loaded ++ [notifier]) = configure P (config P loaded) notifier := by
  unfold config
  rw [List.foldl_append]
  rfl

theorem find?_config (loaded : List Notifier) (ntype : Json) :
    (config P loaded).find? ntype = pluginFor P loaded ntype := by
  cases ntype with
  | str t =>
    induction loaded using List.reverseRecOn with
    | nil => rfl
    | append_singleton loaded notifier ih =>
      rw [pluginFor_append_singleton, config_append_singleton, ← ih]
      exact lookup_dictSet _ _ _ _
  | _ => rfl

theorem counter?_config (loaded : List Notifier) (ntype : Json) :
    (config P loaded).counter? ntype = (pluginFor P loaded ntype).map Notifier.statsdName := by
  cases ntype with
  | str t =>
    induction loaded using List.reverseRecOn with
    | nil => rfl
    | append_singleton loaded notifier ih =>
      rw [pluginFor_append_singleton, config_append_singleton]
      refine (lookup_dictSet _ _ _ _).trans ?_
      split
      · rfl
      · exact ih
  | _ => rfl

end Notifiers

/-! ## Handlings -/

/-- What the loop does with one notification. -/
inductive Handling (P : Platform) where
  | unconfigured (n : Notification P)
  | answered (notifier : Notifier) (n : Notification P) (answer : Except PyExn Json)

namespace Handling

/-- Nothing happens to a notification without a plugin. Another one gets the time, and no more. -/
def Of (plugin : Json → Option Notifier) (n : Notification P) : Handling P → Prop
  | unconfigured m => plugin n.type = none ∧ m = n
  | answered notifier m _ => plugin n.type = some notifier ∧ ∃ now, m = n.stamp now

def sent? : Handling P → Option (Notification P)
  | unconfigured _ => none
  | answered _ n answer => if accepted answer then some n else none

def failed? : Handling P → Option (Notification P)
  | unconfigured _ => none
  | answered _ n answer => if accepted answer then none else some n

def invalid? : Handling P → Option (Notification P)
  | unconfigured n => some n
  | answered _ _ _ => none

def call? : Handling P → Option (Notifier × Notification P × Except PyExn Json)
  | unconfigured _ => none
  | answered notifier n answer => some (notifier, n, answer)

end Handling

/-- The plugin call of an event. -/
def pluginCall : PyEvent P → Option (Notifier × Notification P × Except PyExn Json)
  | ⟨.sendNotification notifier n, answer⟩ => some (notifier, n, answer)
  | _ => none

/-- The counter that an event increments, and by how much. -/
def incremented : PyEvent P → Option (String × Nat)
  | ⟨.increment counter value, _⟩ => some (counter, value)
  | _ => none

/-- A dispatch as a list of handlings, one for each notification. -/
theorem Dispatch.handlings {T : Notifiers} {ns sent failed invalid : List (Notification P)}
    {tr : PyTrace P} (h : Dispatch T ns tr sent failed invalid) :
    ∃ handlings : List (Handling P), List.Forall₂ (Handling.Of T.find?) ns handlings ∧
      sent = handlings.filterMap Handling.sent? ∧
      failed = handlings.filterMap Handling.failed? ∧
      invalid = handlings.filterMap Handling.invalid? ∧
      tr.filterMap pluginCall = handlings.filterMap Handling.call? := by
  induction h with
  | nil => exact ⟨[], .nil, rfl, rfl, rfl, rfl⟩
  | @invalid n _ _ _ _ _ hfind _ ih =>
    obtain ⟨handlings, hof, rfl, rfl, rfl, hcalls⟩ := ih
    exact ⟨.unconfigured n :: handlings, .cons ⟨hfind, rfl⟩ hof, rfl, rfl, rfl, hcalls⟩
  | @sent n _ _ _ _ _ notifier now answer _ hfind haccepted _ ih =>
    obtain ⟨handlings, hof, rfl, rfl, rfl, hcalls⟩ := ih
    refine ⟨.answered notifier (n.stamp now) answer :: handlings, .cons ⟨hfind, now, rfl⟩ hof,
      ?_, ?_, rfl, ?_⟩
    · simp [Handling.sent?, haccepted]
    · simp [Handling.failed?, haccepted]
    · exact congrArg ((notifier, n.stamp now, answer) :: ·) hcalls
  | @failed n _ _ _ _ _ notifier now answer hfind hrefused _ ih =>
    obtain ⟨handlings, hof, rfl, rfl, rfl, hcalls⟩ := ih
    refine ⟨.answered notifier (n.stamp now) answer :: handlings, .cons ⟨hfind, now, rfl⟩ hof,
      ?_, ?_, rfl, ?_⟩
    · simp [Handling.sent?, hrefused]
    · simp [Handling.failed?, hrefused]
    · exact congrArg ((notifier, n.stamp now, answer) :: ·) hcalls

/-! ## The counters -/

/-- What a notification that was sent adds to the counter of its type. -/
def Notifiers.count (T : Notifiers) (n : Notification P) : Option (String × Nat) :=
  (T.counter? n.type).map fun counter => (counter, 1)

/-- Each notification that was sent counts once, for its type. -/
theorem runs_increments {T : Notifiers} {ns sent failed invalid : List (Notification P)}
    {tr : PyTrace P} (h : Runs (sendNotifications T ns) tr (.ok (sent, failed, invalid))) :
    tr.filterMap incremented = sent.filterMap T.count := by
  induction ns generalizing tr sent failed invalid with
  | nil =>
    obtain ⟨rfl, h⟩ := h
    cases h
    rfl
  | cons n ns ih =>
    cases runs_sendNotifications_cons h with
    | invalid _ hrest => exact ih hrest
    | @sent _ _ _ _ _ now _ counter _ _ hcounter hrest =>
      have hcount : T.count (n.stamp now) = some (counter, 1) := by
        rw [Notifiers.count, Notification.stamp_type, hcounter]
        rfl
      rw [List.filterMap_cons_some hcount, ← ih hrest]
      rfl
    | failed _ _ hrest =>
      have hcounts := ih hrest
      exact hcounts

/-! ## The whole loop -/

/--
**The input is partitioned and failures are isolated.** Whatever plugins were enabled, loaded or
not, and whatever they do: the loop raises nothing. It handles each notification once, in order.
The three lists, the plugin calls and the increments are those of the handlings: `sent` has the
notifications that their plugin accepted, `invalid` those whose type has no plugin, as they were,
and `failed` the rest.
-/
theorem send_partitions (load : String → Except PyExn (String × String)) (enabled : List String)
    {ns : List (Notification P)} (hkeys : ∀ n ∈ ns, hashable n.type = .ok ())
    {tr : PyTrace P}
    {out : Except PyExn (List (Notification P) × List (Notification P) × List (Notification P))}
    (h : Runs (sendNotifications
      (Notifiers.config P (Notifiers.loadPlugins load enabled)) ns) tr out) :
    ∃ handlings : List (Handling P),
      List.Forall₂
        (Handling.Of (Notifiers.pluginFor P (Notifiers.loadPlugins load enabled))) ns handlings ∧
      out = .ok (handlings.filterMap Handling.sent?, handlings.filterMap Handling.failed?,
        handlings.filterMap Handling.invalid?) ∧
      tr.filterMap pluginCall = handlings.filterMap Handling.call? ∧
      tr.filterMap incremented = (handlings.filterMap Handling.sent?).filterMap fun n =>
        (Notifiers.pluginFor P (Notifiers.loadPlugins load enabled) n.type).map
          fun notifier => (notifier.statsdName, 1) := by
  have hensures : Ensures (fun _ _ => True)
      (sendNotifications (Notifiers.config P (Notifiers.loadPlugins load enabled)) ns)
      fun out => ∃ lists, out = .ok lists := ensures_sendNotifications _ hkeys
  -- the counter of a configured type exists, so that its lookup cannot raise
  obtain ⟨⟨sent, failed, invalid⟩, rfl⟩ := hensures tr out (fun _ _ => trivial) h
  obtain ⟨handlings, hof, rfl, rfl, rfl, hcalls⟩ := (runs_sendNotifications h).handlings
  have hplugin : (Notifiers.config P (Notifiers.loadPlugins load enabled)).find? =
      Notifiers.pluginFor P (Notifiers.loadPlugins load enabled) :=
    funext (Notifiers.find?_config _)
  rw [hplugin] at hof
  refine ⟨handlings, hof, rfl, hcalls, ?_⟩
  rw [runs_increments h]
  congr 1
  funext n
  rw [Notifiers.count, Notifiers.counter?_config, Option.map_map]
  rfl

namespace Deployment

/-- Only the e-mail plugin can be imported. -/
def load (pluginClass : String) : Except PyExn (String × String) :=
  if pluginClass = "monasca_notification.plugins.email_notifier.EmailNotifier" then
    .ok ("email", "sent_smtp_count")
  else .error (.other "ImportError")

def enabledClasses : List String :=
  ["monasca_notification.plugins.email_notifier:EmailNotifier", "hipchat:HipChatNotifier"]

/-- A notification of alarm `1` of the given type. -/
def notificationOf (type : String) : Notification cpython where
  alarmId := .str "1"
  alarmName := .str "test Alarm"
  alarmTimestamp := 0
  message := .str "I am alarming!"
  state := .str "ALARM"
  severity := .str "LOW"
  link := .str ""
  lifecycleState := .str "OPEN"
  tenantId := .str "0"
  metrics := .obj [("name", .str "cpu")]
  id := .str "10"
  type := .str type
  name := .str "name"
  address := .str "me@here.com"
  period := .int 60
  retryCount := .int 0
  notificationTimestamp := .null
  rawAlarm := alarm "OK" "ALARM"
  derived := by decide +kernel

end Deployment

open Deployment in
/-- One notification for the plugin that was loaded, and one for the plugin that was not. -/
theorem send_partitions_email :
    let loaded := Notifiers.loadPlugins load enabledClasses
    let p := sendNotifications (Notifiers.config cpython loaded)
      [notificationOf "email", notificationOf "hipchat"]
    let sem := Store.sem 0 (.ok (.bool true))
    (loaded.length = 1 ∧ (p.trace sem store).length = 3) ∧
    ∃ handlings : List (Handling cpython),
      List.Forall₂ (Handling.Of (Notifiers.pluginFor cpython loaded))
        [notificationOf "email", notificationOf "hipchat"] handlings ∧
      (p.run sem store).1 = .ok (handlings.filterMap Handling.sent?,
        handlings.filterMap Handling.failed?, handlings.filterMap Handling.invalid?) ∧
      (p.trace sem store).filterMap pluginCall = handlings.filterMap Handling.call? ∧
      (p.trace sem store).filterMap incremented =
        (handlings.filterMap Handling.sent?).filterMap fun n =>
          (Notifiers.pluginFor cpython loaded n.type).map
            fun notifier => (notifier.statsdName, 1) := by
  intro loaded p sem
  refine ⟨⟨by decide +kernel, by decide +kernel⟩, ?_⟩
  refine send_partitions load enabledClasses (fun n hn => ?_) (runs_trace sem p store)
  rcases List.mem_cons.mp hn with rfl | hn
  · rfl
  · obtain rfl := List.mem_singleton.mp hn
    rfl

end MonascaNotification
