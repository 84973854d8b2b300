import MonascaNotification.Properties.Accounts
import MonascaNotification.Properties.Provenance
import MonascaNotification.Python.Text
import MonascaNotification.Python.Urlparse
import MonascaNotification.Spec.Receivers

/-!
# What the receivers have taken

The engines know of a plugin only whether it returned something true. Here the plugins are put under
the engines, down to their posts, their mails and their calls of Jira. What the other side took is,
one by one and in this order, what the engines took for accepted: a send is not reported without a
receiver that took it, and none is taken unseen, unless a process stopped in between.
-/

namespace MonascaNotification

open Infra Prog Network

section

variable {P : Platform} {W : Environment P} {conf : Config} {T : Notifiers} {mayCrash : Prop}
  {plugins : PluginConf P}

/-- The engines, over the contacts of the plugins. -/
abbrev contacting (W : Environment P) (conf : Config) (T : Notifiers) (mayCrash : Prop)
    (plugins : PluginConf P) : Network (Engine conf) Topic KafkaValue
      (W.State × List (Notifier × Contact)) (Effect P) Effect.Answer PyExn :=
  (system W conf T mayCrash).layered (contacts P plugins)

/-- A state of the engines, with the contacts made so far. -/
abbrev ContactingState (W : Environment P) (conf : Config) :=
  NetState (Engine conf) Topic KafkaValue (W.State × List (Notifier × Contact)) (Effect P)
    Effect.Answer PyExn

variable {s : ContactingState W conf}

/-! ## One call -/

/-- A contact that the other side took. -/
def isTaken : Notifier × Contact → Bool
  | (notifier, c) => (Plugin.ofType? notifier.type).any fun p => p.accepts c

def taken (s : ContactingState W conf) : List (Notifier × Contact) := s.world.2.filter isTaken

/-- A call of a plugin of the package that has a message and was taken for accepted. -/
def acceptedCall (plugins : PluginConf P) : PyEvent P → Option (Notifier × Notification P)
  | ⟨.sendNotification notifier n, answer⟩ =>
    if (Plugin.ofType? notifier.type).any (fun p => p.hasMessage plugins n) && accepted answer then
      some (notifier, n)
    else none
  | _ => none

/-- An accepted call without a message: one of Jira, with a custom format without comments. -/
def acceptedSilently (plugins : PluginConf P) : PyEvent P → Bool
  | ⟨.sendNotification notifier n, answer⟩ =>
    (Plugin.ofType? notifier.type).any (fun p => !p.hasMessage plugins n) && accepted answer
  | _ => false

/-- The contact hands over the notification of the call. -/
def Hands (plugins : PluginConf P) (call : Notifier × Notification P)
    (entry : Notifier × Contact) : Prop :=
  entry.1 = call.1 ∧ ∃ p, Plugin.ofType? call.1.type = some p ∧ p.Delivers plugins call.2 entry.2

theorem accepted_map_bool (out : Except PyExn Bool) :
    accepted (out.map Json.bool) = isGood id out := by
  cases out <;> rfl

/-- A call with a message leaves one contact that was taken when it returns `True`, else none. -/
theorem Plugin.Calls.forall₂ {p : Plugin} {n : Notification P} {cs : List Contact}
    {out : Except PyExn Bool} (h : p.Calls plugins n cs out) {notifier : Notifier}
    (hp : ofType? notifier.type = some p) :
    List.Forall₂ (Hands plugins)
      (acceptedCall plugins ⟨.sendNotification notifier n, out.map Json.bool⟩).toList
      ((cs.map (notifier, ·)).filter isTaken) := by
  have hreceipt : Receipt isTaken (fun x => x.1 = notifier ∧ p.Delivers plugins n x.2)
      (p.hasMessage plugins n && isGood id out) (cs.map (notifier, ·)) := by
    rw [Bool.and_comm]
    exact h.receipt.map (fun c => by rw [isTaken, hp, Option.any_some]) fun c hc => ⟨rfl, hc⟩
  rw [acceptedCall, hp, Option.any_some, accepted_map_bool]
  exact hreceipt.forall₂ (notifier, n) fun x hx => ⟨hx.1, p, hp, hx.2⟩

theorem forall₂_of_low {e : Effect P} {r : e.Answer} {xs : List (Notifier × Contact)}
    (h : (contacts P plugins).low e r xs) :
    List.Forall₂ (Hands plugins) (acceptedCall plugins ⟨e, r⟩).toList (xs.filter isTaken) := by
  cases e with
  | sendNotification notifier n =>
    simp only [contacts] at h
    split at h
    · next p hp =>
      obtain ⟨cs, out, hcalls, rfl, rfl⟩ := h
      exact hcalls.forall₂ hp
    · next hp =>
      subst h
      rw [acceptedCall, hp, Option.any_none, Bool.false_and]
      exact .nil
  | _ =>
    cases h
    exact .nil

/-! ## Every run -/

theorem exists_taken (h : Reachable (contacting W conf T mayCrash plugins) s) :
    ∃ found, List.Forall₂ (Hands plugins)
        ((s.history.map Prod.snd).filterMap (acceptedCall plugins)) found ∧
      found.Sublist (taken s) ∧ (¬ mayCrash → found = taken s) :=
  (explains_reachable h).receipts fun _ _ _ hxs => forall₂_of_low hxs

/--
**Accepted calls are taken by the receivers.** In every run of the engines over the contacts of
their plugins, the calls that were taken for accepted are found one by one, and in their order,
among the contacts that the other side took: each hands over the notification of its call. Without
crashes, nothing else was taken. A call without a message is none of them.
-/
theorem accepted_are_taken (h : Reachable (contacting W conf T mayCrash plugins) s) :
    ∃ found, List.Forall₂ (Hands plugins)
        (s.history.filterMap fun x => acceptedCall plugins x.2) found ∧
      found.Sublist (taken s) ∧ (¬ mayCrash → found = taken s) := by
  have hfound := exists_taken h
  rwa [List.filterMap_map] at hfound

/--
**What is recorded as sent was taken by its receiver.** In every run, with crashes at any point,
each document on the notification topic is that of a notification whose plugin is the one that is
configured for its type. When this is a plugin of the package, the other side took a contact that
hands over this notification, unless there was no message.
-/
theorem recorded_are_taken (h : Reachable (contacting W conf T mayCrash plugins) s)
    {m : KafkaValue} (hm : m ∈ s.log .notification) :
    ∃ (n : Notification P) (notifier : Notifier), m = .dumps n.toJson ∧
      T.find? n.type = some notifier ∧
      ∀ p, Plugin.ofType? notifier.type = some p → p.hasMessage plugins n = true →
        ∃ c, (notifier, c) ∈ taken s ∧ p.Delivers plugins n c := by
  have hdoc := (evidence W conf T mayCrash).valid_reachable h.forget .notification m hm
  obtain ⟨n, rfl, -, i, notifier, answer, hcall, hfind, haccepted⟩ := hdoc
  refine ⟨n, notifier, rfl, hfind, fun p hp hmessage => ?_⟩
  obtain ⟨found, hrel, hsub, -⟩ := exists_taken h
  have hmem : (notifier, n) ∈ (s.history.map Prod.snd).filterMap (acceptedCall plugins) := by
    refine List.mem_filterMap.mpr ⟨_, List.mem_map_of_mem hcall, ?_⟩
    rw [acceptedCall, hp, Option.any_some, hmessage, haccepted]
    rfl
  obtain ⟨⟨notifier', c⟩, hc, rfl, p', hp', hdelivers⟩ := exists_of_mem_forall₂ hrel hmem
  obtain rfl : p = p' := Option.some.inj (hp.symm.trans hp')
  exact ⟨c, hsub.subset hc, hdelivers⟩

/-! ## As many as are recorded -/

def Engine.isPeriodic : Engine conf → Bool
  | .periodic _ => true
  | _ => false

/-- How many calls of the periodic engines were accepted. -/
def periodicAccepted (xs : List (Engine conf × PyEvent P)) : Nat :=
  xs.countP fun x => x.1.isPeriodic && (delivered x.2).isSome

/-- Every configured plugin is one of the package. -/
def Notifiers.Shipped (T : Notifiers) : Prop :=
  ∀ key notifier, T.configured.lookup key = some notifier → (Plugin.ofType? notifier.type).isSome

theorem length_deliveries_eventsOf (i : Engine conf) :
    (deliveries (eventsOf s i)).length =
      s.history.countP fun x => decide (x.1 = i) && (delivered x.2).isSome := by
  rw [deliveries, List.length_filterMap_eq_countP, eventsOf, List.countP_map, List.countP_filter]
  exact List.countP_congr fun x _ => by simp [and_comm]

/-- An accepted call is one of the `NotificationEngine`, the `RetryEngine` or a periodic engine. -/
theorem countP_delivered : s.history.countP (fun x => (delivered x.2).isSome) =
    (deliveries (eventsOf s .notification)).length + (deliveries (eventsOf s .retry)).length +
      periodicAccepted s.history := by
  rw [length_deliveries_eventsOf, length_deliveries_eventsOf, periodicAccepted]
  induction s.history with
  | nil => rfl
  | cons x xs ih =>
    obtain ⟨i, ev⟩ := x
    simp only [List.countP_cons]
    rw [ih]
    cases i <;> cases (delivered ev).isSome <;> simp [Engine.isPeriodic] <;> omega

/-- How many accepted calls had no message. -/
def silent (plugins : PluginConf P) (xs : List (Engine conf × PyEvent P)) : Nat :=
  xs.countP fun x => acceptedSilently plugins x.2

/-- Of the calls that the engines take for accepted, each has a message or has none. -/
theorem isSome_delivered (hT : T.Shipped) {s : SystemState W conf}
    (h : Reachable (system W conf T mayCrash) s) {x : Engine conf × PyEvent P}
    (hx : x ∈ s.history) : (delivered x.2).isSome =
      ((acceptedCall plugins x.2).isSome || acceptedSilently plugins x.2) := by
  obtain ⟨i, ⟨e, answer⟩⟩ := x
  cases e with
  | sendNotification notifier n =>
    have hbehind := (evidence W conf T mayCrash).performed_reachable h _ hx
    obtain ⟨hfind, -⟩ := founded_of_behind hbehind
    have hshipped : (Plugin.ofType? notifier.type).isSome = true := by
      cases htype : n.type with
      | str t =>
        rw [htype] at hfind
        exact hT t notifier hfind
      | _ =>
        rw [htype] at hfind
        cases hfind
    obtain ⟨p, hp⟩ := Option.isSome_iff_exists.mp hshipped
    dsimp only [acceptedCall, acceptedSilently, delivered]
    rw [hp, Option.any_some, Option.any_some]
    cases p.hasMessage plugins n <;> cases accepted answer <;> rfl
  | _ => rfl

theorem acceptedSilently_eq_false {ev : PyEvent P} (h : (acceptedCall plugins ev).isSome = true) :
    acceptedSilently plugins ev = false := by
  obtain ⟨e, answer⟩ := ev
  cases e with
  | sendNotification notifier n =>
    dsimp only [acceptedCall, acceptedSilently] at h ⊢
    cases hp : Plugin.ofType? notifier.type with
    | none => rfl
    | some p =>
      rw [hp, Option.any_some] at h
      rw [Option.any_some]
      cases hmessage : p.hasMessage plugins n with
      | true => rfl
      | false =>
        rw [hmessage] at h
        cases h
  | _ => rfl

theorem countP_acceptedCall (hT : T.Shipped) {s : SystemState W conf}
    (h : Reachable (system W conf T mayCrash) s) :
    s.history.countP (fun x => (acceptedCall plugins x.2).isSome) + silent plugins s.history =
      s.history.countP fun x => (delivered x.2).isSome := by
  have hsplit : ∀ xs : List (Engine conf × PyEvent P),
      xs.countP (fun x => (acceptedCall plugins x.2).isSome) + silent plugins xs =
        xs.countP fun x => (acceptedCall plugins x.2).isSome || acceptedSilently plugins x.2 := by
    intro xs
    induction xs with
    | nil => rfl
    | cons x xs ih =>
      rw [silent] at ih ⊢
      simp only [List.countP_cons]
      cases hcall : (acceptedCall plugins x.2).isSome with
      | true =>
        rw [acceptedSilently_eq_false hcall]
        simp only [Bool.true_or, if_true, Bool.false_eq_true, if_false]
        omega
      | false =>
        cases acceptedSilently plugins x.2 <;> simp <;> omega
  rw [hsplit]
  exact List.countP_congr fun x hx => by rw [isSome_delivered hT h hx]

/-- The default format has comments for every notification that is sent. -/
theorem silent_default (hformat : plugins.jiraFormat = none)
    (h : Reachable (contacting W conf T mayCrash plugins) s) : silent plugins s.history = 0 := by
  refine List.countP_eq_zero.mpr fun x hx hsilent => ?_
  obtain ⟨i, ⟨e, answer⟩⟩ := x
  cases e with
  | sendNotification notifier n =>
    rw [acceptedSilently, Bool.and_eq_true, Option.any_eq_true] at hsilent
    obtain ⟨⟨p, hp, hmessage⟩, haccepted⟩ := hsilent
    obtain ⟨xs, hlow, -⟩ := (explains_reachable h).of_mem (List.mem_map_of_mem hx)
    simp only [contacts, hp] at hlow
    obtain ⟨cs, out, hcalls, rfl, -⟩ := hlow
    rw [accepted_map_bool] at haccepted
    cases hcalls with
    | @jira tr out hrun =>
      obtain rfl : out = .ok true := by
        cases out with
        | error x => cases haccepted
        | ok returned => exact congrArg _ haccepted
      obtain ⟨r, hr, -⟩ := JiraNotifier.exists_request_of_true hrun
      rw [Plugin.hasMessage, hr.hasComments] at hmessage
      rw [hformat] at hr
      obtain ⟨-, -, hcomments⟩ :=
        JiraNotifier.request_eq_ok (JiraNotifier.isRequest_none_iff.mp hr)
      rw [decide_eq_true hcomments] at hmessage
      cases hmessage
    | _ => cases hmessage
  | _ => cases hsilent

/--
**One receipt for each record.** Take a run without crashes of a deployment with plugins of the
package only, and a state in which the `NotificationEngine` and the `RetryEngine` are between two
messages. The receivers took as many contacts as there are messages on the notification topic,
beside those of the periodic engines, which are not recorded, and those without a message, of which
nothing is taken. The default format of Jira always has one.
-/
theorem length_taken (hT : T.Shipped) (h : Reachable (contacting W conf T False plugins) s)
    {n k : Nat} (hidle : s.phase .notification = .idle n) (hretry : s.phase .retry = .idle k) :
    (taken s).length + silent plugins s.history =
        (s.log .notification).length + periodicAccepted s.history ∧
      (plugins.jiraFormat = none → silent plugins s.history = 0) := by
  refine ⟨?_, fun hformat => silent_default hformat h⟩
  have hrecord : (s.log .notification).length = (deliveries (eventsOf s .notification)).length +
      (deliveries (eventsOf s .retry)).length := by
    have hperm := List.perm_iff_count.mpr (count_record h.forget hidle hretry)
    have hlength := hperm.length_eq
    rwa [List.length_map, List.length_append] at hlength
  obtain ⟨found, hrel, -, hall⟩ := exists_taken h
  have htaken : (taken s).length =
      s.history.countP fun x => (acceptedCall plugins x.2).isSome := by
    rw [← hall id, ← hrel.length_eq, List.length_filterMap_eq_countP, List.countP_map]
    rfl
  calc (taken s).length + silent plugins s.history
      = s.history.countP fun x => (delivered x.2).isSome := by
        rw [htaken]
        exact countP_acceptedCall hT h.forget
    _ = (s.log .notification).length + periodicAccepted s.history := by
        rw [countP_delivered, hrecord]

/-! ## Tokens -/

/-- Every post of a webhook comes right after the token that it carries. -/
def Tokened (plugins : PluginConf P) (xs : List (Notifier × Contact)) : Prop :=
  ∀ ⦃before notifier arguments answer after⦄,
    xs = before ++ (notifier, .web ⟨.post arguments, answer⟩) :: after →
    Plugin.ofType? notifier.type = some .webhook → ∃ earlier token,
      before = earlier ++ [(notifier, .web ⟨.loadSession plugins.keystone.toAuthDetails, .ok ()⟩),
        (notifier, .web ⟨.getToken, .ok token⟩)] ∧
      WebhookNotifier.tokenHeader token ∈ arguments.headers

theorem tokened_nil : Tokened plugins [] := by
  intro before notifier arguments answer after hnil
  simp at hnil

theorem Tokened.append {xs ys : List (Notifier × Contact)} (hx : Tokened plugins xs)
    (hy : Tokened plugins ys) : Tokened plugins (xs ++ ys) := by
  intro before notifier arguments answer after hsplit hp
  rcases List.append_eq_append_iff.mp hsplit with ⟨before', rfl, hys⟩ | ⟨rest, hxs, hrest⟩
  · obtain ⟨earlier, token, rfl, htoken⟩ := hy hys hp
    exact ⟨xs ++ earlier, token, by rw [List.append_assoc], htoken⟩
  · cases rest with
    | nil =>
      obtain ⟨earlier, token, hnil, -⟩ := hy (show ys = [] ++ _ from hrest.symm) hp
      simp at hnil
    | cons x rest =>
      obtain ⟨rfl, -⟩ := List.cons_eq_cons.mp hrest
      exact hx hxs hp

theorem Tokened.of_append {xs ys : List (Notifier × Contact)} (h : Tokened plugins (xs ++ ys)) :
    Tokened plugins xs := by
  intro before notifier arguments answer after hsplit hp
  exact h (by rw [hsplit, List.append_assoc, List.cons_append]) hp

/-- A call posts at most once, at its end, after it has a token. -/
theorem Plugin.Calls.tokened (hauth : plugins.keystone.authRequired = true) {p : Plugin}
    {n : Notification P} {cs : List Contact} {out : Except PyExn Bool}
    (h : p.Calls plugins n cs out) {notifier : Notifier} (hp : ofType? notifier.type = some p) :
    Tokened plugins (cs.map (notifier, ·)) := by
  intro before notifier' arguments answer after hsplit hp'
  obtain ⟨cs₁, cs₂, rfl, rfl, hcs₂⟩ := List.map_eq_append_iff.mp hsplit
  obtain ⟨c, cs₃, rfl, hc, -⟩ := List.map_eq_cons_iff.mp hcs₂
  cases hc
  obtain rfl : p = .webhook := Option.some.inj (hp.symm.trans hp')
  generalize hcs : cs₁ ++ .web ⟨.post arguments, answer⟩ :: cs₃ = cs at h
  cases h with
  | @webhook tr out hrun =>
    obtain ⟨tr₁, tr₂, rfl, rfl, htr₂⟩ := List.map_eq_append_iff.mp hcs.symm
    obtain ⟨ev, tr₃, rfl, hev, -⟩ := List.map_eq_cons_iff.mp htr₂
    cases hev
    rcases WebhookNotifier.runs_sendNotification hauth hrun with
      hnone | ⟨token, arguments', answer', htr, hmem⟩
    · cases hnone ⟨.post arguments, answer⟩ (by simp)
    · have hnot : (⟨.post arguments, answer⟩ : WebEvent) ∉
          [⟨.loadSession plugins.keystone.toAuthDetails, .ok ()⟩, ⟨.getToken, .ok token⟩] := by
        simp
      obtain ⟨rfl, hpost, -⟩ := eq_of_append_cons_eq_concat htr hnot
      cases hpost
      exact ⟨[], token, rfl, hmem⟩

/--
**No webhook without its token.** When keystone is configured, in every run, with crashes at any
point, also inside a call, each post of the webhook plugin comes right after keystone gave a token,
and carries this token, which may be `None`. When keystone fails, nothing is posted.
-/
theorem webhooks_carry_tokens (hauth : plugins.keystone.authRequired = true)
    (h : Reachable (contacting W conf T mayCrash plugins) s) : Tokened plugins s.world.2 := by
  refine (explains_reachable h).all tokened_nil (fun _ _ hx hy => hx.append hy) ?_ ?_
  · intro e r xs hlow
    cases e with
    | sendNotification notifier n =>
      simp only [contacts] at hlow
      split at hlow
      · next p hp =>
        obtain ⟨cs, out, hcalls, -, rfl⟩ := hlow
        exact hcalls.tokened hauth hp
      · subst hlow
        exact tokened_nil
    | _ =>
      cases hlow
      exact tokened_nil
  · rintro - xs ⟨notifier, n, p, cs, out, hp, hcalls, rest, hrest⟩
    have htokened := hcalls.tokened hauth hp
    rw [← hrest] at htokened
    exact htokened.of_append

end

/-! ## A deployment with a webhook -/

namespace Deployment

def webhook : Notifier where
  index := 0
  type := "webhook"
  statsdName := "sent_webhook_count"

def webhooks : Notifiers := Notifiers.config cpython [webhook]

theorem webhooks_shipped : webhooks.Shipped := by
  intro key notifier hlookup
  have hfind : webhooks.find? (.str key) = some notifier := hlookup
  rw [webhooks, Notifiers.find?_config] at hfind
  have hmem := (List.mem_filter.mp (List.mem_of_getLast? hfind)).1
  rw [List.mem_singleton.mp hmem]
  decide

/-- The defaults, with keystone. -/
def plugins : PluginConf cpython where
  rendering := cpythonText
  urllib := cpythonUrls
  asString := fun msg => .ok msg.text
  keystone :=
    { authUrl := "http://127.0.0.1/identity/v3", username := "admin", password := "password"
      projectName := "admin", userDomainName := "default", projectDomainName := "default"
      authRequired := true }
  webhook := { timeout := 5 }
  pagerduty :=
    { timeout := 5
      url := "https://events.pagerduty.com/generic/2010-04-15/create_event.json" }
  hipchat := { timeout := 5, insecure := true, caCerts := none, proxy := none }
  slack :=
    { timeout := 5, insecure := true, caCerts := none, proxy := none, messageTemplate := none }
  jira := { user := "monasca", password := none, proxy := none }
  jiraFormat := none
  email :=
    { fromAddr := some "monasca@example.com", grafanaUrl := none, server := some "mail", port := 25
      timeout := 60, user := none, password := none }

/-- The one method is a webhook, and alarm `1` is raised. -/
def webhookStore : Store where
  notifications := fun alarm =>
    (store.notifications alarm).map fun row => { row with type := "webhook" }
  method := fun id => (store.method id).map fun m => { m with type := "webhook" }
  alarmState := fun id => if id = .str "1" then some "ALARM" else none
  ids_nodup := fun alarm => by
    rw [List.map_map]
    exact store.ids_nodup alarm

/-- Keystone gives a token, and the receiver of a webhook accepts. -/
def receiving : (e : WebEffect) → Unit → e.Answer × Unit
  | .loadSession _, w => (.ok (), w)
  | .getToken, w => (.ok (some "token"), w)
  | .post _, w => (.ok { statusCode := 200 }, w)

/-- A mail server that is down. -/
def unreachable : (e : EmailNotifier.MailCall) → Unit → e.Answer × Unit
  | .smtp, w => ((none : Option Nat), w)
  | .setSmtp _, w => ((), w)
  | .connect _ _ _, w => (.error (.python .osError), w)
  | .login _ _ _, w => (.error (.python .osError), w)
  | .sendmail _ _ _ _, w => (.error .serverDisconnected, w)

/-- A Jira that is down. -/
def jiraDown : (e : JiraNotifier.JiraCall) → Unit → e.Answer × Unit
  | .connect _ _ _, w => (.error .osError, w)
  | .searchIssues _, w => (.error .osError, w)
  | .createIssue _, w => (.error .osError, w)
  | .transitions _, w => (.error .osError, w)
  | .transitionIssue _ _, w => (.error .osError, w)
  | .addComment _ _, w => (.error .osError, w)

/-- A call of each plugin: what it leaves, and how it ends. -/
def contactsOf (n : Notification cpython) : Plugin → List Contact × Except PyExn Bool
  | .webhook =>
    let q := WebhookNotifier.sendNotification plugins.keystone plugins.webhook n
    ((q.trace receiving ()).map .web, (q.run receiving ()).1)
  | .pagerduty =>
    let q := PagerdutyNotifier.sendNotification plugins.pagerduty n
    ((q.trace receiving ()).map .web, (q.run receiving ()).1)
  | .hipchat =>
    let q := HipChatNotifier.sendNotification plugins.rendering plugins.urllib plugins.hipchat n
    ((q.trace (fun _ w => (.error .osError, w)) ()).map .hipchat,
      (q.run (fun _ w => (.error .osError, w)) ()).1)
  | .slack =>
    let q := SlackNotifier.sendNotification plugins.rendering plugins.urllib plugins.slack [] n
    ((q.trace (fun _ w => (.error .osError, w)) ()).map .slack,
      ((q.run (fun _ w => (.error .osError, w)) ()).1).map Prod.fst)
  | .jira =>
    let q := JiraNotifier.sendNotification plugins.jira plugins.jiraFormat plugins.rendering
      plugins.urllib n
    ((withEarlier (q.trace jiraDown ())).map fun entry => .jira entry.1 entry.2,
      (q.run jiraDown ()).1)
  | .email =>
    let q := EmailNotifier.sendNotification plugins.rendering plugins.asString plugins.email "" n
    ((q.trace unreachable ()).map .mail,
      ((q.run unreachable ()).1).mapError EmailNotifier.MailExn.toPyExn)

theorem calls_contactsOf (n : Notification cpython) (p : Plugin) :
    p.Calls plugins n (contactsOf n p).1 (contactsOf n p).2 := by
  cases p with
  | webhook => exact .webhook (runs_trace _ _ _)
  | pagerduty => exact .pagerduty (runs_trace _ _ _)
  | hipchat => exact .hipchat (runs_trace _ _ _)
  | slack => exact .slack (runs_trace _ _ _)
  | jira => exact .jira (runs_trace _ _ _)
  | email => exact .email (runs_trace _ _ _)

/-- The world around one process, down to the contacts. -/
def contactSem : (e : Effect cpython) → Store × List (Notifier × Contact) →
    e.Answer × (Store × List (Notifier × Contact))
  | .sendNotification notifier n, w =>
    match Plugin.ofType? notifier.type with
    | some p =>
      ((contactsOf n p).2.map Json.bool, (w.1, w.2 ++ (contactsOf n p).1.map (notifier, ·)))
    | none => (.ok (.bool false), w)
  | e, w => (w.1.reply 0 (.ok (.bool false)) e, w)

/-- The deployment, over the contacts of its plugin. -/
abbrev webhookNetwork := contacting (following cpython) conf webhooks False plugins

theorem answer_contactSem (w : Store × List (Notifier × Contact)) (e : Effect cpython) :
    webhookNetwork.answer w e (contactSem e w).1 (contactSem e w).2 := by
  cases e with
  | sendNotification notifier n =>
    simp only [contactSem]
    split
    · next p hp =>
      refine ⟨⟨rfl, trivial⟩, _, ?_, rfl⟩
      simp only [contacts, hp]
      exact ⟨_, _, calls_contactsOf n p, rfl, rfl⟩
    · next hp =>
      refine ⟨⟨rfl, trivial⟩, [], ?_, (List.append_nil _).symm⟩
      simp only [contacts, hp]
  | _ =>
    exact ⟨⟨rfl, w.1.answers_reply 0 (.ok (.bool false)) _⟩, [], rfl, (List.append_nil _).symm⟩

/-- A transition of alarm `1`, with the description that the plugin reads. -/
def described : Json := .obj
  [("tenantId", .str "0"), ("alarmId", .str "1"), ("alarmDefinitionId", .str "2"),
   ("alarmName", .str "test Alarm"), ("alarmDescription", .str "cpu is high"),
   ("oldState", .str "OK"), ("newState", .str "ALARM"),
   ("stateChangeReason", .str "I am alarming!"), ("severity", .str "LOW"), ("link", .str ""),
   ("lifecycleState", .str "OPEN"), ("timestamp", .int 0), ("actionsEnabled", .int 1),
   ("metrics", .arr [])]

/-- The store after the first alarm. -/
def announcedStore : Store :=
  { webhookStore with
    alarmState := fun id => if id = .str "1" then some "ALARM" else webhookStore.alarmState id }

/-- The first alarm is published. -/
def announced : ContactingState (following cpython) conf :=
  { (initial (webhookStore, []) : ContactingState (following cpython) conf) with
    world := (announcedStore, [])
    log := deliver (fun _ => []) [(.alarm, transitionMessage described)] }

theorem reachable_announced : Reachable webhookNetwork announced := by
  have hid : described.getItem "alarmId" = .ok (.str "1") := by decide +kernel
  have hstate : described.getItem "newState" = .ok (.str "ALARM") := by decide +kernel
  have hstart : Reachable webhookNetwork (initial (webhookStore, [])) := .init ⟨trivial, rfl⟩
  have henv : webhookNetwork.env (webhookStore, [])
      [(.alarm, transitionMessage described)] (announcedStore, []) :=
    ⟨⟨_, rfl, _, _, _, rfl, hid, hstate, rfl⟩, [], Or.inl rfl, rfl⟩
  exact hstart.step (.env henv)

/-- The loop body for the first alarm. -/
def announcedBody : Py cpython Unit :=
  Engine.body cpython webhooks (.notification : Engine conf) 0 (transitionMessage described)

/-- The `NotificationEngine` has handled the first alarm. -/
def posted : ContactingState (following cpython) conf :=
  webhookNetwork.after announced .notification 0 (transitionMessage described) []
    (announcedBody.trace contactSem announced.world)
    (announcedBody.run contactSem announced.world).2

theorem reachable_posted : Reachable webhookNetwork posted := by
  have hok : (announcedBody.run contactSem announced.world).1 = .ok () := by decide +kernel
  have hrun := runs_trace_of_eq hok
  exact reachable_announced.run_body rfl rfl hrun (Answers.trace answer_contactSem _ _)

end Deployment

open Deployment in
/-- The webhook of the first alarm was taken. -/
theorem accepted_are_taken_webhook : (taken posted).length = 1 ∧
    ∃ found, List.Forall₂ (Hands plugins)
        (posted.history.filterMap fun x => acceptedCall plugins x.2) found ∧
      found.Sublist (taken posted) ∧ (¬ False → found = taken posted) :=
  ⟨by decide +kernel, accepted_are_taken reachable_posted⟩

open Deployment in
/-- It is recorded. -/
theorem recorded_are_taken_webhook : ∃ m ∈ posted.log .notification,
    ∃ (n : Notification cpython) (notifier : Notifier), m = .dumps n.toJson ∧
      webhooks.find? n.type = some notifier ∧
      ∀ p, Plugin.ofType? notifier.type = some p → p.hasMessage plugins n = true →
        ∃ c, (notifier, c) ∈ taken posted ∧ p.Delivers plugins n c := by
  have hlength : (posted.log .notification).length = 1 := by decide +kernel
  obtain ⟨m, hm⟩ := List.exists_mem_of_length_pos (hlength ▸ Nat.one_pos)
  exact ⟨m, hm, recorded_are_taken reachable_posted hm⟩

open Deployment in
/-- Once. -/
theorem length_taken_webhook : (taken posted).length =
    (posted.log .notification).length + periodicAccepted posted.history := by
  obtain ⟨hlength, hsilent⟩ := length_taken webhooks_shipped reachable_posted (n := 1) (k := 0)
    rfl rfl
  rwa [hsilent rfl] at hlength

open Deployment in
/-- With its token. -/
theorem webhooks_carry_tokens_webhook :
    posted.world.2.length = 3 ∧ Tokened plugins posted.world.2 :=
  ⟨by decide +kernel, webhooks_carry_tokens rfl reachable_posted⟩

end MonascaNotification
