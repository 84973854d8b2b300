import MonascaNotification.Infra.Layered
import MonascaNotification.Infra.Receipt
import MonascaNotification.Model.Email
import MonascaNotification.Model.Jira
import MonascaNotification.Model.Slack
import MonascaNotification.Model.System
import MonascaNotification.Model.Web

/-!
# The plugins under the engines

A call of a plugin is one effect of an engine. `contacts` is the level below the engines, where a
call is the program of its plugin: it posts, talks to Jira or to a mail server.

Two plugins keep something from one call to the next, Slack its cache and the e-mail plugin its
connection. A call may start here with any of these, and at any date.
-/

namespace MonascaNotification

open Infra

/-! ## What a call leaves -/

/-- An event of the program of a plugin. -/
inductive Contact where
  | web (ev : WebEvent)
  | hipchat (ev : Event HipChatNotifier.RequestOptions
      fun _ => Except PyExn HipChatNotifier.Response)
  | slack (ev : Event SlackNotifier.RequestOptions fun _ => Except PyExn SlackNotifier.Response)
  /-- With the calls before it that are part of the same send. -/
  | jira (earlier : JiraNotifier.JiraTrace)
    (ev : Event JiraNotifier.JiraCall JiraNotifier.JiraCall.Answer)
  | mail (ev : Event EmailNotifier.MailCall EmailNotifier.MailCall.Answer)

/-- What the plugins are configured with, and what they use of the standard library. -/
structure PluginConf (P : Platform) where
  rendering : Rendering
  urllib : Urllib
  /-- `msg.as_string()` -/
  asString : EmailMessage → Except PyExn String
  keystone : KeystoneConf
  webhook : WebhookNotifier.Conf
  pagerduty : PagerdutyNotifier.Conf
  hipchat : HipChatNotifier.Conf
  slack : SlackNotifier.Conf
  jira : JiraNotifier.Conf
  jiraFormat : Option (JiraNotifier.CustomFormat P)
  email : EmailNotifier.Conf

/-- An exception of `smtplib` to the outside, where it is an `OSError`. -/
def EmailNotifier.MailExn.toPyExn : MailExn → PyExn
  | .python x => x
  | _ => .osError

namespace Plugin

/-- The attribute `type` of the class. -/
def type : Plugin → String
  | .slack => "slack"
  | .hipchat => "hipchat"
  | .webhook => "webhook"
  | .jira => "jira"
  | .pagerduty => "pagerduty"
  | .email => "email"

/-- The plugin of a type. A class of another package is taken to have a type of its own. -/
def ofType? (type : String) : Option Plugin :=
  [slack, hipchat, webhook, jira, pagerduty, email].find? fun p => decide (p.type = type)

/-- The calls of `send_notification` of each class, with what they leave and how they end. -/
inductive Calls {P : Platform} (conf : PluginConf P) (n : Notification P) :
    Plugin → List Contact → Except PyExn Bool → Prop where
  | webhook {tr out} :
      Prog.Runs (WebhookNotifier.sendNotification conf.keystone conf.webhook n) tr out →
      Calls conf n .webhook (tr.map .web) out
  | pagerduty {tr out} : Prog.Runs (PagerdutyNotifier.sendNotification conf.pagerduty n) tr out →
      Calls conf n .pagerduty (tr.map .web) out
  | hipchat {tr out} :
      Prog.Runs (HipChatNotifier.sendNotification conf.rendering conf.urllib conf.hipchat n) tr
        out →
      Calls conf n .hipchat (tr.map .hipchat) out
  | slack {cache tr out} :
      Prog.Runs (SlackNotifier.sendNotification conf.rendering conf.urllib conf.slack cache n) tr
        out →
      Calls conf n .slack (tr.map .slack) (out.map Prod.fst)
  | jira {tr out} :
      Prog.Runs (JiraNotifier.sendNotification conf.jira conf.jiraFormat conf.rendering conf.urllib
        n) tr out →
      Calls conf n .jira ((withEarlier tr).map fun entry => .jira entry.1 entry.2) out
  | email {date tr out} :
      Prog.Runs (EmailNotifier.sendNotification conf.rendering conf.asString conf.email date n) tr
        out →
      Calls conf n .email (tr.map .mail) (out.mapError EmailNotifier.MailExn.toPyExn)

end Plugin

/-! ## The level below the engines -/

/--
What a call leaves is recorded with its notifier. A plugin of another type leaves nothing that is
seen here, as do the other effects. When a process stops in the middle of a call, a beginning of
what the call would have left is there.
-/
def contacts (P : Platform) (conf : PluginConf P) :
    Layer (Effect P) Effect.Answer (Notifier × Contact) where
  low
    | .sendNotification notifier n, answer, xs =>
      match Plugin.ofType? notifier.type with
      | some p => ∃ cs out, p.Calls conf n cs out ∧ answer = out.map Json.bool ∧
          xs = cs.map (notifier, ·)
      | none => xs = []
    | _, _, xs => xs = []
  cut xs := ∃ (notifier : Notifier) (n : Notification P) (p : Plugin) (cs : List Contact)
    (out : Except PyExn Bool), Plugin.ofType? notifier.type = some p ∧ p.Calls conf n cs out ∧
      xs <+: cs.map (notifier, ·)

end MonascaNotification
