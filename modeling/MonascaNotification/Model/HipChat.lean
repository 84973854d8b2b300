import MonascaNotification.Model.Slack

/-!
# `plugins/hipchat_notifier.py`

`HipChatNotifier.send_notification` as a program over its post. Only the post stands inside the
`try`: what is computed before it may raise.
-/

namespace MonascaNotification.HipChatNotifier

open Infra
open SlackNotifier (Verify)

/-- The options of the group `hipchat_notifier`. -/
structure Conf where
  timeout : Nat
  insecure : Bool
  caCerts : Option String
  proxy : Option String

/-- If `ca_certs` is specified, the insecure flag is ignored. -/
def Conf.verify (conf : Conf) : Verify :=
  match conf.caCerts with
  | some path => .certs path
  | none => .flag !conf.insecure

/-- The arguments of `requests.post`. -/
structure RequestOptions where
  url : String
  data : Json
  verify : Verify
  params : QueryParams
  proxies : Option String
  timeout : Nat

/-- The part of a response that is looked at, apart from the log. -/
structure Response where
  statusCode : Int

/-- A function that posts. A post is answered by a response, or raises. -/
abbrev Posting (α : Type) := Prog RequestOptions (fun _ => Except PyExn Response) PyExn α

abbrev PostTrace := Trace RequestOptions fun _ => Except PyExn Response

/-- `HipChatNotifier.send_notification`. -/
def sendNotification {P : Platform} (R : Rendering) (U : Urllib) (conf : Conf)
    (n : Notification P) : Posting Bool := do
  let hipchatMessage ← .ofExcept (buildHipchatMessage R n)
  let address ← .ofExcept (addressText n.address)
  let query ← .ofExcept (U.query address)
  let queryParams := U.parseQs query
  let url ← .ofExcept (U.withoutQuery address)
  let options : RequestOptions :=
    { url, data := hipchatMessage, verify := conf.verify, params := queryParams
      proxies := conf.proxy, timeout := conf.timeout }
  Prog.tryCatch
    (do
      let result ← .perform options .ofExcept
      return decide (200 ≤ result.statusCode ∧ result.statusCode < 300))
    (fun _ => return false)

end MonascaNotification.HipChatNotifier
