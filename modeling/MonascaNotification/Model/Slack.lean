import MonascaNotification.Infra.Prog
import MonascaNotification.Model.Plugins
import MonascaNotification.Python.Url

/-!
# `plugins/slack_notifier.py`

`SlackNotifier.send_notification` as a program over its posts. The cache is an attribute of the
class, so that all instances in the process have the same one: it goes in as an argument, and
comes out with the result.
-/

namespace MonascaNotification.SlackNotifier

open Infra

/-! ## Posts -/

/-- The options of the group `slack_notifier`. -/
structure Conf where
  timeout : Nat
  insecure : Bool
  caCerts : Option String
  proxy : Option String
  /-- What `jinja2` makes of the body with the configured template, if there is one. -/
  messageTemplate : Option (Json → Except PyExn String)

/-- `verify`: the file of the certificates, or whether to check at all. -/
inductive Verify where
  | certs (path : String)
  | flag (check : Bool)

/-- `CONF.slack_notifier.ca_certs or not CONF.slack_notifier.insecure` -/
def Conf.verify (conf : Conf) : Verify :=
  match conf.caCerts with
  | some path => if path = "" then .flag !conf.insecure else .certs path
  | none => .flag !conf.insecure

inductive DataFormat where
  | json
  | data
  deriving DecidableEq

/-- The arguments of `requests.post`. The message is under the key of the format. -/
structure RequestOptions where
  url : String
  verify : Verify
  params : QueryParams
  proxies : Option String
  format : DataFormat
  message : Json
  timeout : Nat

/-- The parts of a response that are looked at. -/
structure Response where
  statusCode : Int
  /-- `headers.get('Content-Type')` -/
  contentType : Option String
  /-- `result.json()` -/
  json : Except PyExn Json
  text : String

/-- A function that posts. A post is answered by a response, or raises. -/
abbrev Posting (α : Type) := Prog RequestOptions (fun _ => Except PyExn Response) PyExn α

abbrev PostTrace := Trace RequestOptions fun _ => Except PyExn Response

/-! ## One post -/

/-- `SlackNotifier._check_response`. -/
def checkResponse (result : Response) : Except PyExn Bool :=
  match result.contentType with
  | none => .error .typeError
  | some contentType =>
    if "application/json".toList <:+: contentType.toList then do
      match ← result.json with
      | .obj fields => return ((fields.lookup "ok").getD .null).truthy
      | _ => throw .attributeError
    else
      return decide (result.text = "ok")

/-- `SlackNotifier._send_message`. -/
def sendMessage (options : RequestOptions) : Posting Bool :=
  Prog.tryCatch
    (do
      let result ← .perform options .ofExcept
      if ¬(200 ≤ result.statusCode ∧ result.statusCode < 300) then
        return false
      -- Slack returns 200 also if the token is invalid
      if ← .ofExcept (checkResponse result) then
        return true
      return false)
    (fun _ => return false)

/-! ## `send_notification` -/

/-- `MAX_CACHE_SIZE` -/
def maxCacheSize : Nat := 100

/-- `address.replace('#', '%23')` -/
def replaceHash (address : Json) : Except PyExn String :=
  match address with
  | .str s =>
    .ok (String.ofList (s.toList.flatMap fun c => if c = '#' then ['%', '2', '3'] else [c]))
  | _ => .error .attributeError

/-- The loop over `data_format_list`. -/
def tryFormats (options : DataFormat → RequestOptions) (cache : List String) :
    List DataFormat → Posting (Bool × List String)
  | [] => return (false, cache)
  | dataFormat :: rest => do
    let url := (options dataFormat).url
    if ← sendMessage (options dataFormat) then
      if dataFormat = .data ∧ url ∉ cache ∧ cache.length < maxCacheSize then
        return (true, cache ++ [url])
      return (true, cache)
    tryFormats options cache rest

/-- The whole of `_build_slack_message`, with its branch for a template. -/
def buildMessage {P : Platform} (R : Rendering) (conf : Conf) (n : Notification P) :
    Except PyExn Json :=
  match conf.messageTemplate with
  | none => buildSlackMessage R n
  | some render => do
    let body ← alarmBody n
    let text ← render body
    return .obj [("text", .str text)]

/-- `SlackNotifier.send_notification`, with the cache before and after it. -/
def sendNotification {P : Platform} (R : Rendering) (U : Urllib) (conf : Conf)
    (cache : List String) (n : Notification P) : Posting (Bool × List String) := do
  let slackMessage ← .ofExcept (buildMessage R conf n)
  let address ← .ofExcept (replaceHash n.address)
  let query ← .ofExcept (U.query address)
  let queryParams := U.parseQs query
  let url ← .ofExcept (U.withoutQuery address)
  let dataFormatList := if url ∈ cache then [.data] else [.json, .data]
  let options := fun dataFormat =>
    { url, verify := conf.verify, params := queryParams, proxies := conf.proxy
      format := dataFormat, message := slackMessage, timeout := conf.timeout : RequestOptions }
  tryFormats options cache dataFormatList

end MonascaNotification.SlackNotifier
