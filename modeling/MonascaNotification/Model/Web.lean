import MonascaNotification.Model.HipChat

/-!
# The webhook and PagerDuty plugins

`plugins/webhook_notifier.py`, with the token from `common/utils.py`, and
`plugins/pagerduty_notifier.py` as programs over `requests` and keystone.
-/

namespace MonascaNotification

open Infra

/-! ## Requests -/

/-- The arguments of `requests.post`. The data is what `json.dumps` writes of a document. -/
structure PostArguments where
  url : Json
  data : Json
  headers : List (String × Json)
  timeout : Nat

/-- What `get_keystone_session` hands to the loader. -/
structure AuthDetails where
  authUrl : String
  username : String
  password : String
  projectName : String
  userDomainName : String
  projectDomainName : String
  deriving DecidableEq

/-- What the plugins do outside their own memory. -/
inductive WebEffect where
  | loadSession (authDetails : AuthDetails)
  | getToken
  | post (arguments : PostArguments)

namespace WebEffect

@[reducible] def Answer : WebEffect → Type
  | .loadSession _ => Except PyExn Unit
  | .getToken => Except PyExn (Option String)
  | .post _ => Except PyExn HipChatNotifier.Response

def isPost : WebEffect → Bool
  | .post _ => true
  | _ => false

end WebEffect

/-- A function of these plugins. -/
abbrev Web (α : Type) := Prog WebEffect WebEffect.Answer PyExn α

abbrev WebEvent := Event WebEffect WebEffect.Answer

/-! ## `common/utils.py` -/

/-- The group `keystone`. -/
structure KeystoneConf extends AuthDetails where
  authRequired : Bool

/-- `get_keystone_session`. The session is kept by the library. -/
def getKeystoneSession (keystone : KeystoneConf) : Web Unit :=
  .perform (.loadSession keystone.toAuthDetails) .ofExcept

/-- `get_auth_token`. Both handlers log the exception and raise it again. -/
def getAuthToken (keystone : KeystoneConf) : Web (Option String) :=
  Prog.tryCatch
    (do
      getKeystoneSession keystone
      .perform .getToken .ofExcept)
    .raise

/-! ## The plugins -/

/--
The `try` that ends `send_notification`: a post, and whether its status is taken for success. An
exception is logged and counts as `False`.
-/
def postOnce (arguments : PostArguments) (success : Int → Bool) : Web Bool :=
  Prog.tryCatch
    (do
      let result : HipChatNotifier.Response ← .perform (.post arguments) .ofExcept
      return success result.statusCode)
    (fun _ => return false)

/-- `status_code in range(200, 300)` -/
def inRange (statusCode : Int) : Bool := decide (200 ≤ statusCode ∧ statusCode < 300)

variable {P : Platform}

namespace WebhookNotifier

/-- The options of the group `webhook_notifier`. -/
structure Conf where
  timeout : Nat

def contentType : String × Json := ("content-type", .str "application/json")

/-- The value of a header, which is left out when there is no token. -/
def tokenHeader (authToken : Option String) : String × Json :=
  ("X-Auth-Token", authToken.elim .null .str)

/-- `WebhookNotifier.send_notification`. -/
def sendNotification (keystone : KeystoneConf) (conf : Conf) (n : Notification P) : Web Bool := do
  let body ← .ofExcept (body n)
  let headers ←
    if keystone.authRequired then do
      let authToken ← getAuthToken keystone
      pure [contentType, tokenHeader authToken]
    else
      pure [contentType]
  postOnce { url := n.address, data := body, headers, timeout := conf.timeout } inRange

end WebhookNotifier

namespace PagerdutyNotifier

/-- The options of the group `pagerduty_notifier`. -/
structure Conf where
  timeout : Nat
  url : String

/-- `VALID_HTTP_CODES` -/
def validHttpCodes : List Int := [200, 201, 204]

/-- `status_code in VALID_HTTP_CODES` -/
def isValid (statusCode : Int) : Bool := decide (statusCode ∈ validHttpCodes)

/-- `PagerdutyNotifier.send_notification`. -/
def sendNotification (conf : Conf) (n : Notification P) : Web Bool := do
  let body ← .ofExcept (body n)
  postOnce
    { url := .str conf.url, data := body
      headers := [("content-type", .str "application/json")], timeout := conf.timeout }
    isValid

end PagerdutyNotifier

end MonascaNotification
