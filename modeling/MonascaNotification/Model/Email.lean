import MonascaNotification.Infra.Triple
import MonascaNotification.Model.Plugins

/-!
# `plugins/email_notifier.py`

`EmailNotifier.send_notification` as a program over the calls of `smtplib`. The connection is an
attribute of the notifier and outlives the call: it is read and stored by effects of their own,
so that it stays stored also when a call raises.
-/

namespace MonascaNotification.EmailNotifier

open Infra

/-! ## `smtplib` -/

/-- The options of the group `email_notifier`. -/
structure Conf extends EmailConf where
  server : Option String
  port : Nat
  timeout : Nat
  user : Option String
  password : Option String

/-- What a call raises, as far as the handlers tell it apart. -/
inductive MailExn where
  | serverDisconnected
  /-- Any other `SMTPException`. -/
  | smtpException (name : String)
  | python (x : PyExn)
  deriving DecidableEq

/-- `except smtplib.SMTPException`, of which `SMTPServerDisconnected` is one. -/
def MailExn.isSmtpException : MailExn → Bool
  | .serverDisconnected => true
  | .smtpException _ => true
  | .python _ => false

/-- The calls, and the accesses to `self._smtp`. Connections are numbered as they are opened. -/
inductive MailCall where
  | smtp
  | setSmtp (smtp : Nat)
  | connect (server : Option String) (port timeout : Nat)
  | login (smtp : Nat) (user password : String)
  | sendmail (smtp : Nat) (fromAddr : Option String) (toAddr : Json) (text : String)
  deriving DecidableEq

@[reducible] def MailCall.Answer : MailCall → Type
  | .smtp => Option Nat
  | .setSmtp _ => Unit
  | .connect _ _ _ => Except MailExn Nat
  | .login _ _ _ => Except MailExn Unit
  | .sendmail _ _ _ _ => Except MailExn Unit

abbrev Mailing (α : Type) := Prog MailCall MailCall.Answer MailExn α

abbrev MailTrace := Trace MailCall MailCall.Answer

def smtp : Mailing (Option Nat) :=
  .perform .smtp fun (answer : Option Nat) => .ret answer

def setSmtp (smtp : Nat) : Mailing Unit := .perform (.setSmtp smtp) fun _ => .ret ()

/-- `smtplib.SMTP(server, port, timeout=timeout)` -/
def connect (conf : Conf) : Mailing Nat :=
  .perform (.connect conf.server conf.port conf.timeout) fun (answer : Except MailExn Nat) =>
    .ofExcept answer

def login (smtp : Nat) (user password : String) : Mailing Unit :=
  .perform (.login smtp user password) fun (answer : Except MailExn Unit) => .ofExcept answer

/-- A step that has nothing to do with the server. -/
def python {α : Type} (y : Except PyExn α) : Mailing α := .ofExcept (y.mapError .python)

/-! ## The connection -/

/-- `user and password`, when both are given and not empty. -/
def Conf.credentials (conf : Conf) : Option (String × String) :=
  match conf.user, conf.password with
  | some user, some password => if user = "" ∨ password = "" then none else some (user, password)
  | _, _ => none

/-- The login of `_smtp_connect`, if there is a user to log in. -/
def authenticate (conf : Conf) (smtp : Nat) : Mailing Unit :=
  match conf.credentials with
  | some (user, password) => login smtp user password
  | none => return ()

/-- `EmailNotifier._smtp_connect`. -/
def smtpConnect (conf : Conf) : Mailing Bool :=
  Prog.tryCatch
    (do
      let smtp ← connect conf
      authenticate conf smtp
      setSmtp smtp
      return true)
    (fun _ => return false)

/-- `EmailNotifier.config`. -/
def config (conf : Conf) : Mailing Unit := do
  let _ ← smtpConnect conf
  return ()

/-- `self._smtp or self._smtp_connect()` -/
def ready (conf : Conf) : Mailing Bool := do
  match ← smtp with
  | some _ => return true
  | none => smtpConnect conf

/-! ## `send_notification` -/

section

variable {P : Platform} (R : Rendering) (asString : EmailMessage → Except PyExn String)
  (conf : Conf)

/-- `EmailNotifier._sendmail`. `asString` is `msg.as_string()`. -/
def sendmail (n : Notification P) (msg : EmailMessage) : Mailing Unit := do
  match ← smtp with
  | none => throw (.python .attributeError)
  | some smtp =>
    let text ← python (asString msg)
    .perform (.sendmail smtp conf.fromAddr n.address text) fun (answer : Except MailExn Unit) =>
      .ofExcept answer

/-- The first `try`: the result, or none after the connection was lost. -/
def firstTry (n : Notification P) (msg : EmailMessage) : Mailing (Option Bool) :=
  Prog.tryCatch
    (do
      sendmail asString conf n msg
      return some true)
    (fun x =>
      match x with
      | .serverDisconnected => do
        -- whether this connects makes no difference
        let _ ← smtpConnect conf
        return none
      | .smtpException _ => return some false
      | .python y => throw (.python y))

/-- The second `try`. -/
def secondTry (n : Notification P) (msg : EmailMessage) : Mailing Bool :=
  Prog.tryCatch
    (do
      sendmail asString conf n msg
      return true)
    (fun x => if x.isSmtpException then return false else throw x)

/-- `EmailNotifier.send_notification`, at the date that `formatdate` gives. -/
def sendNotification (date : String) (n : Notification P) : Mailing Bool := do
  let msg ← python (message R conf.toEmailConf date n)
  if ← ready conf then
    match ← firstTry asString conf n msg with
    | some result => return result
    | none => secondTry asString conf n msg
  else
    return false

end

/-! ## The notifier and its connections -/

/-- `self._smtp`, and how many connections were opened so far. -/
structure Mailer where
  smtp : Option Nat
  opened : Nat

/-- Accesses see the attribute, and a connection is new. Everything else is up to the server. -/
def answering : Answering Mailer MailCall MailCall.Answer
  | w, .smtp, (answer : Option Nat), w' => answer = w.smtp ∧ w' = w
  | w, .setSmtp smtp, _, w' => w' = { w with smtp := some smtp }
  | w, .connect _ _ _, (answer : Except MailExn Nat), w' =>
    match answer with
    | .ok smtp => smtp = w.opened ∧ w' = { w with opened := w.opened + 1 }
    | .error _ => w' = w
  | w, .login _ _ _, _, w' => w' = w
  | w, .sendmail _ _ _ _, _, w' => w' = w

/-- The states that a notifier can be in, after any calls with any outcomes. -/
inductive Reached {P : Platform} (R : Rendering) (asString : EmailMessage → Except PyExn String)
    (conf : Conf) : Mailer → Prop where
  | init : Reached R asString conf ⟨none, 0⟩
  | config {w w' : Mailer} {tr : MailTrace} {out : Except MailExn Unit} :
      Reached R asString conf w → Prog.Runs (config conf) tr out → Walk answering w tr w' →
      Reached R asString conf w'
  | send {w w' : Mailer} {tr : MailTrace} {out : Except MailExn Bool} {date : String}
      {n : Notification P} : Reached R asString conf w →
      Prog.Runs (sendNotification R asString conf date n) tr out → Walk answering w tr w' →
      Reached R asString conf w'

end MonascaNotification.EmailNotifier
