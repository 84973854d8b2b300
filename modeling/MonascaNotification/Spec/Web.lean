import MonascaNotification.Infra.Except
import MonascaNotification.Infra.Receipt
import MonascaNotification.Model.Web

/-!
# One call of the webhook plugin, or of PagerDuty

Both end with one post, and return whether its status was one that is taken for success. Where
keystone is configured, the webhook plugin has asked it for a token before, and posts with it.
-/

namespace MonascaNotification

open Infra Prog

variable {P : Platform} {n : Notification P} {tr : Trace WebEffect WebEffect.Answer}
  {accepted : WebEvent → Bool} {Q : WebEvent → Prop}

/-- What a plugin returns after its post. -/
def outcome (success : Int → Bool) : Except PyExn HipChatNotifier.Response → Bool
  | .ok result => success result.statusCode
  | .error _ => false

theorem postOnce_eq (arguments : PostArguments) (success : Int → Bool) :
    postOnce arguments success =
      .perform (.post arguments) fun answer => .ret (outcome success answer) := by
  show Prog.perform _ _ = _
  congr 1
  funext answer
  cases answer <;> rfl

theorem reports_postOnce {arguments : PostArguments} {success : Int → Bool}
    (haccepted : ∀ answer, accepted ⟨.post arguments, answer⟩ = outcome success answer)
    (hQ : ∀ answer, Q ⟨.post arguments, answer⟩) :
    Reports accepted Q id (postOnce arguments success) := by
  rw [postOnce_eq]
  refine .perform (fun answer h => ⟨hQ answer, _, rfl, ?_⟩) fun answer h => reports_ret ?_
  · rwa [haccepted] at h
  · rwa [haccepted] at h

/-! ## The token -/

/-- What comes before the post is not accepted by a receiver. -/
theorem uses_getAuthToken (keystone : KeystoneConf) :
    Uses (fun e => e.isPost = false) (getAuthToken keystone) :=
  uses_tryCatch (uses_bind ⟨rfl, fun _ => uses_ofExcept⟩ fun _ => ⟨rfl, fun _ => uses_ofExcept⟩)
    fun _ => uses_raise

/-- A token is the answer of keystone, in the session that was just loaded. -/
theorem runs_getAuthToken_ok {keystone : KeystoneConf} {token : Option String}
    (h : Runs (getAuthToken keystone) tr (.ok token)) :
    tr = [⟨.loadSession keystone.toAuthDetails, .ok ()⟩, ⟨.getToken, .ok token⟩] := by
  obtain ⟨session, tr', rfl, h⟩ := h
  cases session with
  | error x => cases h.2
  | ok session =>
    obtain ⟨answer, tr'', rfl, h⟩ := h
    cases answer with
    | error x => cases h.2
    | ok token' =>
      obtain ⟨rfl, htoken⟩ := h
      cases htoken
      rfl

namespace WebhookNotifier

variable {keystone : KeystoneConf} {conf : Conf}

theorem reports_sendNotification
    (haccepted : ∀ arguments answer, accepted ⟨.post arguments, answer⟩ = outcome inRange answer)
    (hsilent : ∀ e : WebEffect, e.isPost = false → ∀ r, accepted ⟨e, r⟩ = false)
    (hQ : ∀ arguments answer, arguments.url = n.address → body n = .ok arguments.data →
      Q ⟨.post arguments, answer⟩) :
    Reports accepted Q id (sendNotification keystone conf n) := by
  refine .ofExcept_bind fun document hbody => ?_
  have hpost : ∀ headers, Reports accepted Q id (postOnce
      { url := n.address, data := document, headers, timeout := conf.timeout } inRange) :=
    fun headers => reports_postOnce (fun _ => haccepted _ _) fun _ => hQ _ _ rfl hbody
  dsimp only
  split
  · exact .after ((uses_getAuthToken keystone).mono hsilent) fun token => hpost _
  · exact hpost _

/-- With keystone, a call posts at its end, right after it was given the token. -/
theorem runs_sendNotification (hauth : keystone.authRequired = true) {out : Except PyExn Bool}
    (h : Runs (sendNotification keystone conf n) tr out) :
    (∀ ev ∈ tr, ev.1.isPost = false) ∨ ∃ token arguments answer,
      tr = [⟨.loadSession keystone.toAuthDetails, .ok ()⟩, ⟨.getToken, .ok token⟩,
        ⟨.post arguments, answer⟩] ∧ tokenHeader token ∈ arguments.headers := by
  replace h := runs_ofExcept_bind.mp h
  rcases h with ⟨x, -, rfl, rfl⟩ | ⟨document, -, h⟩
  · exact Or.inl (by simp)
  dsimp only at h
  rw [if_pos hauth] at h
  replace h := runs_bind.mp h
  rcases h with ⟨x, rfl, h⟩ | ⟨tr₁, tr₂, token, rfl, htoken, h⟩
  · exact Or.inl ((uses_getAuthToken keystone).runs h)
  · rw [pure_eq, bind_eq, bind_ret, postOnce_eq] at h
    obtain ⟨answer, _, rfl, rfl, rfl⟩ := h
    rw [runs_getAuthToken_ok htoken]
    exact Or.inr ⟨token, _, answer, rfl, List.mem_cons_of_mem _ List.mem_cons_self⟩

end WebhookNotifier

namespace PagerdutyNotifier

theorem reports_sendNotification {conf : Conf}
    (haccepted : ∀ arguments answer, accepted ⟨.post arguments, answer⟩ = outcome isValid answer)
    (hQ : ∀ arguments answer, arguments.url = .str conf.url → body n = .ok arguments.data →
      Q ⟨.post arguments, answer⟩) :
    Reports accepted Q id (sendNotification conf n) :=
  .ofExcept_bind fun _ hbody =>
    reports_postOnce (fun _ => haccepted _ _) fun _ => hQ _ _ rfl hbody

end PagerdutyNotifier

end MonascaNotification
