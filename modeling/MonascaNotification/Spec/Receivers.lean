import MonascaNotification.Model.Receivers
import MonascaNotification.Spec.Jira
import MonascaNotification.Spec.Slack
import MonascaNotification.Spec.Web

/-!
# What a call of a plugin stands for

Of the contacts of a call, `accepts` picks those that the other side took: a post with a status for
success, a post that Slack has confirmed, a comment, a mail. A call of any of the plugins returns
`True` if and only if there is one of them, and there is never another one (`Calls.receipt`). What
was taken is the message of the notification, at its address (`Delivers`). The one exception is a
custom format of Jira without comments, which has no message: the issue is found or created, and
that is all (`hasMessage`).

* `reports_sendNotification`, for each plugin
-/

namespace MonascaNotification

open Infra Prog

variable {P : Platform} {conf : PluginConf P} {n : Notification P}

/-- A comment that was added. -/
def JiraNotifier.isAdded : Event JiraCall JiraCall.Answer → Bool
  | ⟨.addComment _ _, answer⟩ => Except.isOk answer
  | _ => false

/-- The format gives comments for the notification. -/
def JiraNotifier.hasComments (format : Option (CustomFormat P)) (R : Rendering)
    (n : Notification P) : Bool :=
  match buildJiraMessage format R n with
  | .ok jiraFields => decide (jiraFields.comments.getD "" ≠ "")
  | .error _ => false

namespace Plugin

/-- There is something to hand over. A custom format of Jira can be without comments. -/
def hasMessage (conf : PluginConf P) (n : Notification P) : Plugin → Bool
  | .jira => JiraNotifier.hasComments conf.jiraFormat conf.rendering n
  | _ => true

/-- The contacts that the other side took. -/
def accepts : Plugin → Contact → Bool
  | .webhook, .web ⟨.post _, answer⟩ => outcome inRange answer
  | .pagerduty, .web ⟨.post _, answer⟩ => outcome PagerdutyNotifier.isValid answer
  | .hipchat, .hipchat ⟨_, answer⟩ => outcome inRange answer
  | .slack, .slack ⟨_, answer⟩ => SlackNotifier.delivered answer
  | .jira, .jira _ ev => JiraNotifier.isAdded ev
  | .email, .mail ⟨.sendmail _ _ _ _, answer⟩ => Except.isOk answer
  | _, _ => false

/-- A contact that hands over the notification. -/
def Delivers (conf : PluginConf P) (n : Notification P) : Plugin → Contact → Prop
  | .webhook, .web ⟨.post arguments, _⟩ =>
    arguments.url = n.address ∧ WebhookNotifier.body n = .ok arguments.data
  | .pagerduty, .web ⟨.post arguments, _⟩ =>
    arguments.url = .str conf.pagerduty.url ∧ PagerdutyNotifier.body n = .ok arguments.data
  | .hipchat, .hipchat ⟨options, _⟩ =>
    HipChatNotifier.buildHipchatMessage conf.rendering n = .ok options.data ∧
      ∃ address query, addressText n.address = .ok address ∧
        conf.urllib.query address = .ok query ∧ options.params = conf.urllib.parseQs query ∧
        conf.urllib.withoutQuery address = .ok options.url
  | .slack, .slack ⟨options, _⟩ =>
    ∃ t dataFormat, SlackNotifier.target conf.rendering conf.urllib conf.slack n = .ok t ∧
      options = t.options conf.slack dataFormat
  | .jira, .jira earlier ⟨.addComment issue body, _⟩ =>
    ∃ r found, JiraNotifier.IsRequest conf.jiraFormat conf.rendering conf.urllib n r ∧
      body = r.fields.comments ∧ JiraNotifier.Finds P conf.jira r found issue ∧
      earlier = ⟨.connect r.url (conf.jira.user, conf.jira.password) conf.jira.proxy,
        (.ok () : Except PyExn Unit)⟩ :: found
  | .email, .mail ⟨.sendmail _ fromAddr toAddr text, _⟩ =>
    fromAddr = conf.email.fromAddr ∧ toAddr = n.address ∧
      ∃ date msg, EmailNotifier.message conf.rendering conf.email.toEmailConf date n = .ok msg ∧
        conf.asString msg = .ok text
  | _, _ => False

/-- The program of a plugin, whose events are recorded through `f`, reports truly. -/
abbrev ReportsTo {E : Type} {R : E → Type} {ε α : Type} (conf : PluginConf P) (n : Notification P)
    (p : Plugin) (f : Event E R → Contact) (good : α → Bool) (q : Prog E R ε α) : Prop :=
  Reports (fun ev => p.accepts (f ev)) (fun ev => p.Delivers conf n (f ev)) good q

end Plugin

open Plugin

/-! ## Slack and HipChat -/

theorem HipChatNotifier.reports_sendNotification : ReportsTo conf n .hipchat .hipchat id
    (sendNotification conf.rendering conf.urllib conf.hipchat n) := by
  refine .ofExcept_bind fun message hmessage => ?_
  refine .ofExcept_bind fun address haddress => ?_
  refine .ofExcept_bind fun query hquery => ?_
  refine .ofExcept_bind fun url hurl => ?_
  refine .perform (fun answer haccepted => ⟨?_, ?_⟩) fun answer hrefused => ?_
  · exact ⟨hmessage, address, query, haddress, hquery, rfl, hurl⟩
  · cases answer with
    | error x => cases haccepted
    | ok result => exact ⟨_, rfl, haccepted⟩
  · cases answer with
    | error x => exact reports_ret rfl
    | ok result => exact reports_ret hrefused

/-- Of the formats, the first one that Slack confirms is the last one that is tried. -/
theorem SlackNotifier.reports_tryFormats {t : Target} {cache : List String}
    (ht : target conf.rendering conf.urllib conf.slack n = .ok t) (formats : List DataFormat) :
    ReportsTo conf n .slack .slack Prod.fst
      (tryFormats (t.options conf.slack) cache formats) := by
  induction formats with
  | nil => exact reports_ret rfl
  | cons dataFormat rest ih =>
    have hmessage : ReportsTo conf n .slack .slack id
        (sendMessage (t.options conf.slack dataFormat)) := by
      rw [sendMessage_eq]
      exact .perform (fun answer hsent => ⟨⟨t, dataFormat, ht, rfl⟩, _, rfl, hsent⟩)
        fun answer hrefused => reports_ret hrefused
    rw [tryFormats]
    refine hmessage.bind (fun sent hsent => ?_) fun sent hrefused => ?_
    · obtain rfl : sent = true := hsent
      by_cases hkeep : dataFormat = .data ∧ (t.options conf.slack dataFormat).url ∉ cache ∧
          cache.length < maxCacheSize
      · exact ⟨_, if_pos hkeep, rfl⟩
      · exact ⟨_, if_neg hkeep, rfl⟩
    · obtain rfl : sent = false := hrefused
      exact ih

theorem SlackNotifier.reports_sendNotification {cache : List String} :
    ReportsTo conf n .slack .slack Prod.fst
      (sendNotification conf.rendering conf.urllib conf.slack cache n) := by
  rw [sendNotification_eq]
  exact .ofExcept_bind fun t ht => reports_tryFormats ht _

/-! ## Jira -/

namespace JiraNotifier

theorem uses_reopen (issue : Issue) : Uses (fun e => ¬ IsComment e) (reopen P issue) := by
  rw [reopen_eq]
  refine uses_bind ⟨id, fun _ => uses_ofExcept⟩ fun offered => ?_
  cases offered.filter fun t => decide (IsReopening P t) with
  | nil => exact uses_ret
  | cons t _ => exact ⟨id, fun _ => uses_ofExcept⟩

/-- No comment is added before there is an issue for it. -/
theorem uses_findIssue (jira : Conf) (r : Request) :
    Uses (fun e => ¬ IsComment e) (findIssue P jira r) := by
  refine uses_bind ⟨id, fun _ => uses_ofExcept⟩ fun hits => ?_
  cases hits with
  | nil => exact ⟨id, fun _ => uses_ofExcept⟩
  | cons issue hits =>
    show Uses _ (if IsClosed P issue.status then (reopen P issue).bind fun _ => .ret issue
      else .ret issue)
    split
    · exact uses_bind (uses_reopen issue) fun _ => uses_ret
    · exact uses_ret

theorem isAdded_of_not_isComment {e : JiraCall} (h : ¬ IsComment e) (answer : e.Answer) :
    isAdded ⟨e, answer⟩ = false := by
  cases e with
  | addComment issue body => exact absurd trivial h
  | _ => rfl

theorem IsRequest.hasComments {format : Option (CustomFormat P)} {R : Rendering} {U : Urllib}
    {r : Request} (h : IsRequest format R U n r) :
    hasComments format R n = decide (r.fields.comments ≠ "") := by
  obtain ⟨⟨summary, comments, description⟩, hfields, hgiven⟩ := h.fields
  rw [JiraNotifier.hasComments, hfields]
  cases summary with
  | none => cases hgiven
  | some summary =>
    cases description with
    | none => cases hgiven
    | some description =>
      rw [← Except.ok.inj hgiven]

/-- The comment of the workflow is added, or it raises. Without comments it does neither. -/
theorem reports_jiraWorkflow (jira : Conf) (r : Request) :
    Reports isAdded (fun _ => True) (fun _ => decide (r.fields.comments ≠ ""))
      (jiraWorkflow P jira r) := by
  refine .after ((uses_findIssue jira r).mono fun _ => isAdded_of_not_isComment) fun issue => ?_
  show Reports _ _ _ (if r.fields.comments ≠ "" then addComment issue r.fields.comments
    else .ret ())
  split
  · next hcomments =>
    refine .perform (fun answer haccepted => ⟨trivial, ?_⟩) fun answer hrefused => ?_
    · cases answer with
      | error x => cases haccepted
      | ok _ => exact ⟨(), rfl, decide_eq_true hcomments⟩
    · cases answer with
      | error x => exact reports_raise
      | ok _ => cases hrefused
  · next hcomments => exact reports_ret (decide_eq_false hcomments)

theorem reports_deliver (jira : Conf) (r : Request) :
    Reports isAdded (fun _ => True) (fun returned => returned && decide (r.fields.comments ≠ ""))
      (deliver P jira r) := by
  refine .tryCatch ?_ fun x => reports_ret (Bool.false_and _)
  have hconnect : Uses (fun e => ¬ IsComment e) (connect jira r.url) :=
    ⟨id, fun _ => uses_ofExcept⟩
  refine .after (hconnect.mono fun _ => isAdded_of_not_isComment) fun _ => ?_
  refine (reports_jiraWorkflow jira r).bind (fun _ hgood => ⟨true, rfl, ?_⟩) fun _ hnone =>
    reports_ret ?_
  · rwa [Bool.true_and]
  · rwa [Bool.true_and]

theorem reports_sendNotification (jira : Conf) (format : Option (CustomFormat P)) (R : Rendering)
    (U : Urllib) : Reports isAdded (fun _ => True)
      (fun returned => returned && hasComments format R n)
      (sendNotification jira format R U n) := by
  rw [sendNotification_bind]
  refine .ofExcept_bind fun jiraFields hfields => .ofExcept_bind fun t htarget => ?_
  cases hgiven : jiraFields.given with
  | error x =>
    -- a summary or a description is missing, which shows after the connection
    rw [deliverFields, hgiven]
    refine .tryCatch ?_ fun x => reports_ret (Bool.false_and _)
    exact .after ⟨fun _ => rfl, fun _ => uses_ofExcept⟩ fun _ => reports_raise
  | ok fields =>
    have hr : IsRequest format R U n { t with fields, alarmId := n.alarmId.toStr P } :=
      ⟨⟨jiraFields, hfields, hgiven⟩, htarget, rfl⟩
    rw [deliverFields_of_given hgiven, hr.hasComments]
    exact reports_deliver jira _

/-- A send that returned `True` had a request. -/
theorem exists_request_of_true {jira : Conf} {format : Option (CustomFormat P)} {R : Rendering}
    {U : Urllib} {tr : JiraTrace} (h : Runs (sendNotification jira format R U n) tr (.ok true)) :
    ∃ r, IsRequest format R U n r ∧ Runs (deliver P jira r) tr (.ok true) := by
  rw [sendNotification_bind] at h
  replace h := runs_ofExcept_bind.mp h
  obtain ⟨x, -, -, hx⟩ | ⟨jiraFields, hfields, h⟩ := h
  · cases hx
  replace h := runs_ofExcept_bind.mp h
  obtain ⟨x, -, -, hx⟩ | ⟨t, htarget, h⟩ := h
  · cases hx
  cases hgiven : jiraFields.given with
  | ok fields =>
    rw [deliverFields_of_given hgiven] at h
    exact ⟨_, ⟨⟨jiraFields, hfields, hgiven⟩, htarget, rfl⟩, h⟩
  | error x =>
    rw [deliverFields, hgiven] at h
    obtain ⟨out, hbody, hout⟩ := runs_tryCatch_ret.mp h
    cases out with
    | error x => cases hout
    | ok returned =>
      obtain ⟨_, _, _, _, _, _, hraise⟩ := runs_bind_ok.mp hbody
      cases hraise

/-- The comment of a send, after the calls that led to its issue. -/
theorem receipt_sendNotification {tr : JiraTrace} {out : Except PyExn Bool}
    (h : Runs (sendNotification conf.jira conf.jiraFormat conf.rendering conf.urllib n) tr out) :
    Receipt Plugin.jira.accepts (Plugin.jira.Delivers conf n)
      (isGood id out && Plugin.jira.hasMessage conf n)
      ((withEarlier tr).map fun entry => .jira entry.1 entry.2) := by
  have hreceipt := reports_sendNotification conf.jira conf.jiraFormat conf.rendering conf.urllib h
  have hclaimed : isGood (fun returned => returned &&
      hasComments conf.jiraFormat conf.rendering n) out =
      (isGood id out && Plugin.jira.hasMessage conf n) := by
    cases out <;> rfl
  rw [hclaimed] at hreceipt
  suffices hall : ∀ earlier ev later, (isGood id out && Plugin.jira.hasMessage conf n) = true →
      tr = earlier ++ ev :: later → isAdded ev = true → True →
      Plugin.jira.Delivers conf n (.jira earlier ev) by
    have hentries : Receipt _ (fun entry => Plugin.jira.Delivers conf n (.jira entry.1 entry.2))
        _ (withEarlier tr) := hreceipt.withEarlier hall
    exact hentries.map (fun _ => rfl) fun _ hq => hq
  intro earlier ev later hclaim htr hadded _
  rw [Bool.and_eq_true] at hclaim
  obtain rfl : out = .ok true := by
    cases out with
    | error x => cases hclaim.1
    | ok returned => exact congrArg _ hclaim.1
  obtain ⟨r, hr, hrun⟩ := exists_request_of_true h
  have hcomments : r.fields.comments ≠ "" := by
    have hmessage := hclaim.2
    rw [Plugin.hasMessage, hr.hasComments] at hmessage
    exact of_decide_eq_true hmessage
  obtain ⟨found, issue, hfinds, hall⟩ := runs_deliver_true hcomments hrun
  -- no other call of the send adds a comment
  rw [htr] at hall
  have hnone : ev ∉ ⟨.connect r.url (conf.jira.user, conf.jira.password) conf.jira.proxy,
      (.ok () : Except PyExn Unit)⟩ :: found := by
    intro hmem
    rcases List.mem_cons.mp hmem with rfl | hmem
    · cases hadded
    · rw [isAdded_of_not_isComment (hfinds.noComment ev hmem)] at hadded
      cases hadded
  obtain ⟨rfl, rfl, -⟩ := eq_of_append_cons_eq_concat hall hnone
  exact ⟨r, found, hr, rfl, hfinds, rfl⟩

end JiraNotifier

/-! ## E-mail -/

namespace EmailNotifier

variable {date : String} {msg : EmailMessage}

/-- A call that is no `sendmail`. -/
def NoMail : MailCall → Prop
  | .sendmail _ _ _ _ => False
  | _ => True

theorem accepts_of_noMail {e : MailCall} (h : NoMail e) (answer : e.Answer) :
    Plugin.email.accepts (.mail ⟨e, answer⟩) = false := by
  cases e with
  | sendmail _ _ _ _ => cases h
  | _ => rfl

theorem uses_smtpConnect (email : Conf) : Uses NoMail (smtpConnect email) := by
  refine uses_tryCatch ?_ fun _ => uses_ret
  refine uses_bind ⟨trivial, fun _ => uses_ofExcept⟩ fun smtp => ?_
  refine uses_bind ?_ fun _ => uses_bind ⟨trivial, fun _ => uses_ret⟩ fun _ => uses_ret
  rw [authenticate]
  split
  · exact ⟨trivial, fun _ => uses_ofExcept⟩
  · exact uses_ret

theorem uses_ready (email : Conf) : Uses NoMail (ready email) := by
  refine uses_bind ⟨trivial, fun _ => uses_ret⟩ fun smtp => ?_
  cases smtp with
  | some _ => exact uses_ret
  | none => exact uses_smtpConnect email

/-- A connection that takes the mail. -/
theorem reports_sendmail
    (hmsg : message conf.rendering conf.email.toEmailConf date n = .ok msg) :
    ReportsTo conf n .email .mail (fun _ => true) (sendmail conf.asString conf.email n msg) := by
  refine .after ⟨accepts_of_noMail trivial, fun _ => uses_ret⟩ fun smtp => ?_
  cases smtp with
  | none => exact reports_raise
  | some smtp =>
    dsimp only
    cases htext : conf.asString msg with
    | error x => exact reports_raise
    | ok text =>
      refine .perform (fun answer haccepted => ⟨?_, ?_⟩) fun answer hrefused => ?_
      · exact ⟨rfl, rfl, date, msg, hmsg, htext⟩
      · cases answer with
        | error x => cases haccepted
        | ok _ => exact ⟨(), rfl, rfl⟩
      · cases answer with
        | error x => exact reports_raise
        | ok _ => cases hrefused

/-- Without a result after the first try, nothing was taken yet. -/
theorem reports_firstTry
    (hmsg : message conf.rendering conf.email.toEmailConf date n = .ok msg) :
    ReportsTo conf n .email .mail (fun result => result == some true)
      (firstTry conf.asString conf.email n msg) := by
  refine .tryCatch ((reports_sendmail hmsg).bind (fun _ _ => ⟨some true, rfl, rfl⟩) nofun)
    fun x => ?_
  cases x with
  | serverDisconnected =>
    exact .after ((uses_smtpConnect conf.email).mono fun _ => accepts_of_noMail) fun _ =>
      reports_ret rfl
  | smtpException name => exact reports_ret rfl
  | python y => exact reports_raise

theorem reports_secondTry
    (hmsg : message conf.rendering conf.email.toEmailConf date n = .ok msg) :
    ReportsTo conf n .email .mail id (secondTry conf.asString conf.email n msg) := by
  refine .tryCatch ((reports_sendmail hmsg).bind (fun _ _ => ⟨true, rfl, rfl⟩) nofun) fun x => ?_
  split
  · exact reports_ret rfl
  · exact reports_raise

theorem reports_sendNotification : ReportsTo conf n .email .mail id
    (sendNotification conf.rendering conf.asString conf.email date n) := by
  rw [sendNotification, bind_eq]
  cases hmsg : message conf.rendering conf.email.toEmailConf date n with
  | error x => exact reports_raise
  | ok msg =>
    show Reports _ _ _ ((ready conf.email).bind _)
    refine .after ((uses_ready conf.email).mono fun _ => accepts_of_noMail) fun connected => ?_
    cases connected with
    | false => exact reports_ret rfl
    | true =>
      refine (reports_firstTry hmsg).bind (fun result hresult => ?_) fun result hresult => ?_
      · obtain rfl : result = some true := by simpa using hresult
        exact ⟨true, rfl, rfl⟩
      · match result, hresult with
        | none, _ => exact reports_secondTry hmsg
        | some false, _ => exact reports_ret rfl

end EmailNotifier

/-! ## Every plugin -/

/-- The program of a plugin as a call of it. -/
theorem Plugin.receipt_of_reports {E : Type} {R : E → Type} {ε α : Type} {p : Plugin}
    {f : Event E R → Contact} {good : α → Bool} {q : Prog E R ε α}
    (h : ReportsTo conf n p f good q) {tr : Trace E R} {out : Except ε α} (hrun : Runs q tr out)
    {result : Except PyExn Bool} (hmessage : p.hasMessage conf n = true)
    (hresult : isGood id result = isGood good out) :
    Receipt p.accepts (p.Delivers conf n) (isGood id result && p.hasMessage conf n)
      (tr.map f) := by
  rw [hresult, hmessage, Bool.and_true]
  exact (h hrun).map (fun _ => rfl) fun _ hq => hq

/--
**A call that has a message returns `True` if and only if the message was taken**, by the other side
of the plugin, and then it was taken once.
-/
theorem Plugin.Calls.receipt {p : Plugin} {cs : List Contact} {out : Except PyExn Bool}
    (h : p.Calls conf n cs out) :
    Receipt p.accepts (p.Delivers conf n) (isGood id out && p.hasMessage conf n) cs := by
  cases h with
  | jira hrun => exact JiraNotifier.receipt_sendNotification hrun
  | webhook hrun =>
    refine receipt_of_reports (WebhookNotifier.reports_sendNotification (fun _ _ => rfl) ?_ ?_)
      hrun rfl rfl
    · intro e he r
      cases e with
      | post arguments => cases he
      | _ => rfl
    · exact fun arguments answer hurl hdata => ⟨hurl, hdata⟩
  | pagerduty hrun =>
    refine receipt_of_reports (PagerdutyNotifier.reports_sendNotification (fun _ _ => rfl) ?_)
      hrun rfl rfl
    exact fun arguments answer hurl hdata => ⟨hurl, hdata⟩
  | hipchat hrun => exact receipt_of_reports HipChatNotifier.reports_sendNotification hrun rfl rfl
  | @slack cache tr out hrun =>
    refine receipt_of_reports SlackNotifier.reports_sendNotification hrun rfl ?_
    cases out <;> rfl
  | @email date tr out hrun =>
    refine receipt_of_reports EmailNotifier.reports_sendNotification hrun rfl ?_
    cases out <;> rfl

end MonascaNotification
