import Mathlib.Data.List.Count
import MonascaNotification.Python.Text
import MonascaNotification.Python.Urlparse
import MonascaNotification.Spec.Jira

/-!
# Which issue a Jira comment lands on

The plugin finds the issue of an alarm again by the alarm id in the summary. The summary ends
with the id, so a search finds what an earlier send for the same alarm created, also one that
raised afterwards (`one_issue_per_alarm`). But it also has the name of the alarm in it, and a
name can contain the id of another alarm: `comments_on_own_issue` says what has to be excluded.
-/

namespace MonascaNotification.JiraNotifier

open Infra Prog

section

variable {P : Platform} {R : Rendering} {U : Urllib} {conf : Conf} {n : Notification P}
  {s₀ s s' : Server} {r : Request}

/-! ## Sequences of sends -/

/-- A call of `send_notification`, with the server before and after it. -/
structure Sent (P : Platform) where
  notification : Notification P
  before : Server
  trace : JiraTrace
  out : Except PyExn Bool
  after : Server

/-- The alarm of a send. One that raises before it connects does not reach the server. -/
def alarmOf (R : Rendering) (U : Urllib) (n : Notification P) : Alarm :=
  match request R U n with
  | .ok r => r.alarm
  | .error _ => ⟨"", ""⟩

/-- The send has put an issue on the server. -/
def Sent.Created (sent : Sent P) : Prop := sent.after.issues ≠ sent.before.issues

/-- Sends one after the other, and what others do to the server between them. -/
inductive Run (R : Rendering) (U : Urllib) (conf : Conf) (s₀ : Server) :
    List (Sent P) → Server → Prop where
  | start : Run R U conf s₀ [] s₀
  | send {sends : List (Sent P)} {s s' : Server} {n : Notification P} {tr : JiraTrace}
      {out : Except PyExn Bool} :
      Run R U conf s₀ sends s → Runs (sendNotification conf none R U n) tr out →
      Walk (answering conf.user (alarmOf R U n)) s tr s' →
      Run R U conf s₀ (sends ++ [⟨n, s, tr, out, s'⟩]) s'
  | others {sends : List (Sent P)} {s s' : Server} :
      Run R U conf s₀ sends s → Others conf.user s s' → Run R U conf s₀ sends s'

/-- A send either raises before it connects, or delivers its request. -/
theorem runs_sendNotification {tr : JiraTrace} {out : Except PyExn Bool}
    (h : Runs (sendNotification conf none R U n) tr out) :
    (∃ x, request R U n = .error x ∧ tr = [] ∧ out = .error x) ∨
      ∃ r, request R U n = .ok r ∧ alarmOf R U n = r.alarm ∧ Runs (deliver P conf r) tr out := by
  rw [sendNotification_eq] at h
  cases hr : request R U n with
  | error x =>
    rw [hr] at h
    exact Or.inl ⟨x, rfl, h⟩
  | ok r =>
    rw [hr] at h
    exact Or.inr ⟨r, rfl, by rw [alarmOf, hr], h⟩

theorem Run.sent {sends : List (Sent P)} (h : Run R U conf s₀ sends s) {sent : Sent P}
    (hmem : sent ∈ sends) :
    Runs (sendNotification conf none R U sent.notification) sent.trace sent.out ∧
      Walk (answering conf.user (alarmOf R U sent.notification)) sent.before sent.trace
        sent.after := by
  induction h with
  | start => cases hmem
  | send _ hrun hwalk ih =>
    rcases List.mem_append.mp hmem with hmem | hmem
    · exact ih hmem
    · obtain rfl := List.mem_singleton.mp hmem
      exact ⟨hrun, hwalk⟩
  | others _ _ ih => exact ih hmem

/-- A send keeps an invariant if its request, when there is one, is delivered so. -/
theorem keeps_sendNotification {Inv : Server → Prop} {tr : JiraTrace} {out : Except PyExn Bool}
    (hrun : Runs (sendNotification conf none R U n) tr out)
    (hwalk : Walk (answering conf.user (alarmOf R U n)) s tr s') (hinv : Inv s)
    (hkeeps : ∀ r, request R U n = .ok r → ∃ Mine, Keeps conf r Inv Mine) : Inv s' := by
  rcases runs_sendNotification hrun with ⟨x, -, rfl, -⟩ | ⟨r, hr, halarm, hrun⟩
  · cases hwalk
    exact hinv
  · obtain ⟨Mine, hkeeps⟩ := hkeeps r hr
    rw [halarm] at hwalk
    exact hkeeps.triple s tr out s' hinv hrun hwalk

/-! ## One issue for each alarm -/

/-- The search of an alarm. -/
def Alarm.query (alarm : Alarm) (conf : Conf) : SearchQuery where
  project := alarm.project
  reporter := conf.user
  text := alarm.alarmId

/-- An alarm has at most one issue that was created for it, and its search finds it. -/
structure Unique (conf : Conf) (s : Server) : Prop where
  atMostOne : ∀ alarm, s.issues.countP (fun record => record.createdBy = some alarm) ≤ 1
  found : ∀ record ∈ s.issues, ∀ alarm, record.createdBy = some alarm →
    Matches (alarm.query conf) record

theorem matches_record (hr : request R U n = .ok r) :
    Matches (r.query conf) (r.issueDict.record conf.user r.alarm) :=
  ⟨rfl, rfl, alarmId_infix_summary hr⟩

theorem countP_createdBy_eq_zero {issues : List ServerIssue} {alarm : Alarm}
    (h : ∀ record ∈ issues, record.createdBy ≠ some alarm) :
    issues.countP (fun record => record.createdBy = some alarm) = 0 := by
  rw [List.countP_eq_zero]
  intro record hrecord hcreated
  exact h record hrecord (of_decide_eq_true hcreated)

theorem keeps_unique (hr : request R U n = .ok r) :
    Keeps conf r (Unique conf) fun _ => True where
  found _ _ _ _ _ := trivial
  new := trivial
  status _ _ h := ⟨h.atMostOne, h.found⟩
  comment _ _ _ h _ _ := ⟨h.atMostOne, h.found⟩
  create := by
    intro s status h hnone
    have hzero : s.issues.countP (fun record => record.createdBy = some r.alarm) = 0 := by
      refine countP_createdBy_eq_zero fun record hrecord hcreated => ?_
      exact hnone record hrecord (h.found record hrecord r.alarm hcreated)
    refine ⟨fun alarm => ?_, fun record hrecord alarm hcreated => ?_⟩
    · -- the alarm had no issue: the search would have found it
      rw [List.countP_append]
      by_cases halarm : alarm = r.alarm
      · subst halarm
        rw [hzero, Nat.zero_add]
        exact List.countP_le_length
      · have hnew : List.countP (fun record : ServerIssue => record.createdBy = some alarm)
            [r.issueDict.record conf.user r.alarm] = 0 := by
          refine countP_createdBy_eq_zero fun record hrecord hcreated => ?_
          obtain rfl := List.mem_singleton.mp hrecord
          cases hcreated
          exact halarm rfl
        rw [hnew]
        exact h.atMostOne alarm
    · rcases List.mem_append.mp hrecord with hrecord | hrecord
      · exact h.found record hrecord alarm hcreated
      · rw [List.mem_singleton] at hrecord
        subst hrecord
        cases hcreated
        exact matches_record hr

theorem Unique.others (h : Unique conf s) (ho : Others conf.user s s') : Unique conf s' := by
  obtain ⟨-, added, hissues, hadded⟩ := ho
  refine ⟨fun alarm => ?_, fun record hrecord alarm hcreated => ?_⟩
  · rw [hissues, List.countP_append]
    have hzero : added.countP (fun record => record.createdBy = some alarm) = 0 :=
      countP_createdBy_eq_zero fun record hrecord => by simp [(hadded record hrecord).2]
    rw [hzero]
    exact h.atMostOne alarm
  · rw [hissues] at hrecord
    rcases List.mem_append.mp hrecord with hrecord | hrecord
    · exact h.found record hrecord alarm hcreated
    · rw [(hadded record hrecord).2] at hcreated
      cases hcreated

/-! ## What a send that returned `True` did -/

theorem walk_comments {tr : JiraTrace} {alarm : Alarm}
    (h : Walk (answering conf.user alarm) s tr s') (hno : ∀ ev ∈ tr, ¬ IsComment ev.1) :
    s'.comments = s.comments := by
  induction h with
  | nil => rfl
  | @cons s e answer s₁ tr s' hact _ ih =>
    rw [ih fun ev hev => hno ev (List.mem_cons_of_mem _ hev)]
    cases e with
    | connect => rw [hact]
    | searchIssues => rw [hact.1]
    | createIssue fields =>
      rcases hact with ⟨rfl, -⟩ | ⟨⟨status, rfl⟩, -⟩ <;> rfl
    | transitions => rw [hact]
    | transitionIssue issue transition =>
      rcases hact with ⟨rfl, -⟩ | ⟨status, rfl⟩ <;> rfl
    | addComment => exact absurd trivial (hno _ List.mem_cons_self)

/-- The calls that create an issue. -/
def IsCreate : JiraCall → Prop
  | .createIssue _ => True
  | _ => False

theorem walk_issues {tr : JiraTrace} {alarm : Alarm}
    (h : Walk (answering conf.user alarm) s tr s') (hno : ∀ ev ∈ tr, ¬ IsCreate ev.1) :
    s'.issues = s.issues := by
  induction h with
  | nil => rfl
  | @cons s e answer s₁ tr s' hact _ ih =>
    rw [ih fun ev hev => hno ev (List.mem_cons_of_mem _ hev)]
    cases e with
    | connect => rw [hact]
    | searchIssues => rw [hact.1]
    | createIssue fields => exact absurd trivial (hno _ List.mem_cons_self)
    | transitions => rw [hact]
    | transitionIssue issue transition =>
      rcases hact with ⟨rfl, -⟩ | ⟨status, rfl⟩ <;> rfl
    | addComment =>
      rcases hact with ⟨rfl, -⟩ | rfl <;> rfl

/-- An issue that was created is the last one. -/
theorem walk_created {query : SearchQuery} {fields : IssueDict} {alarm : Alarm} {issue : Issue}
    (h : Walk (answering conf.user alarm) s
      [⟨.searchIssues query, (.ok [] : Except PyExn (List Issue))⟩,
       ⟨.createIssue fields, (.ok issue : Except PyExn Issue)⟩] s') :
    issue.key = s.issues.length ∧ ∃ status,
      s' = { s with issues := s.issues ++ [fields.record conf.user alarm], status } := by
  cases h with
  | cons hsearch h =>
    obtain ⟨rfl, -⟩ := hsearch
    cases h with
    | cons hcreate h =>
      cases h
      rcases hcreate with ⟨-, x, hx⟩ | ⟨hadded, hkey⟩
      · cases hx
      · exact ⟨hkey issue rfl, hadded⟩

/-- The first hit of a search, as long as no issue is created after it. -/
theorem walk_hit {query : SearchQuery} {alarm : Alarm} {issue : Issue} {hits : List Issue}
    {tr : JiraTrace} (h : Walk (answering conf.user alarm) s
      (⟨.searchIssues query, (.ok (issue :: hits) : Except PyExn (List Issue))⟩ :: tr) s')
    (hno : ∀ ev ∈ tr, ¬ IsCreate ev.1) :
    (∃ record, s'.issues[issue.key]? = some record ∧ Matches query record) ∧
      issue.status = s.status issue.key := by
  cases h with
  | @cons _ _ _ s₁ _ _ hsearch h =>
    obtain ⟨hsame, hperm⟩ := hsearch
    have hmem : issue ∈ s.hits query := (hperm _ rfl).mem_iff.mp List.mem_cons_self
    obtain ⟨hstatus, hrecord⟩ := Server.mem_hits.mp hmem
    rw [walk_issues h hno, hsame]
    exact ⟨hrecord, hstatus⟩

/-- The issue that was found is on the server and matches. Its status is that of the search. -/
theorem Finds.walk {tr : JiraTrace} {issue : Issue} (h : Finds P conf r tr issue)
    (hnew : Matches (r.query conf) (r.issueDict.record conf.user r.alarm))
    (hwalk : Walk (answering conf.user r.alarm) s tr s') :
    (∃ record, s'.issues[issue.key]? = some record ∧ Matches (r.query conf) record) ∧
      (issue.key < s.issues.length → issue.status = s.status issue.key) := by
  cases h with
  | created =>
    obtain ⟨hkey, status, rfl⟩ := walk_created hwalk
    rw [hkey]
    exact ⟨⟨_, by simp, hnew⟩, fun hlt => absurd hlt (lt_irrefl _)⟩
  | isOpen =>
    obtain ⟨hrecord, hstatus⟩ := walk_hit hwalk (by simp)
    exact ⟨hrecord, fun _ => hstatus⟩
  | stays =>
    obtain ⟨hrecord, hstatus⟩ := walk_hit hwalk (by simp [IsCreate])
    exact ⟨hrecord, fun _ => hstatus⟩
  | reopened =>
    obtain ⟨hrecord, hstatus⟩ := walk_hit hwalk (by simp [IsCreate])
    exact ⟨hrecord, fun _ => hstatus⟩

/-- What a send has done for a request, when it has added its comment to `issue`. -/
structure Delivered (P : Platform) (r : Request) (sent : Sent P) (issue : Issue) : Prop where
  /-- One comment, and it is the last thing that the send does. -/
  comment : sent.after.comments = sent.before.comments ++ [(issue.key, r.alarm)]
  last : ∃ tr, sent.trace = tr ++
    [⟨.addComment issue r.fields.comments, (.ok () : Except PyExn Unit)⟩]
  summary : ∃ record, sent.after.issues[issue.key]? = some record ∧
    r.alarmId.toList <:+: record.summary.toList
  /-- A closed issue: the server was asked for transitions, and one that reopens was made. -/
  reopened : issue.key < sent.before.issues.length →
    IsClosed P (sent.before.status issue.key) →
    ∃ offered, ⟨.transitions issue, (.ok offered : Except PyExn (List Transition))⟩ ∈ sent.trace ∧
      ((∃ t ∈ offered, IsReopening P t) → ∃ t ∈ offered, IsReopening P t ∧
        ∃ tr, sent.trace = tr ++
          [⟨.transitionIssue issue t.id, (.ok () : Except PyExn Unit)⟩,
           ⟨.addComment issue r.fields.comments, (.ok () : Except PyExn Unit)⟩])

theorem Sent.delivered {sent : Sent P} (hr : request R U sent.notification = .ok r)
    (hrun : Runs (deliver P conf r) sent.trace (.ok true))
    (hwalk : Walk (answering conf.user r.alarm) sent.before sent.trace sent.after) :
    ∃ issue, Delivered P r sent issue := by
  obtain ⟨-, -, hcomments⟩ := request_eq_ok hr
  obtain ⟨tr, issue, hfinds, htrace⟩ := runs_deliver_true hcomments hrun
  rw [htrace] at hwalk
  rw [List.cons_append] at htrace hwalk
  cases hwalk with
  | cons hconnect hwalk =>
    obtain rfl := hconnect
    obtain ⟨s₁, hfind, hcomment⟩ := walk_append.mp hwalk
    obtain ⟨⟨record, hrecord, hmatches⟩, hstatus⟩ := hfinds.walk (matches_record hr) hfind
    have hsame := walk_comments hfind hfinds.noComment
    cases hcomment with
    | cons hcomment hnil =>
      cases hnil
      rcases hcomment with ⟨-, x, hx⟩ | hafter
      · cases hx
      refine ⟨issue, ⟨?_, ⟨_ :: tr, htrace⟩, ⟨record, ?_, hmatches.2.2⟩, ?_⟩⟩
      · rw [hafter, hsame]
      · rw [hafter]
        exact hrecord
      · -- an issue that was there before the send was found by the search
        intro hlt hclosed
        rw [← hstatus hlt] at hclosed
        cases hfinds with
        | created => exact absurd (walk_created hfind).1 hlt.ne
        | isOpen hopen => exact absurd hclosed hopen
        | @stays _ hits offered _ hnone =>
          refine ⟨offered, by simp [htrace], ?_⟩
          rintro ⟨t, ht, hopens⟩
          exact absurd hopens (hnone t ht)
        | @reopened _ hits offered t _ ht hopens =>
          refine ⟨offered, by simp [htrace], fun _ => ⟨t, ht, hopens, ?_⟩⟩
          exact ⟨[⟨.connect r.url (conf.user, conf.password) conf.proxy, .ok ()⟩,
            ⟨.searchIssues (r.query conf), .ok (issue :: hits)⟩,
            ⟨.transitions issue, .ok offered⟩], htrace⟩

theorem Run.unique {sends : List (Sent P)} (h : Run R U conf s₀ sends s)
    (h₀ : ∀ record ∈ s₀.issues, record.createdBy = none) : Unique conf s := by
  induction h with
  | start =>
    refine ⟨fun alarm => ?_, fun record hrecord alarm hcreated => ?_⟩
    · rw [countP_createdBy_eq_zero fun record hrecord => by simp [h₀ record hrecord]]
      exact Nat.zero_le 1
    · rw [h₀ record hrecord] at hcreated
      cases hcreated
  | send _ hrun hwalk ih =>
    exact keeps_sendNotification hrun hwalk ih fun r hr => ⟨_, keeps_unique hr⟩
  | others _ ho ih => exact ih.others ho

/-! ## A server on which nothing fails -/

/-- One that names the transitions as in the tests. Whatever is created or reopened is open. -/
def respond (reporter : String) (alarm : Alarm) : (e : JiraCall) → Server → e.Answer × Server
  | .connect _ _ _, s => ((.ok () : Except PyExn Unit), s)
  | .searchIssues query, s => ((.ok (s.hits query) : Except PyExn (List Issue)), s)
  | .createIssue fields, s =>
    ((.ok ⟨s.issues.length, "Open"⟩ : Except PyExn Issue),
      { s with issues := s.issues ++ [fields.record reporter alarm]
               status := Function.update s.status s.issues.length "Open" })
  | .transitions _, s =>
    ((.ok [⟨"100", "Not this one"⟩, ⟨"200", "reopen"⟩] : Except PyExn (List Transition)), s)
  | .transitionIssue issue _, s =>
    ((.ok () : Except PyExn Unit), { s with status := Function.update s.status issue.key "Open" })
  | .addComment issue _, s =>
    ((.ok () : Except PyExn Unit), { s with comments := s.comments ++ [(issue.key, alarm)] })

theorem answering_respond (reporter : String) (alarm : Alarm) (s : Server) (e : JiraCall) :
    answering reporter alarm s e (respond reporter alarm e s).1 (respond reporter alarm e s).2 := by
  cases e with
  | connect | transitions => rfl
  | searchIssues query =>
    refine ⟨rfl, fun hits hhits => ?_⟩
    cases hhits
    exact List.Perm.refl _
  | createIssue fields =>
    refine Or.inr ⟨⟨_, rfl⟩, fun issue hissue => ?_⟩
    cases hissue
    rfl
  | transitionIssue issue transition => exact Or.inr ⟨_, rfl⟩
  | addComment issue body => exact Or.inr rfl

def account : Conf where
  user := "username"
  password := some "password"
  proxy := none

def noIssues : Server where
  issues := []
  status := fun _ => "Open"
  comments := []

/-- A send to this server. -/
def sendTo (s : Server) (n : Notification cpython) : Sent cpython where
  notification := n
  before := s
  trace := (sendNotification account none cpythonText cpythonUrls n).trace
    (respond account.user (alarmOf cpythonText cpythonUrls n)) s
  out := ((sendNotification account none cpythonText cpythonUrls n).run
    (respond account.user (alarmOf cpythonText cpythonUrls n)) s).1
  after := ((sendNotification account none cpythonText cpythonUrls n).run
    (respond account.user (alarmOf cpythonText cpythonUrls n)) s).2

theorem Run.sendTo {sends : List (Sent cpython)}
    (h : Run cpythonText cpythonUrls account s₀ sends s) (n : Notification cpython) :
    Run cpythonText cpythonUrls account s₀ (sends ++ [sendTo s n]) (sendTo s n).after :=
  h.send (runs_trace _ _ _) (walk_trace (answering_respond _ _) _ _)

/-- A notification for the address of the documentation. -/
def jiraNotification (alarmId alarmName : String) : Notification cpython where
  alarmId := .str alarmId
  alarmName := .str alarmName
  alarmTimestamp := 1429023453
  message := .str "I am alarming!"
  state := .str "ALARM"
  severity := .str "LOW"
  link := .str ""
  lifecycleState := .str "OPEN"
  tenantId := .str "0"
  metrics := .arr []
  id := .str "10"
  type := .str "jira"
  name := .str "MyIssuer"
  address := .str "https://jira.hpcloud.net/?project=MyProject"
  period := .int 0
  retryCount := .int 0
  notificationTimestamp := .null
  rawAlarm := .obj
    [("tenantId", .str "0"), ("alarmId", .str alarmId), ("alarmDefinitionId", .str "2"),
     ("alarmName", .str alarmName), ("alarmDescription", .str "CPU over 90 %"),
     ("oldState", .str "OK"), ("newState", .str "ALARM"),
     ("stateChangeReason", .str "I am alarming!"), ("severity", .str "LOW"), ("link", .str ""),
     ("lifecycleState", .str "OPEN"), ("timestamp", .int 1429023453632),
     ("actionsEnabled", .int 1), ("metrics", .arr [])]
  derived := by
    have hseconds : ((Json.int 1429023453632).divByFloat cpython 1000).bind PyFloat.toInt =
        .ok 1429023453 := by decide +kernel
    obtain ⟨seconds, hdiv, hint⟩ := bind_eq_ok.mp hseconds
    simp [AlarmSlots.ofAlarm, Json.getItem, List.lookup_cons, hdiv, hint]

/--
**One issue for each alarm.** In every sequence of sends in which any call may raise, before or
after it took effect, and whatever others do to the status of issues between them: an alarm has
at most one issue that was created for it; and a send that returned `True` added one comment, to
an issue with the alarm id in its summary, after it reopened this issue if it could.
-/
theorem one_issue_per_alarm {sends : List (Sent P)} (h : Run R U conf s₀ sends s)
    (h₀ : ∀ record ∈ s₀.issues, record.createdBy = none) :
    (∀ alarm, s.issues.countP (fun record => record.createdBy = some alarm) ≤ 1) ∧
    ∀ sent ∈ sends, sent.out = .ok true →
      ∃ r issue, request R U sent.notification = .ok r ∧ Delivered P r sent issue := by
  refine ⟨(h.unique h₀).atMostOne, fun sent hmem hout => ?_⟩
  obtain ⟨hrun, hwalk⟩ := h.sent hmem
  rw [hout] at hrun
  rcases runs_sendNotification hrun with ⟨x, -, -, hx⟩ | ⟨r, hr, halarm, hrun⟩
  · cases hx
  · rw [halarm] at hwalk
    obtain ⟨issue, hdelivered⟩ := Sent.delivered hr hrun hwalk
    exact ⟨r, issue, hr, hdelivered⟩

/-- The issue of the first send is closed by somebody, and the second one reopens it. -/
theorem one_issue_per_alarm_closed :
    let n := jiraNotification "1111" "test Alarm"
    let first := sendTo noIssues n
    let second := sendTo { first.after with status := fun _ => "Closed" } n
    (first.out = .ok true ∧ second.out = .ok true) ∧
    (∀ alarm, second.after.issues.countP (fun record => record.createdBy = some alarm) ≤ 1) ∧
    ∀ sent ∈ [first, second], sent.out = .ok true →
      ∃ r issue, request cpythonText cpythonUrls sent.notification = .ok r ∧
        Delivered cpython r sent issue := by
  intro n first second
  have hrun : Run cpythonText cpythonUrls account noIssues [first] first.after :=
    Run.start.sendTo n
  have hclosed : Run cpythonText cpythonUrls account noIssues [first]
      { first.after with status := fun _ => "Closed" } :=
    hrun.others ⟨rfl, [], by simp, nofun⟩
  exact ⟨⟨by decide +kernel, by decide +kernel⟩, one_issue_per_alarm (hclosed.sendTo n) nofun⟩

/-! ## Comments of one alarm on the issue of another -/

/--
A send for `n` can take the issue of `m` for its own: both go to one project, and the summary
that a send for `m` writes has the id of the other alarm in it.
-/
def Confusable (R : Rendering) (U : Urllib) (m n : Notification P) : Prop :=
  ∃ rm rn, request R U m = .ok rm ∧ request R U n = .ok rn ∧ rm.project = rn.project ∧
    rm.alarmId ≠ rn.alarmId ∧ rn.alarmId.toList <:+: rm.fields.summary.toList

/--
The issues of the account are those that sends for notifications of `Q` create, and every
comment is on an issue that was created for its alarm.
-/
structure Owned (R : Rendering) (U : Urllib) (conf : Conf) (Q : Notification P → Prop)
    (s : Server) : Prop where
  issues : ∀ record ∈ s.issues, record.reporter = conf.user →
    ∃ n r, Q n ∧ request R U n = .ok r ∧ record = r.issueDict.record conf.user r.alarm
  comments : ∀ comment ∈ s.comments, ∃ record,
    s.issues[comment.1]? = some record ∧ record.createdBy = some comment.2

variable {Q Q' : Notification P → Prop}

theorem getElem?_added {issues added : List ServerIssue} {k : Nat} {record : ServerIssue}
    (h : issues[k]? = some record) : (issues ++ added)[k]? = some record := by
  obtain ⟨hlt, -⟩ := List.getElem?_eq_some_iff.mp h
  rw [List.getElem?_append_left hlt]
  exact h

theorem Owned.mono (h : Owned R U conf Q s) (hQ : ∀ n, Q n → Q' n) : Owned R U conf Q' s where
  comments := h.comments
  issues := by
    intro record hrecord hreporter
    obtain ⟨n, r, hn, hr, heq⟩ := h.issues record hrecord hreporter
    exact ⟨n, r, hQ n hn, hr, heq⟩

theorem Owned.of_issues_eq (h : Owned R U conf Q s) (h' : Owned R U conf Q' s')
    (hissues : s'.issues = s.issues) : Owned R U conf Q s' where
  comments := h'.comments
  issues := by
    rw [hissues]
    exact h.issues

theorem keeps_owned (hr : request R U n = .ok r) (hn : Q n)
    (hsafe : ∀ m, Q m → ¬ Confusable R U m n) :
    Keeps conf r (Owned R U conf Q) fun record => record.createdBy = some r.alarm where
  new := rfl
  status _ _ h := ⟨h.issues, h.comments⟩
  found := by
    rintro s record h hrecord ⟨hproject, hreporter, htext⟩
    obtain ⟨m, rm, hm, hrm, rfl⟩ := h.issues record hrecord hreporter
    -- either it is an issue of the same alarm, or the two notifications are confusable
    by_cases hid : rm.alarmId = r.alarmId
    · have halarm : rm.alarm = r.alarm := by
        rw [Request.alarm, Request.alarm, hid]
        exact congrArg (Alarm.mk · r.alarmId) hproject
      exact congrArg some halarm
    · exact absurd ⟨rm, r, hrm, hr, hproject, hid, htext⟩ (hsafe m hm)
  create := by
    intro s status h _
    refine ⟨fun record hrecord hreporter => ?_, fun comment hcomment => ?_⟩
    · rcases List.mem_append.mp hrecord with hrecord | hrecord
      · exact h.issues record hrecord hreporter
      · exact ⟨n, r, hn, hr, List.mem_singleton.mp hrecord⟩
    · obtain ⟨record, hrecord, hcreated⟩ := h.comments comment hcomment
      exact ⟨record, getElem?_added hrecord, hcreated⟩
  comment := by
    intro s k record h hrecord hcreated
    refine ⟨h.issues, fun comment hcomment => ?_⟩
    rcases List.mem_append.mp hcomment with hcomment | hcomment
    · exact h.comments comment hcomment
    · obtain rfl := List.mem_singleton.mp hcomment
      exact ⟨record, hrecord, hcreated⟩

theorem Owned.others (h : Owned R U conf Q s) (ho : Others conf.user s s') :
    Owned R U conf Q s' := by
  obtain ⟨hcomments, added, hissues, hadded⟩ := ho
  refine ⟨fun record hrecord hreporter => ?_, fun comment hcomment => ?_⟩
  · rw [hissues] at hrecord
    rcases List.mem_append.mp hrecord with hrecord | hrecord
    · exact h.issues record hrecord hreporter
    · exact absurd hreporter (hadded record hrecord).1
  · rw [hcomments] at hcomment
    obtain ⟨record, hrecord, hcreated⟩ := h.comments comment hcomment
    rw [hissues]
    exact ⟨record, getElem?_added hrecord, hcreated⟩

/-- The notifications whose sends put an issue on the server. -/
def creators (sends : List (Sent P)) (n : Notification P) : Prop :=
  ∃ sent ∈ sends, sent.Created ∧ sent.notification = n

/-- A notification is not confusable with itself. -/
theorem not_confusable_self : ¬ Confusable R U n n := by
  rintro ⟨rm, rn, hrm, hrn, -, hid, -⟩
  rw [hrm] at hrn
  cases hrn
  exact hid rfl

/--
**Comments on the own issue.** When the id of an alarm is in no summary that an earlier send has
put on the server for another alarm of the project, every comment is on an issue that a send for
its alarm has created.
-/
theorem comments_on_own_issue {sends : List (Sent P)} (h : Run R U conf s₀ sends s)
    (h₀ : ∀ record ∈ s₀.issues, record.reporter ≠ conf.user) (hnone : s₀.comments = [])
    (hsafe : sends.Pairwise fun sent later =>
      sent.Created → ¬ Confusable R U sent.notification later.notification) :
    ∀ comment ∈ s.comments, ∃ record,
      s.issues[comment.1]? = some record ∧ record.createdBy = some comment.2 := by
  have howned : Owned R U conf (creators sends) s := by
    induction h with
    | start =>
      refine ⟨fun record hrecord hreporter => absurd hreporter (h₀ record hrecord), ?_⟩
      rw [hnone]
      nofun
    | @send sends s s' n tr out _ hrun hwalk ih =>
      obtain ⟨hearlier, -, hlast⟩ := List.pairwise_append.mp hsafe
      -- during the send its own issue may be there as well
      have hinv := (ih hearlier).mono fun m hm => (Or.inl hm : creators sends m ∨ m = n)
      have hafter : Owned R U conf (fun m => creators sends m ∨ m = n) s' := by
        refine keeps_sendNotification hrun hwalk hinv fun r hr =>
          ⟨_, keeps_owned hr (Or.inr rfl) ?_⟩
        rintro m (⟨sent, hmem, hcreated, rfl⟩ | rfl)
        · exact hlast sent hmem _ List.mem_cons_self hcreated
        · exact not_confusable_self
      by_cases hissues : s'.issues = s.issues
      · refine ((ih hearlier).of_issues_eq hafter hissues).mono ?_
        rintro m ⟨sent, hmem, hsent⟩
        exact ⟨sent, List.mem_append_left _ hmem, hsent⟩
      · refine hafter.mono ?_
        rintro m (⟨sent, hmem, hsent⟩ | rfl)
        · exact ⟨sent, List.mem_append_left _ hmem, hsent⟩
        · exact ⟨_, List.mem_append_right _ List.mem_cons_self, hissues, rfl⟩
    | others _ ho ih => exact (ih hsafe).others ho
  exact howned.comments

/--
Two alarms, of which the first one is renamed after its issue is there. The second summary has the
id of the other alarm in it, but it is not written.
-/
theorem comments_on_own_issue_renamed :
    let first := sendTo noIssues (jiraNotification "1111" "disk is full")
    let second := sendTo first.after (jiraNotification "1111" "disk of 2222 is full")
    let third := sendTo second.after (jiraNotification "2222" "test Alarm")
    ∀ comment ∈ third.after.comments, ∃ record,
      third.after.issues[comment.1]? = some record ∧ record.createdBy = some comment.2 := by
  intro first second third
  have hrun : Run cpythonText cpythonUrls account noIssues [first, second, third] third.after :=
    ((Run.start.sendTo _).sendTo _).sendTo _
  have hunwritten : second.after.issues = first.after.issues := by decide +kernel
  have hapart : ∀ sent ∈ [second, third],
      ¬ Confusable cpythonText cpythonUrls first.notification sent.notification := by
    rintro sent hsent ⟨rm, rn, hrm, hrn, -, hid, hinfix⟩
    rw [(request_eq_ok hrm).2.1, (request_eq_ok hrn).2.1] at hid
    rw [(request_eq_ok hrm).1, (request_eq_ok hrn).2.1] at hinfix
    rcases List.mem_pair.mp hsent with rfl | rfl
    · exact hid (by decide +kernel)
    · revert hinfix
      decide +kernel
  refine comments_on_own_issue hrun nofun rfl ?_
  refine List.pairwise_cons.mpr ⟨fun sent hsent _ => hapart sent hsent, ?_⟩
  exact List.pairwise_pair.mpr fun hcreated => absurd hunwritten hcreated

/-- The name of the first alarm has the id of the second one in it. -/
theorem comment_on_other_issue :
    let first := sendTo noIssues (jiraNotification "1111" "disk of 2222 is full")
    let second := sendTo first.after (jiraNotification "2222" "test Alarm")
    Run cpythonText cpythonUrls account noIssues [first, second] second.after ∧
    ¬ ∀ comment ∈ second.after.comments, ∃ record,
      second.after.issues[comment.1]? = some record ∧ record.createdBy = some comment.2 := by
  intro first second
  refine ⟨(Run.start.sendTo _).sendTo _, fun h => ?_⟩
  have hcomments : second.after.comments =
      [(0, ⟨"MyProject", "1111"⟩), (0, ⟨"MyProject", "2222"⟩)] := by decide +kernel
  have hissues : second.after.issues.map ServerIssue.createdBy =
      [some ⟨"MyProject", "1111"⟩] := by decide +kernel
  obtain ⟨record, hrecord, hcreated⟩ := h (0, ⟨"MyProject", "2222"⟩) (by simp [hcomments])
  have hzero : (second.after.issues.map ServerIssue.createdBy)[0]? = some record.createdBy := by
    rw [List.getElem?_map, hrecord]
    rfl
  rw [hissues, hcreated] at hzero
  exact absurd hzero (by decide)

end

end MonascaNotification.JiraNotifier
