import MonascaNotification.Infra.Except
import MonascaNotification.Infra.Triple
import MonascaNotification.Model.Jira

/-!
# The Jira workflow against a server

`Server` is what the plugin relies on: the search gives exactly the issues of a project and a
reporter whose summary has a text in it, and an issue keeps these for good. Each call may raise,
and may have taken effect before it did.

The server remembers for which alarm an issue was created and a comment was added. Nothing that
it answers depends on this.

* `Keeps.triple` — what has to be shown for a send to keep an invariant of the server
* `runs_deliver_true` — the calls of a send that returned `True`
-/

namespace MonascaNotification.JiraNotifier

open Infra Prog

variable {P : Platform} {R : Rendering} {U : Urllib} {conf : Conf} {n : Notification P}

/-! ## The server -/

/-- What a send is about: the project of the address, and the alarm id. -/
structure Alarm where
  project : String
  alarmId : String
  deriving DecidableEq

structure ServerIssue where
  project : String
  reporter : String
  summary : String
  /-- The alarm of the send that created it, if it was a send. -/
  createdBy : Option Alarm
  deriving DecidableEq

/-- The key of an issue is its place in the list. -/
structure Server where
  issues : List ServerIssue
  status : Nat → String
  /-- The comments of sends: on which issue, and for which alarm. -/
  comments : List (Nat × Alarm)

/-- The search: project, reporter, and the text somewhere in the summary. -/
def Matches (query : SearchQuery) (issue : ServerIssue) : Prop :=
  issue.project = query.project ∧ issue.reporter = query.reporter ∧
    query.text.toList <:+: issue.summary.toList

instance (query : SearchQuery) (issue : ServerIssue) : Decidable (Matches query issue) :=
  inferInstanceAs (Decidable (_ ∧ _ ∧ _))

/-- The issues that a search finds. -/
def Server.hits (s : Server) (query : SearchQuery) : List Issue :=
  s.issues.zipIdx.filterMap fun entry =>
    if Matches query entry.1 then some ⟨entry.2, s.status entry.2⟩ else none

theorem Server.mem_hits {s : Server} {query : SearchQuery} {issue : Issue} :
    issue ∈ s.hits query ↔ issue.status = s.status issue.key ∧
      ∃ record, s.issues[issue.key]? = some record ∧ Matches query record := by
  rw [hits, List.mem_filterMap]
  constructor
  · rintro ⟨⟨record, k⟩, hmem, hissue⟩
    rw [List.mk_mem_zipIdx_iff_getElem?] at hmem
    split at hissue
    · next hmatches =>
      cases hissue
      exact ⟨rfl, record, hmem, hmatches⟩
    · cases hissue
  · rintro ⟨hstatus, record, hrecord, hmatches⟩
    refine ⟨(record, issue.key), List.mk_mem_zipIdx_iff_getElem?.mpr hrecord, ?_⟩
    rw [if_pos hmatches, ← hstatus]

/-- A search that finds nothing: no issue matches. -/
theorem Server.not_matches_of_hits {s : Server} {query : SearchQuery} (h : s.hits query = [])
    {record : ServerIssue} (hrecord : record ∈ s.issues) : ¬ Matches query record := by
  intro hmatches
  obtain ⟨k, hk⟩ := List.getElem?_of_mem hrecord
  have hmem : (⟨k, s.status k⟩ : Issue) ∈ s.hits query :=
    Server.mem_hits.mpr ⟨rfl, record, hk, hmatches⟩
  rw [h] at hmem
  cases hmem

/-- The issue that a call of `create_issue` adds. -/
def IssueDict.record (fields : IssueDict) (reporter : String) (alarm : Alarm) : ServerIssue where
  project := fields.project
  reporter := reporter
  summary := fields.summary
  createdBy := some alarm

/-- What the calls of a send for `alarm` do, with the account `reporter`. -/
def answering (reporter : String) (alarm : Alarm) : Answering Server JiraCall JiraCall.Answer
  | s, .connect _ _ _, _, s' => s' = s
  | s, .searchIssues query, answer, s' =>
    s' = s ∧ ∀ hits, answer = .ok hits → hits.Perm (s.hits query)
  | s, .createIssue fields, answer, s' =>
    (s' = s ∧ ∃ x, answer = .error x) ∨
    ((∃ status, s' = { s with issues := s.issues ++ [fields.record reporter alarm], status }) ∧
      ∀ issue, answer = .ok issue → issue.key = s.issues.length)
  | s, .transitions _, _, s' => s' = s
  | s, .transitionIssue _ _, answer, s' =>
    (s' = s ∧ ∃ x, answer = .error x) ∨ ∃ status, s' = { s with status }
  | s, .addComment issue _, answer, s' =>
    (s' = s ∧ ∃ x, answer = .error x) ∨
      s' = { s with comments := s.comments ++ [(issue.key, alarm)] }

/-- A step of others: any status may change, and issues of other reporters may be added. -/
def Others (reporter : String) (s s' : Server) : Prop :=
  s'.comments = s.comments ∧ ∃ added, s'.issues = s.issues ++ added ∧
    ∀ record ∈ added, record.reporter ≠ reporter ∧ record.createdBy = none

/-! ## The parts of a send -/

/-- What `send_notification` computes before it connects, with the default format. -/
def request (R : Rendering) (U : Urllib) (n : Notification P) : Except PyExn Request := do
  let fields ← buildDefaultJiraMessage R n
  let target ← target U n
  return { target with fields, alarmId := n.alarmId.toStr P }

def Request.alarm (r : Request) : Alarm := ⟨r.project, r.alarmId⟩

/-- The `try` statement of `send_notification`. -/
def deliver (P : Platform) (conf : Conf) (r : Request) : JiraPy Bool :=
  Prog.tryCatch
    ((connect conf r.url).bind fun _ => (jiraWorkflow P conf r).bind fun _ => .ret true)
    (fun _ => .ret false)

/-- The `try` statement with fields that may be incomplete. -/
def deliverFields (conf : Conf) (n : Notification P) (jiraFields : Fields) (target : Target) :
    JiraPy Bool :=
  Prog.tryCatch
    ((connect conf target.url).bind fun _ => (Prog.ofExcept jiraFields.given).bind fun fields =>
      (jiraWorkflow P conf { target with fields, alarmId := n.alarmId.toStr P }).bind fun _ =>
        .ret true)
    (fun _ => .ret false)

theorem sendNotification_bind (conf : Conf) (format : Option (CustomFormat P)) (R : Rendering)
    (U : Urllib) (n : Notification P) : sendNotification conf format R U n =
      (Prog.ofExcept (buildJiraMessage format R n)).bind fun jiraFields =>
        (Prog.ofExcept (target U n)).bind (deliverFields conf n jiraFields) := rfl

/-- A request as `send_notification` makes it: with its message, and for its address. -/
structure IsRequest (format : Option (CustomFormat P)) (R : Rendering) (U : Urllib)
    (n : Notification P) (r : Request) : Prop where
  fields : ∃ jiraFields, buildJiraMessage format R n = .ok jiraFields ∧
    jiraFields.given = .ok r.fields
  target : target U n = .ok r.toTarget
  alarmId : r.alarmId = n.alarmId.toStr P

theorem deliverFields_of_given {jiraFields : Fields} {fields : JiraFields}
    (h : jiraFields.given = .ok fields) (target : Target) : deliverFields conf n jiraFields target =
      deliver P conf { target with fields, alarmId := n.alarmId.toStr P } := by
  rw [deliverFields, h]
  rfl

theorem sendNotification_eq (conf : Conf) (R : Rendering) (U : Urllib) (n : Notification P) :
    sendNotification conf none R U n = (Prog.ofExcept (request R U n)).bind (deliver P conf) := by
  rw [sendNotification_bind, buildJiraMessage, request]
  cases buildDefaultJiraMessage R n with
  | error x => rfl
  | ok fields =>
    cases target U n with
    | error x => rfl
    | ok target => exact deliverFields_of_given rfl target

theorem isRequest_none_iff {r : Request} : IsRequest none R U n r ↔ request R U n = .ok r := by
  constructor
  · rintro ⟨⟨jiraFields, hfields, hgiven⟩, htarget, halarmId⟩
    obtain ⟨fields, hbuild, rfl⟩ := map_eq_ok.mp hfields
    obtain ⟨t, fields', alarmId⟩ := r
    obtain rfl : fields = fields' := Except.ok.inj hgiven
    obtain rfl : alarmId = n.alarmId.toStr P := halarmId
    rw [request, hbuild, ok_bind, htarget]
    rfl
  · intro h
    obtain ⟨fields, hbuild, h⟩ := bind_eq_ok.mp h
    obtain ⟨t, htarget, h⟩ := bind_eq_ok.mp h
    cases h
    exact ⟨⟨defaultFields fields, map_eq_ok.mpr ⟨fields, hbuild, rfl⟩, rfl⟩, htarget, rfl⟩

/-- What the request has from the notification. -/
theorem request_eq_ok {r : Request} (h : request R U n = .ok r) :
    r.fields.summary = summary n ∧ r.alarmId = n.alarmId.toStr P ∧ r.fields.comments ≠ "" := by
  obtain ⟨fields, hfields, h⟩ := bind_eq_ok.mp h
  obtain ⟨target, -, h⟩ := bind_eq_ok.mp h
  cases h
  rw [buildDefaultJiraMessage] at hfields
  obtain ⟨body, -, hfields⟩ := bind_eq_ok.mp hfields
  cases hfields
  refine ⟨rfl, rfl, ?_⟩
  show "{code}" ++ R.dumps body ++ "{code}" ≠ ""
  intro hempty
  have hlength := congrArg String.length hempty
  simp at hlength

/-- The alarm id is the end of the summary. -/
theorem alarmId_suffix_summary (n : Notification P) :
    (n.alarmId.toStr P).toList <:+ (summary n).toList := by
  unfold summary
  rw [String.toList_append]
  exact List.suffix_append _ _

theorem alarmId_infix_summary {r : Request} (h : request R U n = .ok r) :
    r.alarmId.toList <:+: r.fields.summary.toList := by
  obtain ⟨hsummary, hid, -⟩ := request_eq_ok h
  have hinfix := (alarmId_suffix_summary n).isInfix
  rw [← hsummary, ← hid] at hinfix
  exact hinfix

/-- The first of the transitions that reopen an issue, if there is any. -/
def makeFirst (issue : Issue) : List Transition → JiraPy Unit
  | t :: _ => transitionIssue issue t.id
  | [] => .ret ()

theorem reopen_eq (issue : Issue) : reopen P issue = (transitions issue).bind fun offered =>
    makeFirst issue (offered.filter fun t => decide (IsReopening P t)) := rfl

/-! ## Invariants of the server -/

/--
What an invariant has to satisfy for a send: that it is kept when an issue is created and none
matched, when a status changes, and when a comment is added to an issue that is `Mine`.
-/
structure Keeps (conf : Conf) (r : Request) (Inv : Server → Prop) (Mine : ServerIssue → Prop) :
    Prop where
  found : ∀ s record, Inv s → record ∈ s.issues → Matches (r.query conf) record → Mine record
  create : ∀ s status, Inv s → (∀ record ∈ s.issues, ¬ Matches (r.query conf) record) →
    Inv { s with issues := s.issues ++ [r.issueDict.record conf.user r.alarm], status }
  new : Mine (r.issueDict.record conf.user r.alarm)
  status : ∀ s status, Inv s → Inv { s with status }
  comment : ∀ s k record, Inv s → s.issues[k]? = some record → Mine record →
    Inv { s with comments := s.comments ++ [(k, r.alarm)] }

namespace Keeps

variable {r : Request} {Inv : Server → Prop} {Mine : ServerIssue → Prop}

/-- The state in which an issue is ready for a comment. -/
def Ready (Inv : Server → Prop) (Mine : ServerIssue → Prop) (issue : Issue) (s : Server) : Prop :=
  Inv s ∧ ∃ record, s.issues[issue.key]? = some record ∧ Mine record

theorem triple_reopen (h : Keeps conf r Inv Mine) (issue : Issue) :
    Triple (answering conf.user r.alarm) (Ready Inv Mine issue) (reopen P issue)
      fun _ s => Ready Inv Mine issue s := by
  have hstatus : ∀ {s s'}, Ready Inv Mine issue s → (∃ status, s' = { s with status }) →
      Ready Inv Mine issue s' := by
    rintro s _ ⟨hinv, hmine⟩ ⟨status, rfl⟩
    exact ⟨h.status s status hinv, hmine⟩
  rw [reopen_eq]
  refine triple_perform fun answer => ?_
  cases answer with
  | error x =>
    refine triple_raise ?_
    rintro s ⟨_, hready, rfl⟩
    exact hready
  | ok offered =>
    show Triple _ _ (makeFirst issue (offered.filter fun t => decide (IsReopening P t))) _
    cases offered.filter fun t => decide (IsReopening P t) with
    | nil =>
      refine triple_ret ?_
      rintro s ⟨_, hready, rfl⟩
      exact hready
    | cons t _ =>
      refine triple_perform fun answer => triple_ofExcept ?_
      rintro s ⟨s₁, ⟨_, hready, rfl⟩, ⟨rfl, -⟩ | hstatus'⟩
      · exact hready
      · exact hstatus hready hstatus'

theorem triple_findIssue (h : Keeps conf r Inv Mine) :
    Triple (answering conf.user r.alarm) Inv (findIssue P conf r)
      fun out s => Inv s ∧ ∀ issue, out = .ok issue → Ready Inv Mine issue s := by
  refine triple_perform fun answer => ?_
  cases answer with
  | error x =>
    refine triple_raise ?_
    rintro s ⟨_, hinv, rfl, -⟩
    exact ⟨hinv, nofun⟩
  | ok hits =>
    cases hits with
    | nil =>
      -- the issue may be there even when `create_issue` raised
      refine triple_perform fun answer => triple_ofExcept ?_
      rintro s ⟨_, ⟨s₀, hinv, rfl, hperm⟩, ⟨rfl, x, rfl⟩ | ⟨⟨status, rfl⟩, hkey⟩⟩
      · exact ⟨hinv, nofun⟩
      · have hnone := (hperm [] rfl).nil_eq.symm
        have hcreate := h.create _ status hinv fun record => Server.not_matches_of_hits hnone
        refine ⟨hcreate, fun issue hissue => ⟨hcreate, _, ?_, h.new⟩⟩
        rw [hkey issue hissue]
        simp
    | cons issue hits =>
      -- whichever hit comes first, it matches
      have hready : ∀ s, (∃ s₀, Inv s₀ ∧ answering conf.user r.alarm s₀
          (.searchIssues (r.query conf)) (.ok (issue :: hits)) s) → Ready Inv Mine issue s := by
        rintro s ⟨s₀, hinv, rfl, hperm⟩
        have hmem : issue ∈ s.hits (r.query conf) :=
          (hperm _ rfl).mem_iff.mp List.mem_cons_self
        obtain ⟨-, record, hrecord, hmatches⟩ := Server.mem_hits.mp hmem
        exact ⟨hinv, record, hrecord,
          h.found s record hinv (List.mem_of_getElem? hrecord) hmatches⟩
      show Triple _ _ (if IsClosed P issue.status then
        (reopen P issue).bind fun _ => .ret issue else .ret issue) _
      split
      · refine ((h.triple_reopen issue).mono hready fun _ _ hs => hs).bind
          (fun _ => triple_ret fun s hs => ?_) fun x s hs => ⟨hs.1, nofun⟩
        refine ⟨hs.1, fun issue' heq => ?_⟩
        cases heq
        exact hs
      · refine triple_ret fun s hs => ?_
        refine ⟨(hready s hs).1, fun issue' heq => ?_⟩
        cases heq
        exact hready s hs

/-- **A send keeps the invariant**, whatever raises. -/
theorem triple (h : Keeps conf r Inv Mine) :
    Triple (answering conf.user r.alarm) Inv (deliver P conf r) fun _ s => Inv s := by
  have hconnect : Triple (answering conf.user r.alarm) Inv (connect conf r.url)
      fun _ s => Inv s := by
    refine triple_perform fun answer => triple_ofExcept ?_
    rintro s ⟨_, hinv, rfl⟩
    exact hinv
  have hflow : Triple (answering conf.user r.alarm) Inv (jiraWorkflow P conf r)
      fun _ s => Inv s := by
    refine h.triple_findIssue.bind (fun issue => ?_) fun x s hs => hs.1
    show Triple _ _ (if r.fields.comments ≠ "" then addComment issue r.fields.comments
      else .ret ()) _
    split
    · refine triple_perform fun answer => triple_ofExcept ?_
      rintro s ⟨s₀, ⟨hinv, hready⟩, ⟨rfl, -⟩ | rfl⟩
      · exact hinv
      · obtain ⟨-, record, hrecord, hmine⟩ := hready issue rfl
        exact h.comment s₀ issue.key record hinv hrecord hmine
    · exact triple_ret fun _ hs => hs.1
  have hbody : Triple (answering conf.user r.alarm) Inv
      ((connect conf r.url).bind fun _ => (jiraWorkflow P conf r).bind fun _ => .ret true)
      fun _ s => Inv s :=
    hconnect.bind (fun _ => hflow.bind (fun _ => triple_ret fun _ hs => hs) fun _ _ hs => hs)
      fun _ _ hs => hs
  exact hbody.tryCatch (fun _ _ hs => hs) fun x => triple_ret fun _ hs => hs

end Keeps

/-! ## A send that succeeds -/

/-- The calls that add a comment. -/
def IsComment : JiraCall → Prop
  | .addComment _ _ => True
  | _ => False

/--
How the workflow gets to its issue without an exception: it creates one, or it takes one that is
not closed, or it takes a closed one and asks for the transitions, and then makes the first one
that reopens it, if there is any.
-/
inductive Finds (P : Platform) (conf : Conf) (r : Request) : JiraTrace → Issue → Prop where
  | created {issue : Issue} : Finds P conf r
      [⟨.searchIssues (r.query conf), (.ok [] : Except PyExn (List Issue))⟩,
       ⟨.createIssue r.issueDict, (.ok issue : Except PyExn Issue)⟩] issue
  | isOpen {issue : Issue} {hits : List Issue} : ¬ IsClosed P issue.status → Finds P conf r
      [⟨.searchIssues (r.query conf), (.ok (issue :: hits) : Except PyExn (List Issue))⟩] issue
  | stays {issue : Issue} {hits : List Issue} {offered : List Transition} :
      IsClosed P issue.status → (∀ t ∈ offered, ¬ IsReopening P t) → Finds P conf r
      [⟨.searchIssues (r.query conf), (.ok (issue :: hits) : Except PyExn (List Issue))⟩,
       ⟨.transitions issue, (.ok offered : Except PyExn (List Transition))⟩] issue
  | reopened {issue : Issue} {hits : List Issue} {offered : List Transition} {t : Transition} :
      IsClosed P issue.status → t ∈ offered → IsReopening P t → Finds P conf r
      [⟨.searchIssues (r.query conf), (.ok (issue :: hits) : Except PyExn (List Issue))⟩,
       ⟨.transitions issue, (.ok offered : Except PyExn (List Transition))⟩,
       ⟨.transitionIssue issue t.id, (.ok () : Except PyExn Unit)⟩] issue

theorem Finds.noComment {r : Request} {tr : JiraTrace} {issue : Issue}
    (h : Finds P conf r tr issue) : ∀ ev ∈ tr, ¬ IsComment ev.1 := by
  cases h <;> simp [IsComment]

theorem runs_reopen {issue : Issue} {tr : JiraTrace} (h : Runs (reopen P issue) tr (.ok ())) :
    ∃ offered, (tr = [⟨.transitions issue, (.ok offered : Except PyExn (List Transition))⟩] ∧
        ∀ t ∈ offered, ¬ IsReopening P t) ∨
      ∃ t ∈ offered, IsReopening P t ∧
        tr = [⟨.transitions issue, (.ok offered : Except PyExn (List Transition))⟩,
          ⟨.transitionIssue issue t.id, (.ok () : Except PyExn Unit)⟩] := by
  rw [reopen_eq] at h
  obtain ⟨answer, tr', rfl, h⟩ := h
  cases answer with
  | error x => cases h.2
  | ok offered =>
    refine ⟨offered, ?_⟩
    replace h : Runs (makeFirst issue (offered.filter fun t => decide (IsReopening P t))) tr'
      (.ok ()) := h
    cases hfilter : offered.filter fun t => decide (IsReopening P t) with
    | nil =>
      rw [hfilter] at h
      obtain ⟨rfl, -⟩ := h
      refine Or.inl ⟨rfl, fun t ht => ?_⟩
      simpa using List.filter_eq_nil_iff.mp hfilter t ht
    | cons t _ =>
      rw [hfilter] at h
      obtain ⟨answer, tr'', rfl, h⟩ := h
      obtain ⟨rfl, rfl⟩ := runs_ofExcept.mp h
      have ht : t ∈ offered.filter fun t => decide (IsReopening P t) := by
        rw [hfilter]
        exact List.mem_cons_self
      rw [List.mem_filter, decide_eq_true_iff] at ht
      exact Or.inr ⟨t, ht.1, ht.2, rfl⟩

theorem runs_findIssue {r : Request} {tr : JiraTrace} {issue : Issue}
    (h : Runs (findIssue P conf r) tr (.ok issue)) : Finds P conf r tr issue := by
  obtain ⟨answer, tr', rfl, h⟩ := h
  cases answer with
  | error x => cases h.2
  | ok hits =>
    cases hits with
    | nil =>
      obtain ⟨answer, tr'', rfl, h⟩ := h
      obtain ⟨rfl, rfl⟩ := runs_ofExcept.mp h
      exact .created
    | cons first hits =>
      replace h : Runs (if IsClosed P first.status then
        (reopen P first).bind fun _ => .ret first else .ret first) tr' (.ok issue) := h
      split at h
      · next hclosed =>
        obtain ⟨tr₁, tr₂, _, rfl, hreopen, rfl, heq⟩ := runs_bind_ok.mp h
        cases heq
        rw [List.append_nil]
        obtain ⟨offered, ⟨rfl, hnone⟩ | ⟨t, ht, hopens, rfl⟩⟩ := runs_reopen hreopen
        · exact .stays hclosed hnone
        · exact .reopened hclosed ht hopens
      · next hopen =>
        obtain ⟨rfl, heq⟩ := h
        cases heq
        exact .isOpen hopen

/-- **The calls of a send that returned `True`**: nothing raised, and one comment at the end. -/
theorem runs_deliver_true {r : Request} (hcomments : r.fields.comments ≠ "") {tr : JiraTrace}
    (h : Runs (deliver P conf r) tr (.ok true)) :
    ∃ tr' issue, Finds P conf r tr' issue ∧
      tr = ⟨.connect r.url (conf.user, conf.password) conf.proxy,
          (.ok () : Except PyExn Unit)⟩ :: tr' ++
        [⟨.addComment issue r.fields.comments, (.ok () : Except PyExn Unit)⟩] := by
  obtain ⟨out, hbody, hout⟩ := runs_tryCatch_ret.mp h
  cases out with
  | error x => cases hout
  | ok b =>
    obtain ⟨tr₁, tr₂, _, rfl, ⟨answer, tr₀, rfl, hconnect⟩, hrest⟩ := runs_bind_ok.mp hbody
    obtain ⟨rfl, rfl⟩ := runs_ofExcept.mp hconnect
    obtain ⟨tr₃, tr₄, _, rfl, hflow, rfl, -⟩ := runs_bind_ok.mp hrest
    obtain ⟨tr₅, tr₆, issue, rfl, hfind, hcomment⟩ := runs_bind_ok.mp hflow
    replace hcomment : Runs (if r.fields.comments ≠ "" then addComment issue r.fields.comments
      else .ret ()) tr₆ (.ok ()) := hcomment
    rw [if_pos hcomments] at hcomment
    obtain ⟨answer, tr₇, rfl, hanswer⟩ := hcomment
    obtain ⟨rfl, rfl⟩ := runs_ofExcept.mp hanswer
    exact ⟨tr₅, issue, runs_findIssue hfind, by simp⟩

end MonascaNotification.JiraNotifier
