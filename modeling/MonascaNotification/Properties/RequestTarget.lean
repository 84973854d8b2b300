import MonascaNotification.Model.HipChat
import MonascaNotification.Python.Binary64
import MonascaNotification.Spec.Jira
import MonascaNotification.Spec.Query
import MonascaNotification.Spec.Slack
import MonascaNotification.Spec.Urljoin

/-!
# Where a notification is posted to

The Slack, HipChat and Jira plugins split the address into a URL without the query, and the
parameters of the query. For a web address the URL has the host and the path of the address and no
query, and the parameters have all its pairs, exactly under `TargetKept` and when no pair is blank
(`keeps_target_iff`).
-/

namespace MonascaNotification

open Infra Urlparse

/-- `url` and `query_params`, as the plugins take them from an address. -/
def requestTarget (U : Urllib) (address : String) : Except PyExn (String × QueryParams) := do
  let query ← U.query address
  let url ← U.withoutQuery address
  return (url, U.parseQs query)

/-! ## What the plugins send -/

section

variable {P : Platform} {R : Rendering} {U : Urllib} {n : Notification P} {address : String}

theorem SlackNotifier.requestTarget_of_target {conf : Conf} {t : Target}
    (h : target R U conf n = .ok t) (haddress : replaceHash n.address = .ok address) :
    requestTarget U address = .ok (t.url, t.params) := by
  obtain ⟨message, -, h⟩ := bind_eq_ok.mp h
  rw [haddress, ok_bind] at h
  obtain ⟨query, hquery, h⟩ := bind_eq_ok.mp h
  obtain ⟨url, hurl, h⟩ := bind_eq_ok.mp h
  cases h
  rw [requestTarget, hquery, ok_bind, hurl]
  rfl

theorem SlackNotifier.posts_requestTarget {conf : Conf} {cache : List String} {tr : PostTrace}
    {out : Except PyExn (Bool × List String)} (haddress : replaceHash n.address = .ok address)
    (h : Prog.Runs (sendNotification R U conf cache n) tr out) :
    ∀ post ∈ tr, requestTarget U address = .ok (post.1.url, post.1.params) := by
  rcases runs_sendNotification_iff.mp h with ⟨x, -, rfl, -⟩ | ⟨t, sent, next, ht, -, hsends⟩
  · exact fun post hpost => absurd hpost List.not_mem_nil
  · have htarget := requestTarget_of_target ht haddress
    intro post hpost
    cases hsends with
    | cached =>
      rw [List.mem_singleton.mp hpost]
      exact htarget
    | json =>
      rw [List.mem_singleton.mp hpost]
      exact htarget
    | data =>
      rcases List.mem_cons.mp hpost with rfl | hpost
      · exact htarget
      · rw [List.mem_singleton.mp hpost]
        exact htarget

theorem HipChatNotifier.posts_requestTarget {conf : Conf} {tr : PostTrace}
    {out : Except PyExn Bool} (haddress : n.address = .str address)
    (h : Prog.Runs (sendNotification R U conf n) tr out) :
    ∀ post ∈ tr, requestTarget U address = .ok (post.1.url, post.1.params) := by
  refine Prog.Uses.runs (S := fun options : RequestOptions =>
    requestTarget U address = .ok (options.url, options.params)) ?_ h
  rw [sendNotification, haddress]
  refine Prog.uses_bind Prog.uses_ofExcept fun message => ?_
  show Prog.Uses _ (Prog.bind (.ofExcept (U.query address)) _)
  cases hquery : U.query address with
  | error x => exact trivial
  | ok query =>
    show Prog.Uses _ (Prog.bind (.ofExcept (U.withoutQuery address)) _)
    cases hurl : U.withoutQuery address with
    | error x => exact trivial
    | ok url =>
      have htarget : requestTarget U address = .ok (url, U.parseQs query) := by
        rw [requestTarget, hquery, ok_bind, hurl]
        rfl
      refine Prog.uses_tryCatch ⟨htarget, fun answer => ?_⟩ fun _ => trivial
      exact Prog.uses_bind Prog.uses_ofExcept fun _ => trivial

/-- The workflow does not connect again. -/
theorem JiraNotifier.uses_jiraWorkflow (conf : Conf) (r : Request) :
    Prog.Uses (fun call => ∀ url auth proxies, call ≠ .connect url auth proxies)
      (jiraWorkflow P conf r) := by
  have hfind : Prog.Uses (fun call => ∀ url auth proxies, call ≠ .connect url auth proxies)
      (findIssue P conf r) := by
    refine Prog.uses_bind ⟨nofun, fun _ => Prog.uses_ofExcept⟩ fun issueList => ?_
    cases issueList with
    | nil => exact ⟨nofun, fun _ => Prog.uses_ofExcept⟩
    | cons issue rest =>
      dsimp only
      split
      · refine Prog.uses_bind ?_ fun _ => trivial
        rw [reopen_eq]
        refine Prog.uses_bind ⟨nofun, fun _ => Prog.uses_ofExcept⟩ fun offered => ?_
        cases offered.filter fun t => decide (IsReopening P t) with
        | nil => trivial
        | cons t ts => exact ⟨nofun, fun _ => Prog.uses_ofExcept⟩
      · trivial
  refine Prog.uses_bind hfind fun issue => ?_
  split
  · exact ⟨nofun, fun _ => Prog.uses_ofExcept⟩
  · trivial

theorem JiraNotifier.requestTarget_of_target {t : Target} (h : target U n = .ok t)
    (haddress : n.address = .str address) :
    ∃ params, requestTarget U address = .ok (t.url, params) := by
  rw [target, haddress, addressText, ok_bind] at h
  obtain ⟨query, hquery, h⟩ := bind_eq_ok.mp h
  obtain ⟨url, hurl, h⟩ := bind_eq_ok.mp h
  obtain ⟨project, -, h⟩ := bind_eq_ok.mp h
  cases h
  refine ⟨U.parseQs query, ?_⟩
  rw [requestTarget, hquery, ok_bind, hurl]
  rfl

theorem JiraNotifier.connects_requestTarget {conf : Conf} {format : Option (CustomFormat P)}
    {tr : JiraTrace} {out : Except PyExn Bool} (haddress : n.address = .str address)
    (h : Prog.Runs (sendNotification conf format R U n) tr out) :
    ∀ call ∈ tr, ∀ url auth proxies, call.1 = .connect url auth proxies →
      ∃ params, requestTarget U address = .ok (url, params) := by
  refine Prog.Uses.runs (S := fun call => ∀ url auth proxies, call = .connect url auth proxies →
    ∃ params, requestTarget U address = .ok (url, params)) ?_ h
  rw [sendNotification_bind]
  refine Prog.uses_bind Prog.uses_ofExcept fun jiraFields => ?_
  cases ht : target U n with
  | error x => trivial
  | ok t =>
    refine Prog.uses_tryCatch (Prog.uses_bind ⟨?_, fun _ => Prog.uses_ofExcept⟩ fun _ =>
      Prog.uses_bind Prog.uses_ofExcept fun fields => Prog.uses_bind ?_ fun _ => trivial)
      fun _ => trivial
    · rintro _ _ _ ⟨⟩
      exact requestTarget_of_target ht haddress
    · exact (uses_jiraWorkflow conf _).mono fun call hcall url auth proxies heq =>
        absurd heq (hcall url auth proxies)

end

/-! ## What it should be -/

/-- The same host and port, as `.hostname` and `.port` give them. -/
def SameHost (P : Platform) (netloc netloc' : List Char) : Prop :=
  hostname P netloc = hostname P netloc' ∧ port netloc = port netloc'

/--
The target keeps an address with the parts `s`: its scheme, host, port and path, no query in the
URL, and each `key=value` pair once.
-/
def KeepsTarget (P : Platform) (C : NetlocChecks) (s : SplitResult)
    (target : Except PyExn (String × QueryParams)) : Prop :=
  ∃ url params, target = .ok (url, params) ∧ ∃ u, urlsplit C url.toList [] = .ok u ∧
    u.scheme = s.scheme ∧ SameHost P u.netloc s.netloc ∧ SamePath u.path s.path ∧ u.query = [] ∧
    (keyValues u.query ++ flatten params).Perm (keyValues s.query)

/--
When the joined URL keeps the address. An address without a path stays as it is, and parameters of
the last segment are lost. Two slashes at the beginning of the path stand before a netloc.
-/
def TargetKept (P : Platform) (C : NetlocChecks) (s : SplitResult) : Prop :=
  if s.path = [] then s.query = []
  else if (splitParams s.path).1.take 2 ≠ ['/', '/'] then
    ';' ∉ (splitLast s.path).2 ∧ ¬ LosesSegment s.path
  else
    let netloc := (splitNetloc (splitParams s.path).1).1
    let rest := (splitNetloc (splitParams s.path).1).2
    if netloc ≠ [] then
      checkNetloc C netloc = .ok () ∧ SameHost P netloc s.netloc ∧ SamePath rest s.path
    else if rest = [] then s.query = [] ∧ s.path ≠ ['/', '/', ';']
    else SamePath rest s.path ∧ ¬ LosesSegment rest

variable {P : Platform} {C : NetlocChecks}

/-- Nothing after two slashes: the parameters come back, unless there is only the semicolon. -/
theorem samePath_slashes {last : List Char} (hlast : '/' ∉ last)
    (hname : (partition ';' last).1 = []) :
    SamePath ('/' :: '/' :: marked ';' (partition ';' last).2) ('/' :: '/' :: last) ↔
      '/' :: '/' :: last ≠ ['/', '/', ';'] := by
  rcases partition_cases ';' last with ⟨-, h⟩ | ⟨before, params, rfl, -, h⟩
  · rw [h] at hname ⊢
    obtain rfl : last = [] := hname
    exact iff_of_true rfl (by decide)
  · rw [h] at hname ⊢
    obtain rfl : before = [] := hname
    rw [List.nil_append, marked]
    by_cases hparams : params = []
    · subst hparams
      exact iff_of_false (by decide) (by decide)
    · rw [if_neg hparams]
      exact iff_of_true rfl fun heq => hparams (by simpa using heq)

/-- A last segment with parameters is not the last one of a path without them. -/
theorem last_ne_of_params {before directory last : List Char} (hparams : ';' ∈ last)
    (hbefore : before = [] ∨ before.head? = some '/')
    (hdirectory : directory = [] ∨ directory.head? = some '/') (hlast : '/' ∉ last)
    (hname : '/' ∉ (partition ';' last).1) :
    (dots.removeDots (segments (before ++ '/' :: (partition ';' last).1))).getLast? ≠
      (dots.removeDots (segments (directory ++ '/' :: last))).getLast? := by
  have hdot : ¬ dots.IsDot last := by
    rintro (rfl | rfl)
    · exact absurd hparams (by decide)
    · exact absurd hparams (by decide)
  rw [getLast?_removeDots_append hbefore hname, getLast?_removeDots_append hdirectory hlast,
    if_neg hdot]
  intro hsame
  have hmem : ';' ∈ if dots.IsDot (partition ';' last).1 then [] else (partition ';' last).1 := by
    rw [Option.some.inj hsame]
    exact hparams
  split at hmem
  · cases hmem
  · exact not_mem_partition ';' last hmem

/-- A lost segment is missed: the path without it is not the path of the address. -/
theorem tail_ne_of_losesSegment {s : SplitResult} (hs : Urlparse.Clean C s) (hpath : s.path ≠ [])
    (hrest : (splitNetloc (splitParams s.path).1).2.head? = some '/')
    (hnetloc : (splitNetloc (splitParams s.path).1).1 = [])
    (h : LosesSegment (splitNetloc (splitParams s.path).1).2) :
    (dots.removeDots (segments (splitNetloc (splitParams s.path).1).2)).tail ≠
      dots.removeDots (segments s.path) := by
  obtain ⟨directory, last, hsplit, hlast, hdirectory⟩ := hs.exists_directory hpath
  have hname := slash_not_mem_name hlast
  rw [hsplit, splitParams_append hlast] at hrest hnetloc h ⊢
  dsimp only at hrest hnetloc h ⊢
  obtain ⟨-, hfirst, hne⟩ := h
  obtain ⟨others, hothers⟩ := List.head?_eq_some_iff.mp hfirst
  have hmore : others ≠ [] := fun hnil => hne (by rw [hothers, hnil])
  obtain ⟨second, segs, rfl⟩ := List.exists_cons_of_ne_nil hmore
  by_cases hparams : ';' ∈ last
  · -- the last segment is another one
    obtain ⟨before, heq, hbefore⟩ := exists_splitNetloc_append hname hrest
    intro hsame
    refine last_ne_of_params hparams hbefore hdirectory hlast hname ?_
    rw [← heq, ← hsame, hothers, List.tail_cons, List.getLast?_cons_cons]
  · -- there is one segment less, at least
    rw [partition_of_not_mem hparams] at hrest hnetloc hothers ⊢
    dsimp only at hrest hnetloc hothers ⊢
    intro hsame
    have hlength : (dots.removeDots (segments (splitNetloc (directory ++ '/' :: last)).2)).length ≤
        (dots.removeDots (segments (directory ++ '/' :: last))).length := by
      rcases splitNetloc_path (directory ++ '/' :: last) with ⟨-, heq⟩ | heq
      · rw [heq]
      · obtain ⟨s, hslash⟩ := List.head?_eq_some_iff.mp hrest
        rw [hnetloc, List.nil_append] at heq
        obtain ⟨before, hbefore⟩ := removeDots_segments_slashes s
        rw [hslash] at heq ⊢
        rw [heq, hbefore, List.length_append]
        exact Nat.le_add_left _ _
    rw [← hsame, hothers] at hlength
    exact absurd hlength (by simp)

theorem samePath_of_slashes {s : SplitResult} (hs : Urlparse.Clean C s) (hpath : s.path ≠ [])
    (hnetloc : (splitNetloc (splitParams s.path).1).1 = [])
    (hrest : (splitNetloc (splitParams s.path).1).2 = []) :
    SamePath ((splitParams s.path).1 ++ marked ';' (splitParams s.path).2) s.path ↔
      s.path ≠ ['/', '/', ';'] := by
  obtain ⟨directory, last, hsplit, hlast, -⟩ := hs.exists_directory hpath
  have hname := slash_not_mem_name hlast
  rw [hsplit, splitParams_append hlast] at hnetloc hrest ⊢
  dsimp only at hnetloc hrest ⊢
  have hslashes : directory ++ '/' :: (partition ';' last).1 = ['/'] ++ '/' :: [] := by
    rcases splitNetloc_path (directory ++ '/' :: (partition ';' last).1) with ⟨-, h⟩ | h
    · rw [hrest] at h
      exact absurd h (by simp)
    · rwa [hnetloc, hrest] at h
  have hlasts := congrArg splitLast hslashes
  rw [splitLast_append hname, splitLast_append List.not_mem_nil] at hlasts
  obtain ⟨hdirectory, hnil⟩ := Prod.mk.inj hlasts
  obtain rfl := List.append_cancel_right hdirectory
  rw [hnil]
  exact samePath_slashes hlast hnil

theorem samePath_joinPath {s : SplitResult} (hs : Urlparse.Clean C s) (hpath : s.path ≠ [])
    (hrest : (splitNetloc (splitParams s.path).1).2.head? = some '/')
    (hnetloc : (splitNetloc (splitParams s.path).1).1 = []) :
    SamePath (rooted (joinPath (splitParams s.path).1 (splitNetloc (splitParams s.path).1).2))
      s.path ↔ SamePath (splitNetloc (splitParams s.path).1).2 s.path ∧
        ¬ LosesSegment (splitNetloc (splitParams s.path).1).2 := by
  have hlost := tail_ne_of_losesSegment hs hpath hrest hnetloc
  obtain ⟨r, hslash⟩ := List.head?_eq_some_iff.mp hrest
  rw [hslash] at hlost
  rw [SamePath, SamePath, hslash, removeDots_segments_joinPath]
  by_cases h : LosesSegment ('/' :: r)
  · rw [if_pos h]
    exact iff_of_false (hlost h) fun hboth => hboth.2 h
  · rw [if_neg h]
    exact (and_iff_left h).symm

/-- Without the parameters it is another path, when there are any. -/
theorem samePath_splitParams_iff {s : SplitResult} (hs : Urlparse.Clean C s) (hpath : s.path ≠ []) :
    SamePath (splitParams s.path).1 s.path ↔ ';' ∉ (splitLast s.path).2 := by
  obtain ⟨directory, last, hsplit, hlast, hdirectory⟩ := hs.exists_directory hpath
  have hname := slash_not_mem_name hlast
  rw [hsplit, splitParams_append hlast, splitLast_append hlast]
  dsimp only
  constructor
  · intro hsame hparams
    refine last_ne_of_params hparams hdirectory hdirectory hlast hname ?_
    exact congrArg List.getLast? hsame
  · intro hparams
    rw [partition_of_not_mem hparams]
    rfl

theorem requestParts_kept_iff {s : SplitResult} (hs : Urlparse.Clean C s) :
    (∃ u, requestParts C s = .ok u ∧ u.scheme = s.scheme ∧ SameHost P u.netloc s.netloc ∧
      SamePath u.path s.path ∧ u.query = []) ↔ TargetKept P C s := by
  rw [requestParts, TargetKept]
  by_cases hpath : s.path = []
  · rw [if_pos hpath, hpath, if_pos (show (splitParams []).1 = [] from rfl), exists_eq_ok_and,
      hpath]
    exact ⟨fun h => h.2.2.2, fun hquery => ⟨rfl, ⟨rfl, rfl⟩, rfl, hquery⟩⟩
  obtain ⟨hhead, hmem, -⟩ := hs.splitParams hpath
  have hne : (splitParams s.path).1 ≠ [] := by
    intro hnil
    rw [hnil] at hhead
    cases hhead
  have hrest := head?_splitNetloc hhead
    ⟨fun hc => hs.path.1 (hmem _ hc), fun hc => hs.path.2 (hmem _ hc)⟩
  rw [if_neg hne, if_neg hpath]
  by_cases hslashes : (splitParams s.path).1.take 2 = ['/', '/']
  · rw [if_neg (not_not_intro hslashes)]
    by_cases hnetloc : (splitNetloc (splitParams s.path).1).1 = []
    · rw [if_neg (not_not_intro hnetloc), if_neg (not_not_intro hnetloc)]
      by_cases hnil : (splitNetloc (splitParams s.path).1).2 = []
      · -- only the query of the address is left to be lost
        rw [if_pos hnil, if_pos hnil, ← samePath_of_slashes hs hpath hnetloc hnil, exists_eq_ok_and]
        exact ⟨fun h => h.2.2.symm, fun h => ⟨rfl, ⟨rfl, rfl⟩, h.symm⟩⟩
      · rw [if_neg hnil, if_neg hnil, exists_eq_ok_and,
          ← samePath_joinPath hs hpath (hrest.resolve_left hnil) hnetloc]
        exact ⟨fun h => h.2.2.1, fun h => ⟨rfl, ⟨rfl, rfl⟩, h, rfl⟩⟩
    · -- what follows the two slashes is read as another netloc
      rw [if_pos hnetloc, if_pos hnetloc]
      constructor
      · rintro ⟨u, h, -, hhost, hsame, -⟩
        obtain ⟨v, hcheck, rfl⟩ := map_eq_ok.mp h
        exact ⟨hcheck, hhost, hsame⟩
      · rintro ⟨hcheck, hhost, hsame⟩
        exact ⟨_, map_eq_ok.mpr ⟨(), hcheck, rfl⟩, rfl, hhost, hsame, rfl⟩
  · -- one slash: the path is joined as it stands
    have hsplit := splitNetloc_of_take hslashes
    have hsame := samePath_joinPath hs hpath (by rw [hsplit]; exact hhead) (by rw [hsplit])
    rw [hsplit] at hsame ⊢
    dsimp only at hsame ⊢
    have hkept : SamePath (rooted (joinPath (splitParams s.path).1 (splitParams s.path).1))
        s.path ↔ ';' ∉ (splitLast s.path).2 ∧ ¬ LosesSegment s.path := by
      rw [hsame, samePath_splitParams_iff hs hpath]
      refine and_congr_right fun hparams => ?_
      rw [splitParams_of_not_mem_last hparams]
    rw [if_neg (not_not_intro rfl), if_neg hne, if_pos hslashes, ← hkept, exists_eq_ok_and]
    exact ⟨fun h => h.2.2.1, fun h => ⟨rfl, ⟨rfl, rfl⟩, h, rfl⟩⟩

/-! ## The request target -/

theorem keepsTarget_requestTarget_iff {address : String} {s : SplitResult}
    (h : urlsplit C address.toList [] = .ok s)
    (hscheme : s.scheme = "http".toList ∨ s.scheme = "https".toList) (hnetloc : s.netloc ≠ []) :
    KeepsTarget P C s (requestTarget (urllib C) address) ↔
      (∀ item ∈ items s.query, ¬ IsBlank item) ∧ TargetKept P C s := by
  have hs := clean_of_urlsplit h hscheme hnetloc
  have hparts := urlsplit_withoutQuery h hs
  have hquery : (urllib C).query address = .ok (String.ofList s.query) := by
    show (urlsplit C address.toList []).map _ = _
    rw [h]
    rfl
  have hparams : (urllib C).parseQs (String.ofList s.query) = parseQs s.query := by
    show parseQs (String.ofList s.query).toList = _
    rw [String.toList_ofList]
  have hperm : (keyValues [] ++ flatten (parseQs s.query)).Perm (keyValues s.query) ↔
      ∀ item ∈ items s.query, ¬ IsBlank item := by
    rw [← perm_keyValues_iff]
    exact (perm_flatten_parseQs s.query).congr_left _
  rw [← requestParts_kept_iff hs, ← hparts, ← hperm, requestTarget, hquery, ok_bind, hparams,
    KeepsTarget]
  cases hurl : (urllib C).withoutQuery address with
  | error x =>
    -- nothing is sent, and nothing is kept
    constructor
    · rintro ⟨url, params, heq, -⟩
      cases heq
    · rintro ⟨-, u, heq, -⟩
      cases heq
  | ok url =>
    constructor
    · rintro ⟨url', params, heq, u, hu, hsame, hhost, hpath, hempty, hpairs⟩
      cases heq
      rw [hempty] at hpairs
      exact ⟨hpairs, u, hu, hsame, hhost, hpath, hempty⟩
    · rintro ⟨hpairs, u, hu, hsame, hhost, hpath, hempty⟩
      refine ⟨url, parseQs s.query, rfl, u, hu, hsame, hhost, hpath, hempty, ?_⟩
      rw [hempty]
      exact hpairs

/--
**The request target.** What the plugins post to, or connect to, keeps the address exactly when no
pair of the query is blank and the joined URL keeps the path. They send to nothing else.
-/
theorem keeps_target_iff (P : Platform) (C : NetlocChecks) {address : String} {s : SplitResult}
    (h : urlsplit C address.toList [] = .ok s)
    (hscheme : s.scheme = "http".toList ∨ s.scheme = "https".toList) (hnetloc : s.netloc ≠ []) :
    (KeepsTarget P C s (requestTarget (urllib C) address) ↔
      (∀ item ∈ items s.query, ¬ IsBlank item) ∧ TargetKept P C s) ∧
    (∀ (R : Rendering) (conf : SlackNotifier.Conf) (cache : List String) (n : Notification P)
      (tr : SlackNotifier.PostTrace) (out : Except PyExn (Bool × List String)),
      SlackNotifier.replaceHash n.address = .ok address →
      Prog.Runs (SlackNotifier.sendNotification R (urllib C) conf cache n) tr out →
      ∀ post ∈ tr, requestTarget (urllib C) address = .ok (post.1.url, post.1.params)) ∧
    (∀ (R : Rendering) (conf : HipChatNotifier.Conf) (n : Notification P)
      (tr : HipChatNotifier.PostTrace) (out : Except PyExn Bool), n.address = .str address →
      Prog.Runs (HipChatNotifier.sendNotification R (urllib C) conf n) tr out →
      ∀ post ∈ tr, requestTarget (urllib C) address = .ok (post.1.url, post.1.params)) ∧
    (∀ (R : Rendering) (conf : JiraNotifier.Conf) (format : Option (JiraNotifier.CustomFormat P))
      (n : Notification P) (tr : JiraNotifier.JiraTrace) (out : Except PyExn Bool),
      n.address = .str address →
      Prog.Runs (JiraNotifier.sendNotification conf format R (urllib C) n) tr out →
      ∀ call ∈ tr, ∀ url auth proxies, call.1 = .connect url auth proxies →
        ∃ params, requestTarget (urllib C) address = .ok (url, params)) :=
  ⟨keepsTarget_requestTarget_iff h hscheme hnetloc,
    fun _ _ _ _ _ _ haddress hrun => SlackNotifier.posts_requestTarget haddress hrun,
    fun _ _ _ _ _ haddress hrun => HipChatNotifier.posts_requestTarget haddress hrun,
    fun _ _ _ _ _ _ haddress hrun => JiraNotifier.connects_requestTarget haddress hrun⟩

theorem keeps_target_documented :
    KeepsTarget cpython asciiChecks
      ⟨"https".toList, "slack.com".toList, "/api/chat.postMessage".toList,
        "token=t&channel=%23ops".toList, []⟩
      (requestTarget (urllib asciiChecks)
        "https://slack.com/api/chat.postMessage?token=t&channel=%23ops") := by
  refine (keeps_target_iff cpython asciiChecks (by decide +kernel) (.inr rfl) (by decide)).1.mpr
    ⟨by decide +kernel, ?_⟩
  rw [TargetKept, if_neg (by decide), if_pos (by decide +kernel)]
  decide +kernel

/--
Without a path the query stays in the URL and is sent twice. Two slashes lead to another host,
parameters of the path are lost, and so are blank values.
-/
theorem loses_target :
    requestTarget (urllib asciiChecks) "http://hooks?token=1" =
      .ok ("http://hooks?token=1", [("token", ["1"])]) ∧
    ∀ address ∈ ["http://hooks?token=1", "http://hooks//room/1", "http://hooks/a;b",
        "http://hooks/?token="], ∃ s, urlsplit asciiChecks address.toList [] = .ok s ∧
      s.scheme = "http".toList ∧ s.netloc = "hooks".toList ∧
      ¬ KeepsTarget cpython asciiChecks s (requestTarget (urllib asciiChecks) address) := by
  refine ⟨by decide +kernel, fun address haddress => ?_⟩
  simp only [List.mem_cons, List.not_mem_nil, or_false] at haddress
  rcases haddress with rfl | rfl | rfl | rfl
  · refine ⟨⟨"http".toList, "hooks".toList, [], "token=1".toList, []⟩, by decide +kernel, rfl,
      rfl, ?_⟩
    rw [keepsTarget_requestTarget_iff (by decide +kernel) (.inl rfl) (by decide)]
    rintro ⟨-, hkept⟩
    rw [TargetKept, if_pos rfl] at hkept
    exact absurd hkept (by decide)
  · refine ⟨⟨"http".toList, "hooks".toList, "//room/1".toList, [], []⟩, by decide +kernel, rfl,
      rfl, ?_⟩
    rw [keepsTarget_requestTarget_iff (by decide +kernel) (.inl rfl) (by decide)]
    rintro ⟨-, hkept⟩
    rw [TargetKept, if_neg (by decide), if_neg (by decide +kernel), if_pos (by decide +kernel)]
      at hkept
    have hother : hostname cpython "room".toList ≠ hostname cpython "hooks".toList := by
      decide +kernel
    exact hother hkept.2.1.1
  · refine ⟨⟨"http".toList, "hooks".toList, "/a;b".toList, [], []⟩, by decide +kernel, rfl,
      rfl, ?_⟩
    rw [keepsTarget_requestTarget_iff (by decide +kernel) (.inl rfl) (by decide)]
    rintro ⟨-, hkept⟩
    rw [TargetKept, if_neg (by decide), if_pos (by decide +kernel)] at hkept
    exact absurd hkept.1 (by decide +kernel)
  · refine ⟨⟨"http".toList, "hooks".toList, "/".toList, "token=".toList, []⟩, by decide +kernel,
      rfl, rfl, ?_⟩
    rw [keepsTarget_requestTarget_iff (by decide +kernel) (.inl rfl) (by decide)]
    rintro ⟨hblank, -⟩
    exact absurd hblank (by decide +kernel)

end MonascaNotification
