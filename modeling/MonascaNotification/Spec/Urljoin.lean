import MonascaNotification.Spec.Urlparse

/-!
# Joining an address with its own path

The path of an address as a list of segments, and what `urljoin(address, urlparse(address).path)`
is for `http` and `https` addresses with a netloc: `requestParts`, the parts of the joined URL
(`urlsplit_withoutQuery`).
-/

namespace MonascaNotification.Urlparse

open Infra

variable {C : NetlocChecks}

/-! ## Segments -/

/-- The segments after the first slash. -/
def segments (path : List Char) : List (List Char) := (path.drop 1).splitOn '/'

/-- The same path, up to dot segments. An empty path is the root. -/
def SamePath (p q : List Char) : Prop :=
  dots.removeDots (segments p) = dots.removeDots (segments q)

instance (p q : List Char) : Decidable (SamePath p q) := inferInstanceAs (Decidable (_ = _))

theorem segments_slash (s : List Char) : segments ('/' :: s) = s.splitOn '/' := rfl

theorem slash_not_mem_removeDots {path seg : List Char}
    (h : seg ∈ dots.removeDots (segments path)) : '/' ∉ seg := by
  rcases Dots.mem_resolve h with rfl | h | h
  · exact List.not_mem_nil
  · cases h
  · exact not_mem_of_mem_splitOn h

/-- A path is made of its segments, and the dots were not the last of them. -/
theorem removeDots_segments_ne_nil (path : List Char) : dots.removeDots (segments path) ≠ [] := by
  intro hnil
  obtain ⟨before, last, hlast⟩ := (segments path).eq_nil_or_concat.resolve_left
    (List.splitOn_ne_nil '/' _)
  have h := Dots.getLast?_resolve_concat (D := dots) [] before last
  rw [← List.concat_eq_append, ← hlast] at h
  rw [Dots.removeDots] at hnil
  rw [hnil] at h
  cases h

/-! ## The last segment -/

theorem splitLast_append {directory last : List Char} (h : '/' ∉ last) :
    splitLast (directory ++ '/' :: last) = (directory ++ ['/'], last) := by
  have hlast := bne_of_not_mem fun hmem => h (List.mem_reverse.mp hmem)
  obtain ⟨htake, hdrop⟩ := takeWhile_append_cons '/' directory.reverse hlast rfl
  have hreverse :
      (directory ++ '/' :: last).reverse = last.reverse ++ '/' :: directory.reverse := by
    rw [List.reverse_append, List.reverse_cons, List.append_assoc]
    rfl
  rw [splitLast, hreverse, htake, hdrop, List.reverse_reverse, List.reverse_cons,
    List.reverse_reverse]

/-- A path with a slash is a directory and a last segment. -/
theorem exists_directory {path : List Char} (h : '/' ∈ path) :
    ∃ directory last, path = directory ++ '/' :: last ∧ '/' ∉ last := by
  obtain ⟨before, after, hsplit, hnot⟩ := List.eq_append_cons_of_mem (List.mem_reverse.mpr h)
  refine ⟨after.reverse, before.reverse, ?_, fun hmem => hnot (List.mem_reverse.mp hmem)⟩
  rw [← List.reverse_reverse path, hsplit, List.reverse_append, List.reverse_cons,
    List.append_assoc]
  rfl

theorem splitParams_append {directory last : List Char} (h : '/' ∉ last) :
    splitParams (directory ++ '/' :: last) =
      (directory ++ '/' :: (partition ';' last).1, (partition ';' last).2) := by
  rw [splitParams, splitLast_append h]
  dsimp only
  rw [List.append_assoc]
  rfl

theorem segments_append {directory : List Char} (h : directory = [] ∨ directory.head? = some '/') :
    ∃ segs, ∀ last, '/' ∉ last → segments (directory ++ '/' :: last) = segs ++ [last] := by
  rcases h with rfl | h
  · refine ⟨[], fun last hlast => ?_⟩
    rw [List.nil_append, segments_slash, List.splitOn_eq_singleton hlast]
    rfl
  · cases directory with
    | nil => cases h
    | cons c directory =>
      cases h
      refine ⟨directory.splitOn '/', fun last hlast => ?_⟩
      rw [List.cons_append, segments_slash, List.splitOn_append_cons_self,
        List.splitOn_eq_singleton hlast]

theorem getLast?_removeDots_append {directory last : List Char}
    (h : directory = [] ∨ directory.head? = some '/') (hlast : '/' ∉ last) :
    (dots.removeDots (segments (directory ++ '/' :: last))).getLast? =
      some (if dots.IsDot last then [] else last) := by
  obtain ⟨segs, hsegs⟩ := segments_append h
  rw [hsegs last hlast]
  exact Dots.getLast?_resolve_concat [] segs last

/-- Slashes at the beginning are empty segments, which can only be gone up from. -/
theorem removeDots_segments_slashes (s : List Char) :
    ∃ before, dots.removeDots (segments ('/' :: '/' :: '/' :: s)) =
      before ++ dots.removeDots (segments ('/' :: s)) := by
  have hsegments : segments ('/' :: '/' :: '/' :: s) = [] :: [] :: segments ('/' :: s) := by
    rw [segments_slash, segments_slash, List.splitOn_cons_eq_if_modifyHead,
      List.splitOn_cons_eq_if_modifyHead]
    rfl
  have hne : segments ('/' :: s) ≠ [] := List.splitOn_ne_nil '/' s
  rw [hsegments, Dots.removeDots, Dots.resolve_cons _ _ (List.cons_ne_nil _ _),
    Dots.resolve_cons _ _ hne]
  exact Dots.resolve_append [[], []] [] _

/-! ## The joined path -/

/-- `path` with the slash that `urlunsplit` puts before it. -/
def rooted (path : List Char) : List Char :=
  if path ≠ [] ∧ path.head? ≠ some '/' then '/' :: path else path

/--
The path goes up further than it went down, and an empty segment comes next: joined with a base,
the path begins with the slash of that segment.
-/
def LosesSegment (path : List Char) : Prop :=
  dots.climbs 0 (segments path) = true ∧ (dots.removeDots (segments path)).head? = some [] ∧
    dots.removeDots (segments path) ≠ [[]]

instance (path : List Char) : Decidable (LosesSegment path) :=
  inferInstanceAs (Decidable (_ ∧ _ ∧ _))

theorem joinPath_ne_nil (base path : List Char) : joinPath base path ≠ [] := by
  rw [joinPath]
  split
  · exact List.cons_ne_nil _ _
  · next h => exact h

theorem rooted_of_head? {path : List Char} (h : path.head? = some '/') : rooted path = path :=
  if_neg fun hne => hne.2 h

theorem head?_rooted {path : List Char} (h : path ≠ []) : (rooted path).head? = some '/' := by
  rw [rooted]
  split
  · rfl
  · next hnot =>
    rw [not_and_or] at hnot
    exact not_not.mp (hnot.resolve_left (not_not_intro h))

theorem rooted_rooted (path : List Char) : rooted (rooted path) = rooted path := by
  by_cases h : path = []
  · rw [h]
    rfl
  · exact rooted_of_head? (head?_rooted h)

theorem urlunsplit_rooted {s : SplitResult} (hnetloc : s.netloc ≠ []) (path : List Char) :
    urlunsplit { s with path := rooted path } = urlunsplit { s with path } := by
  have hrooted : (if rooted path ≠ [] ∧ (rooted path).head? ≠ some '/' then '/' :: rooted path
      else rooted path) = if path ≠ [] ∧ path.head? ≠ some '/' then '/' :: path else path :=
    rooted_rooted path
  rw [urlunsplit, urlunsplit]
  rw [if_pos (Or.inl hnetloc), if_pos (Or.inl hnetloc), hrooted]

/-- What `urljoin` resolves: an absolute path as it is. -/
theorem joinPath_absolute (base s : List Char) :
    joinPath base ('/' :: s) =
      let joined := ['/'].intercalate ((if dots.climbs 0 (segments ('/' :: s)) then [] else [[]]) ++
        dots.removeDots (segments ('/' :: s)))
      if joined = [] then ['/'] else joined := by
  have hsegments : joinSegments base ('/' :: s) = [] :: segments ('/' :: s) := by
    rw [joinSegments, if_pos List.head?_cons, List.splitOn_cons_eq_if_modifyHead]
    exact if_pos rfl
  have hresolve : dots.resolve [] ([] :: segments ('/' :: s)) =
      dots.resolve [[]] (segments ('/' :: s)) := Dots.resolve_cons _ _ (List.splitOn_ne_nil '/' s)
  rw [joinPath, hsegments, hresolve, Dots.resolve_singleton]

theorem segments_intercalate {segs : List (List Char)} (hnil : segs ≠ [])
    (h : ∀ seg ∈ segs, '/' ∉ seg) : segments ('/' :: ['/'].intercalate segs) = segs :=
  List.splitOn_intercalate '/' h hnil

theorem head?_intercalate {first : List Char} {rest : List (List Char)} (h : first ≠ []) :
    (['/'].intercalate (first :: rest)).head? = first.head? := by
  cases rest with
  | nil => rw [List.intercalate_singleton]
  | cons seg segs =>
    rw [List.intercalate_cons_cons, List.append_assoc, List.head?_append_of_ne_nil _ h]

/-- A path without its root gets it back, unless its first segment is empty. -/
theorem rooted_intercalate {first : List Char} (rest : List (List Char)) (hfirst : first ≠ [])
    (hslash : '/' ∉ first) : ['/'].intercalate (first :: rest) ≠ [] ∧
      rooted (['/'].intercalate (first :: rest)) = '/' :: ['/'].intercalate (first :: rest) := by
  obtain ⟨c, chars, rfl⟩ := List.exists_cons_of_ne_nil hfirst
  have hhead : (['/'].intercalate ((c :: chars) :: rest)).head? = some c :=
    head?_intercalate hfirst
  have hne : c ≠ '/' := by
    rintro rfl
    exact hslash List.mem_cons_self
  have hjoined : ['/'].intercalate ((c :: chars) :: rest) ≠ [] := by
    intro h
    rw [h] at hhead
    cases hhead
  refine ⟨hjoined, if_pos ⟨hjoined, ?_⟩⟩
  rw [hhead]
  exact fun h => hne (Option.some.inj h)

/-- Joining resolves the dot segments, and may lose an empty segment at the beginning. -/
theorem removeDots_segments_joinPath (base s : List Char) :
    dots.removeDots (segments (rooted (joinPath base ('/' :: s)))) =
      if LosesSegment ('/' :: s) then (dots.removeDots (segments ('/' :: s))).tail
      else dots.removeDots (segments ('/' :: s)) := by
  have hslash : ∀ seg ∈ dots.removeDots (segments ('/' :: s)), '/' ∉ seg :=
    fun seg => slash_not_mem_removeDots
  have hdot : ∀ seg ∈ dots.removeDots (segments ('/' :: s)), ¬ dots.IsDot seg :=
    Dots.not_dot_removeDots
  have hloses : LosesSegment ('/' :: s) ↔ dots.climbs 0 (segments ('/' :: s)) = true ∧
    (dots.removeDots (segments ('/' :: s))).head? = some [] ∧
      dots.removeDots (segments ('/' :: s)) ≠ [[]] := Iff.rfl
  have hnil := removeDots_segments_ne_nil ('/' :: s)
  rw [joinPath_absolute]
  generalize dots.removeDots (segments ('/' :: s)) = resolved at *
  obtain ⟨first, rest, rfl⟩ := List.exists_cons_of_ne_nil hnil
  dsimp only
  by_cases hclimbs : dots.climbs 0 (segments ('/' :: s)) = true
  · rw [if_pos hclimbs, List.nil_append]
    by_cases hfirst : first = []
    · subst hfirst
      cases rest with
      | nil =>
        -- only the root is left
        rw [if_neg fun h => (hloses.mp h).2.2 rfl, List.intercalate_singleton, if_pos rfl]
        rfl
      | cons seg segs =>
        rw [if_pos (hloses.mpr ⟨hclimbs, rfl, by simp⟩), List.intercalate_cons_cons,
          List.nil_append, List.singleton_append, if_neg (List.cons_ne_nil _ _),
          rooted_of_head? List.head?_cons, segments_intercalate (List.cons_ne_nil _ _)
            fun x hx => hslash x (List.mem_cons_of_mem _ hx)]
        exact Dots.removeDots_of_not_dot fun x hx => hdot x (List.mem_cons_of_mem _ hx)
    · obtain ⟨hjoined, hrooted⟩ :=
        rooted_intercalate rest hfirst (hslash first List.mem_cons_self)
      rw [if_neg fun h => hfirst (Option.some.inj (hloses.mp h).2.1), if_neg hjoined, hrooted,
        segments_intercalate (List.cons_ne_nil _ _) hslash, Dots.removeDots_of_not_dot hdot]
  · -- the root is still there
    rw [if_neg hclimbs, if_neg fun h => hclimbs (hloses.mp h).1, List.singleton_append,
      List.intercalate_cons_cons, List.nil_append, List.singleton_append,
      if_neg (List.cons_ne_nil _ _), rooted_of_head? List.head?_cons,
      segments_intercalate (List.cons_ne_nil _ _) hslash, Dots.removeDots_of_not_dot hdot]

/-! ## The parts of the joined URL -/

/--
The parts of `urljoin(address, urlparse(address).path)`, for an address with the parts `s`. A path
that begins with two slashes is read as a netloc and a path.
-/
def requestParts (C : NetlocChecks) (s : SplitResult) : Except PyExn SplitResult :=
  let path := (splitParams s.path).1
  let netloc := (splitNetloc path).1
  let rest := (splitNetloc path).2
  if path = [] then .ok s
  else if netloc ≠ [] then
    (checkNetloc C netloc).map fun _ => { s with netloc, path := rest, query := [], fragment := [] }
  else if rest = [] then
    .ok { s with path := path ++ marked ';' (splitParams s.path).2, fragment := [] }
  else .ok { s with path := rooted (joinPath path rest), query := [], fragment := [] }

theorem splitLast_eq (path : List Char) : (splitLast path).1 ++ (splitLast path).2 = path := by
  rw [splitLast, ← List.reverse_append, List.takeWhile_append_dropWhile, List.reverse_reverse]

theorem splitParams_of_not_mem_last {path : List Char} (h : ';' ∉ (splitLast path).2) :
    splitParams path = (path, []) := by
  rw [splitParams]
  dsimp only
  rw [partition_of_not_mem h, splitLast_eq]

theorem splitParams_of_not_mem {path : List Char} (h : ';' ∉ path) :
    splitParams path = (path, []) :=
  splitParams_of_not_mem_last fun hmem => h (splitLast_eq path ▸ List.mem_append_right _ hmem)

theorem mem_of_mem_splitParams {path : List Char} {c : Char}
    (h : c ∈ (splitParams path).1 ++ marked ';' (splitParams path).2) : c ∈ path := by
  rw [splitParams] at h
  dsimp only at h
  rw [← splitLast_eq path]
  rcases partition_cases ';' (splitLast path).2 with ⟨-, heq⟩ | ⟨name, params, hlast, -, heq⟩
  · rw [heq, marked, if_pos rfl, List.append_nil] at h
    exact h
  · rw [heq, marked] at h
    rw [hlast]
    split at h
    · rw [List.append_nil, List.mem_append] at h
      rcases h with h | h
      · exact List.mem_append_left _ h
      · exact List.mem_append_right _ (List.mem_append_left _ h)
    · rwa [List.append_assoc] at h

theorem urlparse_web {url scheme : List Char} {s : SplitResult}
    (h : urlsplit C url scheme = .ok s)
    (hscheme : s.scheme = "http".toList ∨ s.scheme = "https".toList) :
    urlparse C url scheme =
      .ok { s with path := (splitParams s.path).1, params := (splitParams s.path).2 } := by
  have huses : String.ofList s.scheme ∈ usesParams := by
    rcases hscheme with heq | heq <;> rw [heq] <;> decide
  rw [urlparse, h, ok_bind]
  by_cases hmem : ';' ∈ s.path
  · rw [if_pos ⟨huses, hmem⟩]
    rfl
  · rw [if_neg fun h => hmem h.2, splitParams_of_not_mem hmem]
    rfl

theorem splitScheme_slash (s scheme : List Char) :
    splitScheme ('/' :: s) scheme = (scheme, '/' :: s) := by
  have hmem : '/' ∈ ('/' :: s).takeWhile (· != ':') := by
    rw [List.takeWhile_cons_of_pos rfl]
    exact List.mem_cons_self
  exact splitScheme_of_mem hmem rfl scheme

/-- A path, read as a URL. -/
theorem urlsplit_path {path : List Char} (scheme : List Char) (hhead : path.head? = some '/')
    (hsafe : ∀ c ∈ path, isSafe c = true) (hpath : '?' ∉ path ∧ '#' ∉ path) :
    urlsplit C path scheme = (checkNetloc C (splitNetloc path).1).map fun _ =>
      ⟨scheme, (splitNetloc path).1, (splitNetloc path).2, [], []⟩ := by
  have hrest : '?' ∉ (splitNetloc path).2 ∧ '#' ∉ (splitNetloc path).2 :=
    ⟨fun h => hpath.1 (mem_of_mem_splitNetloc (.inr h)),
      fun h => hpath.2 (mem_of_mem_splitNetloc (.inr h))⟩
  have hparts : splitParts path scheme =
      ⟨scheme, (splitNetloc path).1, (splitNetloc path).2, [], []⟩ := by
    cases path with
    | nil => cases hhead
    | cons c path =>
      cases hhead
      rw [splitParts, strip_of_safe (by decide) hsafe, splitScheme_slash]
      dsimp only
      rw [partition_of_not_mem hrest.2]
      dsimp only
      rw [partition_of_not_mem hrest.1]
  rw [urlsplit_eq, hparts]

/-- Two slashes begin a netloc, which goes up to the next slash. -/
theorem splitNetloc_path (path : List Char) :
    (splitNetloc path).1 = [] ∧ (splitNetloc path).2 = path ∨
      path = '/' :: '/' :: ((splitNetloc path).1 ++ (splitNetloc path).2) := by
  rw [splitNetloc.eq_def]
  split
  · exact .inr (by rw [List.takeWhile_append_dropWhile])
  · exact .inl ⟨rfl, rfl⟩

theorem head?_splitNetloc {path : List Char} (hhead : path.head? = some '/')
    (hpath : '?' ∉ path ∧ '#' ∉ path) :
    (splitNetloc path).2 = [] ∨ (splitNetloc path).2.head? = some '/' := by
  rcases splitNetloc_cases path with h | ⟨-, h⟩
  · rw [h]
    exact .inr hhead
  · cases hrest : (splitNetloc path).2 with
    | nil => exact .inl rfl
    | cons c rest =>
      rw [hrest] at h
      have hc : c ∈ path := mem_of_mem_splitNetloc (.inr (by rw [hrest]; exact List.mem_cons_self))
      have hdelimiter := h c rfl
      simp only [isDelimiter, Bool.or_eq_true, beq_iff_eq] at hdelimiter
      rcases hdelimiter with (rfl | rfl) | rfl
      · exact .inr rfl
      · exact absurd hc hpath.1
      · exact absurd hc hpath.2

/-- The part after the netloc has the same last segment. -/
theorem exists_splitNetloc_append {directory name : List Char} (hname : '/' ∉ name)
    (hrest : (splitNetloc (directory ++ '/' :: name)).2.head? = some '/') :
    ∃ before, (splitNetloc (directory ++ '/' :: name)).2 = before ++ '/' :: name ∧
      (before = [] ∨ before.head? = some '/') := by
  obtain ⟨before, last, hsplit, hlast⟩ := exists_directory (List.mem_of_head? hrest)
  have hsuffix : ∃ front, directory ++ '/' :: name = front ++ '/' :: last := by
    rcases splitNetloc_path (directory ++ '/' :: name) with ⟨-, h⟩ | h
    · exact ⟨before, by rw [← hsplit, h]⟩
    · rw [hsplit] at h
      exact ⟨'/' :: '/' :: ((splitNetloc (directory ++ '/' :: name)).1 ++ before),
        h.trans (by simp)⟩
  obtain ⟨front, hfront⟩ := hsuffix
  have heq := congrArg splitLast hfront
  rw [splitLast_append hname, splitLast_append hlast] at heq
  obtain rfl := (Prod.mk.inj heq).2
  refine ⟨before, hsplit, ?_⟩
  rw [hsplit] at hrest
  cases before with
  | nil => exact .inl rfl
  | cons c before => exact .inr hrest

theorem splitParams_splitNetloc {directory name : List Char} (hname : '/' ∉ name)
    (hparams : ';' ∉ name) (hrest : (splitNetloc (directory ++ '/' :: name)).2 = [] ∨
      (splitNetloc (directory ++ '/' :: name)).2.head? = some '/') :
    splitParams (splitNetloc (directory ++ '/' :: name)).2 =
      ((splitNetloc (directory ++ '/' :: name)).2, []) := by
  rcases hrest with hnil | hhead
  · rw [hnil]
    rfl
  · obtain ⟨before, heq, -⟩ := exists_splitNetloc_append hname hhead
    rw [heq, splitParams_append hname, partition_of_not_mem hparams]

/-- The name of a segment, before its parameters. -/
theorem slash_not_mem_name {last : List Char} (h : '/' ∉ last) : '/' ∉ (partition ';' last).1 :=
  fun hc => h (mem_of_mem_partition (.inl hc))

/-- The path of a web address that has one: a directory and a last segment. -/
theorem Clean.exists_directory {s : SplitResult} (hs : Clean C s) (hpath : s.path ≠ []) :
    ∃ directory last, s.path = directory ++ '/' :: last ∧ '/' ∉ last ∧
      (directory = [] ∨ directory.head? = some '/') := by
  have hhead := hs.absolute.resolve_left hpath
  obtain ⟨directory, last, hsplit, hlast⟩ := Urlparse.exists_directory (List.mem_of_head? hhead)
  refine ⟨directory, last, hsplit, hlast, ?_⟩
  rw [hsplit] at hhead
  cases directory with
  | nil => exact .inl rfl
  | cons c directory => exact .inr hhead

/-- The path without the parameters of its last segment. -/
theorem Clean.splitParams {s : SplitResult} (hs : Clean C s) (hpath : s.path ≠ []) :
    (splitParams s.path).1.head? = some '/' ∧ (∀ c ∈ (splitParams s.path).1, c ∈ s.path) ∧
      splitParams (splitNetloc (splitParams s.path).1).2 =
        ((splitNetloc (splitParams s.path).1).2, []) := by
  obtain ⟨directory, last, hsplit, hlast, hdirectory⟩ := hs.exists_directory hpath
  have hname := slash_not_mem_name hlast
  have hmem : ∀ c ∈ (Urlparse.splitParams s.path).1, c ∈ s.path := fun c hc =>
    mem_of_mem_splitParams (List.mem_append_left _ hc)
  have hhead : (directory ++ '/' :: (partition ';' last).1).head? = some '/' := by
    rcases hdirectory with rfl | hslash
    · rfl
    · rw [List.head?_append, hslash]
      rfl
  rw [hsplit, splitParams_append hlast] at hmem ⊢
  rw [← hsplit] at hmem ⊢
  refine ⟨hhead, hmem, splitParams_splitNetloc hname (not_mem_partition ';' last) ?_⟩
  exact head?_splitNetloc hhead
    ⟨fun hc => hs.path.1 (hmem _ hc), fun hc => hs.path.2 (hmem _ hc)⟩

theorem urljoin_own_path {address : List Char} {s : SplitResult}
    (h : urlsplit C address [] = .ok s) (hs : Clean C s) (hpath : s.path ≠ []) :
    urljoin C address (splitParams s.path).1 = (requestParts C s).map urlunsplit := by
  obtain ⟨hhead, hmem, hrest⟩ := hs.splitParams hpath
  have hne : (Urlparse.splitParams s.path).1 ≠ [] := by
    intro hnil
    rw [hnil] at hhead
    cases hhead
  have hsafe : ∀ c ∈ (splitParams s.path).1, isSafe c = true := fun c hc =>
    hs.safe c (by simp [hmem c hc])
  have hclean : '?' ∉ (splitParams s.path).1 ∧ '#' ∉ (splitParams s.path).1 :=
    ⟨fun hc => hs.path.1 (hmem _ hc), fun hc => hs.path.2 (hmem _ hc)⟩
  have haddress : address ≠ [] := by
    rintro rfl
    rw [(urlsplit_eq_ok.mp h).2.symm] at hs
    exact hs.netloc_ne rfl
  have huses : String.ofList s.scheme ∈ usesRelative ∧ String.ofList s.scheme ∈ usesNetloc := by
    rcases hs.scheme with heq | heq <;> rw [heq] <;> decide
  have hsplit := urlsplit_path (C := C) s.scheme hhead hsafe hclean
  rw [urljoin, if_neg haddress, if_neg hne, urlparse_web h hs.scheme, ok_bind, requestParts,
    if_neg hne]
  generalize (splitParams s.path).1 = path at *
  generalize (splitParams s.path).2 = params at *
  cases hcheck : checkNetloc C (splitNetloc path).1 with
  | error x =>
    -- an empty netloc passes the checks
    have hnetloc : (splitNetloc path).1 ≠ [] := by
      intro hnil
      rw [hnil, checkNetloc] at hcheck
      simp [C.check_nil] at hcheck
    rw [hcheck] at hsplit
    rw [urlparse, hsplit, if_pos hnetloc]
    rfl
  | ok u =>
    rw [hcheck] at hsplit
    rw [urlparse_web hsplit hs.scheme, ok_bind]
    dsimp only
    rw [hrest]
    dsimp only
    rw [if_neg (by simp [huses.1]), if_pos huses.2, if_pos rfl]
    by_cases hnetloc : (splitNetloc path).1 = []
    · rw [if_neg fun hc => hc.2 hnetloc, if_neg (not_not_intro hnetloc)]
      by_cases hnil : (splitNetloc path).2 = []
      · -- nothing is left of the path: `urljoin` takes the path and the query of the base
        rw [if_pos ⟨hnil, rfl⟩, if_pos hnil, urlunparse]
        by_cases hparams : params = []
        · simp [marked, hparams, Except.map, pure, Except.pure]
        · simp [marked, hparams, Except.map, pure, Except.pure]
      · rw [if_neg fun hc => hnil hc.1, if_neg hnil]
        have hroot := urlunsplit_rooted (s := { s with query := [], fragment := [] }) hs.netloc_ne
        exact congrArg Except.ok (hroot _).symm
    · rw [if_pos ⟨huses.2, hnetloc⟩, if_pos hnetloc]
      rfl

theorem mem_joinPath {base path : List Char} {c : Char} (h : c ∈ joinPath base ('/' :: path)) :
    c ∈ '/' :: path := by
  have hseg : ∀ seg ∈ (if dots.climbs 0 (segments ('/' :: path)) then [] else [[]]) ++
      dots.removeDots (segments ('/' :: path)), c ∈ seg → c ∈ '/' :: path := by
    intro seg hseg hc
    rcases List.mem_append.mp hseg with hseg | hseg
    · split at hseg
      · cases hseg
      · rw [List.mem_singleton.mp hseg] at hc
        cases hc
    · rcases Dots.mem_resolve hseg with rfl | hseg | hseg
      · cases hc
      · cases hseg
      · exact List.mem_cons_of_mem _ (mem_of_mem_splitOn hseg hc)
  rw [joinPath_absolute] at h
  generalize (if dots.climbs 0 (segments ('/' :: path)) then [] else [[]]) ++
    dots.removeDots (segments ('/' :: path)) = segs at *
  dsimp only at h
  split at h
  · rw [List.mem_singleton.mp h]
    exact List.mem_cons_self
  · rcases mem_intercalate h with rfl | ⟨seg, hmem, hc⟩
    · exact List.mem_cons_self
    · exact hseg seg hmem hc

theorem mem_rooted {path : List Char} {c : Char} (h : c ∈ rooted path) : c = '/' ∨ c ∈ path := by
  rw [rooted] at h
  split at h
  · exact List.mem_cons.mp h
  · exact .inr h

/-- Another path of the same characters, without a fragment. -/
theorem Clean.withPath {s : SplitResult} (hs : Clean C s) {path query : List Char}
    (habsolute : path = [] ∨ path.head? = some '/') (hpath : ∀ c ∈ path, c ∈ s.path)
    (hquery : ∀ c ∈ query, c ∈ s.query) :
    Clean C { s with path, query, fragment := [] } := by
  refine { hs with absolute := habsolute, path := ?_, query := ?_, safe := ?_ }
  · exact ⟨fun hc => hs.path.1 (hpath _ hc), fun hc => hs.path.2 (hpath _ hc)⟩
  · exact fun hc => hs.query (hquery _ hc)
  · intro c hc
    refine hs.safe c ?_
    simp only [List.append_nil, List.mem_append] at hc ⊢
    rcases hc with (hc | hc) | hc
    · exact .inl (.inl (.inl hc))
    · exact .inl (.inl (.inr (hpath c hc)))
    · exact .inl (.inr (hquery c hc))

theorem Clean.withNetloc {s : SplitResult} (hs : Clean C s) {netloc : List Char}
    (hne : netloc ≠ []) (hnetloc : ∀ c ∈ netloc, isDelimiter c = false ∧ c ∈ s.path)
    (hcheck : checkNetloc C netloc = .ok ()) : Clean C { s with netloc } := by
  refine { hs with netloc_ne := hne, netloc := fun c hc => (hnetloc c hc).1, checked := hcheck
                   safe := ?_ }
  intro c hc
  refine hs.safe c ?_
  simp only [List.mem_append] at hc ⊢
  rcases hc with ((hc | hc) | hc) | hc
  · exact .inl (.inl (.inr (hnetloc c hc).2))
  · exact .inl (.inl (.inr hc))
  · exact .inl (.inr hc)
  · exact .inr hc

theorem clean_requestParts {s u : SplitResult} (hs : Clean C s) (h : requestParts C s = .ok u) :
    Clean C u := by
  rw [requestParts] at h
  split at h
  · cases h
    exact hs
  · next hne =>
    have hpath : s.path ≠ [] := by
      intro hnil
      rw [hnil] at hne
      exact hne rfl
    obtain ⟨hhead, hmem, -⟩ := hs.splitParams hpath
    have hrest := head?_splitNetloc hhead
      ⟨fun hc => hs.path.1 (hmem _ hc), fun hc => hs.path.2 (hmem _ hc)⟩
    have hsub : ∀ c ∈ (splitNetloc (splitParams s.path).1).2, c ∈ s.path := fun c hc =>
      hmem c (mem_of_mem_splitNetloc (.inr hc))
    have hnil : ∀ c ∈ ([] : List Char), c ∈ s.query := fun c hc => absurd hc List.not_mem_nil
    split at h
    · next hnetloc =>
      obtain ⟨v, hcheck, rfl⟩ := map_eq_ok.mp h
      have hdelimiter : ∀ c ∈ (splitNetloc (splitParams s.path).1).1, isDelimiter c = false :=
        (splitNetloc_cases (splitParams s.path).1).elim
          (fun heq => absurd (congrArg Prod.fst heq) hnetloc) And.left
      exact (hs.withNetloc hnetloc (fun c hc => ⟨hdelimiter c hc,
        hmem c (mem_of_mem_splitNetloc (.inl hc))⟩) hcheck).withPath hrest hsub hnil
    · split at h
      · cases h
        refine hs.withPath (.inr ?_) (fun c hc => mem_of_mem_splitParams hc) fun c hc => hc
        rw [List.head?_append, hhead]
        rfl
      · next hrestne =>
        cases h
        refine hs.withPath (.inr (head?_rooted (joinPath_ne_nil _ _))) (fun c hc => ?_) hnil
        have hroot := hrest.resolve_left hrestne
        obtain ⟨r, heq⟩ := List.head?_eq_some_iff.mp hroot
        rw [heq] at hsub hc
        rcases mem_rooted hc with rfl | hc
        · exact hsub '/' List.mem_cons_self
        · exact hsub c (mem_joinPath hc)

theorem urljoin_nil (base : List Char) : urljoin C base [] = .ok base := by
  rw [urljoin]
  by_cases hbase : base = []
  · rw [if_pos hbase, hbase]
    rfl
  · rw [if_neg hbase, if_pos rfl]
    rfl

/-- The URL without the query, read again. -/
theorem urlsplit_withoutQuery {address : String} {s : SplitResult}
    (h : urlsplit C address.toList [] = .ok s) (hs : Clean C s) :
    ((urllib C).withoutQuery address >>= fun url => urlsplit C url.toList []) =
      requestParts C s := by
  show ((urlparse C address.toList [] >>= fun parsed =>
    urljoin C address.toList parsed.path >>= fun url => _) >>= _) = _
  rw [urlparse_web h hs.scheme, ok_bind]
  dsimp only
  by_cases hpath : s.path = []
  · have hjoin : urljoin C address.toList (splitParams s.path).1 = .ok address.toList := by
      rw [hpath]
      exact urljoin_nil _
    have hparts : requestParts C s = .ok s := by
      rw [requestParts, hpath]
      rfl
    rw [hjoin, hparts, ← h]
    simp
  · rw [urljoin_own_path h hs hpath]
    cases hparts : requestParts C s with
    | error x => rfl
    | ok u =>
      have hu := urlsplit_urlunsplit (clean_requestParts hs hparts)
      show urlsplit C (String.ofList (urlunsplit u)).toList [] = _
      rw [String.toList_ofList, hu]

end MonascaNotification.Urlparse
