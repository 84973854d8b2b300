import Mathlib.Data.List.TakeWhile
import MonascaNotification.Infra.Except
import MonascaNotification.Python.Urlparse

/-!
# Splitting addresses

What is in the parts of an address (`clean_of_urlsplit`). For `http` and `https` addresses with a
netloc, `urlunsplit` is read back by `urlsplit` (`urlsplit_urlunsplit`).
-/

namespace MonascaNotification.Urlparse

open Infra

variable {C : NetlocChecks}

/-! ## Clean results -/

def isSafe (c : Char) : Bool := c != '\t' && c != '\r' && c != '\n'

/-- A result of `urlsplit` for a web address. -/
structure Clean (C : NetlocChecks) (s : SplitResult) : Prop where
  scheme : s.scheme = "http".toList ∨ s.scheme = "https".toList
  netloc_ne : s.netloc ≠ []
  netloc : ∀ c ∈ s.netloc, isDelimiter c = false
  checked : checkNetloc C s.netloc = .ok ()
  absolute : s.path = [] ∨ s.path.head? = some '/'
  path : '?' ∉ s.path ∧ '#' ∉ s.path
  query : '#' ∉ s.query
  safe : ∀ c ∈ s.netloc ++ s.path ++ s.query ++ s.fragment, isSafe c = true

theorem takeWhile_append_cons {p : Char → Bool} {s : List Char} (c : Char) (rest : List Char)
    (hs : ∀ x ∈ s, p x = true) (hc : p c = false) :
    (s ++ c :: rest).takeWhile p = s ∧ (s ++ c :: rest).dropWhile p = c :: rest := by
  rw [List.takeWhile_append_of_pos hs, List.dropWhile_append_of_pos hs, List.takeWhile_cons,
    List.dropWhile_cons, hc]
  simp

theorem bne_of_not_mem {sep : Char} {s : List Char} (h : sep ∉ s) :
    ∀ c ∈ s, (c != sep) = true :=
  fun _ hc => bne_iff_ne.mpr fun heq => h (heq ▸ hc)

theorem partition_append {sep : Char} {s rest : List Char} (h : sep ∉ s) :
    partition sep (s ++ sep :: rest) = (s, rest) := by
  have hs := bne_of_not_mem h
  obtain ⟨htake, hdrop⟩ := takeWhile_append_cons sep rest hs (by simp)
  rw [partition, htake, hdrop]
  rfl

theorem partition_of_not_mem {sep : Char} {s : List Char} (h : sep ∉ s) :
    partition sep s = (s, []) := by
  have hs := bne_of_not_mem h
  rw [partition, List.takeWhile_eq_self_iff.mpr hs, List.dropWhile_eq_nil_iff.mpr hs]
  rfl

theorem partition_append_of_not_mem {sep : Char} {s : List Char} (h : sep ∉ s) (rest : List Char) :
    partition sep (s ++ rest) = (s ++ (partition sep rest).1, (partition sep rest).2) := by
  have hs := bne_of_not_mem h
  rw [partition, partition, List.takeWhile_append_of_pos hs, List.dropWhile_append_of_pos hs]

theorem partition_cases (sep : Char) (s : List Char) :
    (sep ∉ s ∧ partition sep s = (s, [])) ∨
      ∃ before after, s = before ++ sep :: after ∧ sep ∉ before ∧
        partition sep s = (before, after) := by
  by_cases hmem : sep ∈ s
  · obtain ⟨before, after, rfl, hnot⟩ := List.eq_append_cons_of_mem hmem
    exact .inr ⟨before, after, rfl, hnot, partition_append hnot⟩
  · exact .inl ⟨hmem, partition_of_not_mem hmem⟩

theorem not_mem_partition (sep : Char) (s : List Char) : sep ∉ (partition sep s).1 := by
  rcases partition_cases sep s with ⟨hnot, h⟩ | ⟨before, after, -, hnot, h⟩
  · rw [h]
    exact hnot
  · rw [h]
    exact hnot

/-- Both parts are made of characters of the text. -/
theorem mem_of_mem_partition {sep c : Char} {s : List Char}
    (h : c ∈ (partition sep s).1 ∨ c ∈ (partition sep s).2) : c ∈ s := by
  rcases partition_cases sep s with ⟨-, heq⟩ | ⟨before, after, rfl, -, heq⟩
  · rw [heq] at h
    rcases h with h | h
    · exact h
    · cases h
  · rw [heq] at h
    rcases h with h | h
    · exact List.mem_append_left _ h
    · exact List.mem_append_right _ (List.mem_cons_of_mem _ h)

theorem head?_partition {sep : Char} {s : List Char} (h : (partition sep s).1 ≠ []) :
    (partition sep s).1.head? = s.head? := by
  rcases partition_cases sep s with ⟨-, heq⟩ | ⟨before, after, rfl, -, heq⟩
  · rw [heq]
  · rw [heq] at h ⊢
    cases before with
    | nil => exact absurd rfl h
    | cons c before => rfl

/-! ## The parts of `urlsplit` -/

/-- The result of `urlsplit`, when the netloc passes the checks. -/
def splitParts (url scheme : List Char) : SplitResult :=
  let schemed := splitScheme (strip url) scheme
  let located := splitNetloc schemed.2
  let fragmented := partition '#' located.2
  let queried := partition '?' fragmented.1
  { scheme := schemed.1, netloc := located.1, path := queried.1, query := queried.2
    fragment := fragmented.2 }

theorem urlsplit_eq (C : NetlocChecks) (url scheme : List Char) :
    urlsplit C url scheme =
      (checkNetloc C (splitParts url scheme).netloc).map fun _ => splitParts url scheme := by
  rw [urlsplit]
  show (checkNetloc C (splitParts url scheme).netloc >>= fun _ => _) = _
  cases checkNetloc C (splitParts url scheme).netloc with
  | error x => rfl
  | ok u => rfl

theorem urlsplit_eq_ok {url scheme : List Char} {s : SplitResult} :
    urlsplit C url scheme = .ok s ↔
      checkNetloc C s.netloc = .ok () ∧ splitParts url scheme = s := by
  rw [urlsplit_eq, map_eq_ok]
  constructor
  · rintro ⟨u, hcheck, rfl⟩
    exact ⟨hcheck, rfl⟩
  · rintro ⟨hcheck, rfl⟩
    exact ⟨(), hcheck, rfl⟩

theorem mem_of_mem_splitScheme {url scheme : List Char} {c : Char}
    (h : c ∈ (splitScheme url scheme).2) : c ∈ url := by
  rw [splitScheme] at h
  split at h
  · next hdrop =>
    split at h
    · have hmem : c ∈ url.dropWhile (· != ':') := by
        rw [hdrop]
        exact List.mem_cons_of_mem _ h
      exact (List.dropWhile_sublist _).subset hmem
    · exact h
  · exact h

theorem mem_of_mem_splitNetloc {url : List Char} {c : Char}
    (h : c ∈ (splitNetloc url).1 ∨ c ∈ (splitNetloc url).2) : c ∈ url := by
  rw [splitNetloc.eq_def] at h
  split at h
  · rcases h with h | h
    · exact List.mem_cons_of_mem _ (List.mem_cons_of_mem _ ((List.takeWhile_sublist _).subset h))
    · exact List.mem_cons_of_mem _ (List.mem_cons_of_mem _ ((List.dropWhile_sublist _).subset h))
  · rcases h with h | h
    · cases h
    · exact h

theorem isSafe_of_mem_strip {url : List Char} {c : Char} (h : c ∈ strip url) : isSafe c = true :=
  (List.mem_filter.mp h).2

/-- After a netloc comes the end of the address, or a delimiter. -/
theorem splitNetloc_cases (url : List Char) :
    splitNetloc url = ([], url) ∨
      (∀ c ∈ (splitNetloc url).1, isDelimiter c = false) ∧
        ∀ c, (splitNetloc url).2.head? = some c → isDelimiter c = true := by
  rw [splitNetloc.eq_def]
  split
  · next rest =>
    refine .inr ⟨fun c hc => by simpa using List.mem_takeWhile_imp hc, fun c hc => ?_⟩
    have hnot := List.head?_dropWhile_not (!isDelimiter ·) rest
    dsimp only at hc
    rw [hc] at hnot
    simpa using hnot
  · exact .inl rfl

/-- The path of an address with a netloc begins with a slash, if there is one. -/
theorem absolute_splitParts {url scheme : List Char}
    (hhead : ∀ c, (splitNetloc (splitScheme (strip url) scheme).2).2.head? = some c →
      isDelimiter c = true) :
    (splitParts url scheme).path = [] ∨ (splitParts url scheme).path.head? = some '/' := by
  by_cases hne : (splitParts url scheme).path = []
  · exact .inl hne
  refine .inr ?_
  have hquery := head?_partition hne
  have hfragment : (partition '#' (splitNetloc (splitScheme (strip url) scheme).2).2).1 ≠ [] := by
    intro hnil
    refine hne ?_
    show (partition '?' (partition '#' (splitNetloc _).2).1).1 = []
    rw [hnil]
    rfl
  rw [head?_partition hfragment] at hquery
  obtain ⟨c, rest, hcons⟩ := List.exists_cons_of_ne_nil hne
  have hc : c ∈ (splitParts url scheme).path := by
    rw [hcons]
    exact List.mem_cons_self
  have hpath : (splitParts url scheme).path.head? = some c := by
    rw [hcons]
    rfl
  have hdelimiter := hhead c (hquery.symm.trans hpath)
  rw [hpath]
  simp only [isDelimiter, Bool.or_eq_true, beq_iff_eq] at hdelimiter
  -- the path was cut before a question mark, and before a hash
  rcases hdelimiter with (rfl | rfl) | rfl
  · rfl
  · exact absurd hc (not_mem_partition '?' _)
  · exact absurd (mem_of_mem_partition (.inl hc)) (not_mem_partition '#' _)

theorem clean_of_urlsplit {url : List Char} {s : SplitResult} (h : urlsplit C url [] = .ok s)
    (hscheme : s.scheme = "http".toList ∨ s.scheme = "https".toList) (hnetloc : s.netloc ≠ []) :
    Clean C s := by
  obtain ⟨hcheck, rfl⟩ := urlsplit_eq_ok.mp h
  rw [splitParts] at hnetloc
  dsimp only at hnetloc
  have hlocated := splitNetloc_cases (splitScheme (strip url) []).2
  rw [or_iff_right fun heq => hnetloc (by rw [heq])] at hlocated
  obtain ⟨hdelimiter, hhead⟩ := hlocated
  have hpath : '?' ∉ (splitParts url []).path ∧ '#' ∉ (splitParts url []).path :=
    ⟨not_mem_partition '?' _, fun hmem =>
      not_mem_partition '#' _ (mem_of_mem_partition (.inl hmem))⟩
  refine { scheme := hscheme, netloc_ne := hnetloc, netloc := hdelimiter, checked := hcheck
           absolute := ?_, path := hpath, query := ?_, safe := ?_ }
  · exact absolute_splitParts hhead
  · exact fun hmem => not_mem_partition '#' _ (mem_of_mem_partition (.inr hmem))
  · intro c hc
    suffices hmem : c ∈ (splitScheme (strip url) []).2 from
      isSafe_of_mem_strip (mem_of_mem_splitScheme hmem)
    simp only [List.mem_append] at hc
    rcases hc with ((hc | hc) | hc) | hc
    · exact mem_of_mem_splitNetloc (.inl hc)
    · have hc := mem_of_mem_partition (.inl (mem_of_mem_partition (.inl hc)))
      exact mem_of_mem_splitNetloc (.inr hc)
    · have hc := mem_of_mem_partition (.inl (mem_of_mem_partition (.inr hc)))
      exact mem_of_mem_splitNetloc (.inr hc)
    · exact mem_of_mem_splitNetloc (.inr (mem_of_mem_partition (.inr hc)))

/-! ## The inverse of `urlsplit` -/

/-- A delimiter and what comes after it, if there is something. -/
def marked (mark : Char) (s : List Char) : List Char := if s = [] then [] else mark :: s

theorem urlunsplit_of_clean {s : SplitResult} (h : Clean C s) :
    urlunsplit s = s.scheme ++ ':' :: '/' :: '/' :: (s.netloc ++
      (s.path ++ (marked '?' s.query ++ marked '#' s.fragment))) := by
  have hscheme : s.scheme ≠ [] := by
    rcases h.scheme with heq | heq <;> rw [heq] <;> decide
  have habsolute : ¬ (s.path ≠ [] ∧ s.path.head? ≠ some '/') := by
    rintro ⟨hne, hhead⟩
    rcases h.absolute with hnil | hslash
    · exact hne hnil
    · exact hhead hslash
  rw [urlunsplit, marked, marked]
  rw [if_pos (Or.inl h.netloc_ne), if_neg habsolute, if_pos hscheme]
  by_cases hquery : s.query = []
  · by_cases hfragment : s.fragment = []
    · simp [hquery, hfragment]
    · simp [hquery, hfragment]
  · by_cases hfragment : s.fragment = []
    · simp [hquery, hfragment]
    · simp [hquery, hfragment]

theorem strip_of_safe {c : Char} {rest : List Char} (hc : 32 < c.toNat)
    (h : ∀ x ∈ c :: rest, isSafe x = true) : strip (c :: rest) = c :: rest := by
  rw [strip, List.dropWhile_cons_of_neg (by simpa using hc), List.filter_eq_self]
  exact h

theorem splitScheme_web {scheme rest default : List Char}
    (h : scheme = "http".toList ∨ scheme = "https".toList) :
    splitScheme (scheme ++ ':' :: rest) default = (scheme, rest) := by
  rcases h with rfl | rfl
  · rfl
  · rfl

theorem splitNetloc_append {netloc tail : List Char} (hnetloc : ∀ c ∈ netloc, isDelimiter c = false)
    (htail : ∀ c, tail.head? = some c → isDelimiter c = true) :
    splitNetloc ('/' :: '/' :: (netloc ++ tail)) = (netloc, tail) := by
  have hpos : ∀ c ∈ netloc, (!isDelimiter c) = true := fun c hc => by rw [hnetloc c hc]; rfl
  rw [splitNetloc]
  cases tail with
  | nil =>
    rw [List.append_nil, List.takeWhile_eq_self_iff.mpr hpos, List.dropWhile_eq_nil_iff.mpr hpos]
  | cons c tail =>
    have hneg : (!isDelimiter c) = false := by rw [htail c rfl]; rfl
    obtain ⟨htake, hdrop⟩ := takeWhile_append_cons (p := (!isDelimiter ·)) _ _ hpos hneg
    rw [htake, hdrop]

theorem partition_marked {sep : Char} {s : List Char} (h : sep ∉ s) (rest : List Char) :
    partition sep (s ++ marked sep rest) = (s, rest) := by
  rw [marked]
  split
  · next hnil => rw [List.append_nil, partition_of_not_mem h, hnil]
  · exact partition_append h

theorem isSafe_marked {mark : Char} {s : List Char} (hmark : isSafe mark = true)
    (h : ∀ c ∈ s, isSafe c = true) : ∀ c ∈ marked mark s, isSafe c = true := by
  rw [marked]
  split
  · exact fun c hc => absurd hc List.not_mem_nil
  · intro c hc
    rcases List.mem_cons.mp hc with rfl | hc
    · exact hmark
    · exact h c hc

theorem head?_after_netloc {s : SplitResult} (h : Clean C s) (c : Char)
    (hc : (s.path ++ (marked '?' s.query ++ marked '#' s.fragment)).head? = some c) :
    isDelimiter c = true := by
  have hmarked : ∀ mark text rest, isDelimiter mark = true →
      (∀ c, rest.head? = some c → isDelimiter c = true) →
      ∀ c, (marked mark text ++ rest).head? = some c → isDelimiter c = true := by
    intro mark text rest hmark hrest c hc
    rw [marked] at hc
    split at hc
    · exact hrest c hc
    · cases hc
      exact hmark
  rcases h.absolute with hnil | hslash
  · rw [hnil] at hc
    refine hmarked '?' s.query _ rfl (fun c hc => ?_) c hc
    exact hmarked '#' s.fragment [] rfl (fun c hc => nomatch hc) c (by simpa using hc)
  · have hne : s.path ≠ [] := by
      intro hnil
      rw [hnil] at hslash
      cases hslash
    rw [List.head?_append_of_ne_nil _ hne, hslash] at hc
    cases hc
    rfl

/-- **Round trip.** A clean result is what `urlsplit` reads from its text. -/
theorem urlsplit_urlunsplit {s : SplitResult} (h : Clean C s) :
    urlsplit C (urlunsplit s) [] = .ok s := by
  refine urlsplit_eq_ok.mpr ⟨h.checked, ?_⟩
  have hsafe := h.safe
  simp only [List.mem_append, or_imp, forall_and] at hsafe
  obtain ⟨⟨⟨hnetloc, hpath⟩, hquery⟩, hfragment⟩ := hsafe
  have hstrip : strip (urlunsplit s) = urlunsplit s := by
    have hscheme : (∃ rest, s.scheme = 'h' :: rest) ∧ ∀ c ∈ s.scheme, isSafe c = true := by
      rcases h.scheme with heq | heq
      · rw [heq]
        exact ⟨⟨_, rfl⟩, List.all_eq_true.mp (by decide)⟩
      · rw [heq]
        exact ⟨⟨_, rfl⟩, List.all_eq_true.mp (by decide)⟩
    obtain ⟨⟨rest, hrest⟩, hscheme⟩ := hscheme
    -- no part has a character that `urlsplit` removes
    have hall : ∀ c ∈ urlunsplit s, isSafe c = true := by
      rw [urlunsplit_of_clean h]
      intro c hc
      simp only [List.mem_append, List.mem_cons] at hc
      rcases hc with hc | rfl | rfl | rfl | hc | hc | hc | hc
      · exact hscheme c hc
      · rfl
      · rfl
      · rfl
      · exact hnetloc c hc
      · exact hpath c hc
      · exact isSafe_marked rfl hquery c hc
      · exact isSafe_marked rfl hfragment c hc
    rw [urlunsplit_of_clean h, hrest, List.cons_append] at hall ⊢
    exact strip_of_safe (by decide) hall
  have htail := head?_after_netloc h
  have hhash : '#' ∉ s.path ++ marked '?' s.query := by
    rw [List.mem_append, marked]
    rintro (hmem | hmem)
    · exact h.path.2 hmem
    · split at hmem
      · cases hmem
      · exact h.query ((List.mem_cons.mp hmem).resolve_left (by decide))
  rw [splitParts, hstrip, urlunsplit_of_clean h, splitScheme_web h.scheme]
  dsimp only
  rw [splitNetloc_append h.netloc htail]
  dsimp only
  rw [← List.append_assoc, partition_marked hhash]
  dsimp only
  rw [partition_marked h.path.1]

/-! ## A query after an address -/

theorem takeWhile_append_of_stop {p : Char → Bool} {c : Char} (hc : p c = false)
    (s rest : List Char) : (s ++ c :: rest).takeWhile p = s.takeWhile p ∧
      (s ++ c :: rest).dropWhile p = s.dropWhile p ++ c :: rest := by
  induction s with
  | nil =>
    have hneg : ¬ p c = true := by simp [hc]
    exact ⟨List.takeWhile_cons_of_neg hneg, List.dropWhile_cons_of_neg hneg⟩
  | cons d s ih =>
    rw [List.cons_append, List.takeWhile_cons, List.takeWhile_cons, List.dropWhile_cons,
      List.dropWhile_cons, ih.1, ih.2]
    by_cases hd : p d = true
    · rw [if_pos hd, if_pos hd, if_pos hd]
      exact ⟨rfl, rfl⟩
    · rw [if_neg hd, if_neg hd, if_neg hd]
      exact ⟨rfl, rfl⟩

theorem splitNetloc_of_take {path : List Char} (h : path.take 2 ≠ ['/', '/']) :
    splitNetloc path = ([], path) := by
  rw [splitNetloc.eq_def]
  split
  · exact absurd rfl h
  · rfl

theorem splitNetloc_append_query (s query : List Char) :
    splitNetloc (s ++ '?' :: query) =
      ((splitNetloc s).1, (splitNetloc s).2 ++ '?' :: query) := by
  by_cases h : s.take 2 = ['/', '/']
  · obtain ⟨rest, rfl⟩ : ∃ rest, s = '/' :: '/' :: rest :=
      ⟨s.drop 2, by rw [← List.take_append_drop 2 s, h]; rfl⟩
    obtain ⟨htake, hdrop⟩ := takeWhile_append_of_stop
      (p := (!isDelimiter ·)) (c := '?') rfl rest query
    rw [List.cons_append, List.cons_append, splitNetloc, splitNetloc, htake, hdrop]
  · have hquery : (s ++ '?' :: query).take 2 ≠ ['/', '/'] := by
      intro heq
      cases s with
      | nil => exact absurd heq (by simp)
      | cons c s =>
        cases s with
        | nil => exact absurd heq (by simp)
        | cons d s => exact h heq
    rw [splitNetloc_of_take h, splitNetloc_of_take hquery]

/-- Another character before the first colon: there is no scheme. -/
theorem splitScheme_of_mem {url : List Char} {c : Char} (hc : c ∈ url.takeWhile (· != ':'))
    (hscheme : isSchemeChar c = false) (default : List Char) :
    splitScheme url default = (default, url) := by
  rw [splitScheme]
  split
  · next first name _ rest htake hdrop =>
    refine if_neg fun h => ?_
    rw [Bool.and_eq_true, List.all_eq_true] at h
    rw [htake] at hc
    rw [h.2 c hc] at hscheme
    cases hscheme
  · rfl

theorem splitScheme_append_query (s query default : List Char) :
    splitScheme (s ++ '?' :: query) default =
      ((splitScheme s default).1, (splitScheme s default).2 ++ '?' :: query) := by
  by_cases hmem : ':' ∈ s
  · obtain ⟨before, after, rfl, hnot⟩ := List.eq_append_cons_of_mem hmem
    have hbefore := bne_of_not_mem hnot
    have hsplit : ∀ rest, splitScheme (before ++ ':' :: rest) default =
        if before.head?.any Char.isAlpha && before.all isSchemeChar then
          (before.map Char.toLower, rest)
        else (default, before ++ ':' :: rest) := by
      intro rest
      obtain ⟨htake, hdrop⟩ := takeWhile_append_cons ':' rest hbefore rfl
      rw [splitScheme, htake, hdrop]
      cases before with
      | nil => rfl
      | cons c name => rfl
    rw [List.append_assoc, List.cons_append, hsplit, hsplit]
    by_cases hscheme : (before.head?.any Char.isAlpha && before.all isSchemeChar) = true
    · rw [if_pos hscheme, if_pos hscheme]
    · rw [if_neg hscheme, if_neg hscheme, List.append_assoc]
      rfl
  · have hs := bne_of_not_mem hmem
    have htake : s.takeWhile (· != ':') = s := List.takeWhile_eq_self_iff.mpr hs
    have hdrop : s.dropWhile (· != ':') = [] := List.dropWhile_eq_nil_iff.mpr hs
    have hself : splitScheme s default = (default, s) := by
      rw [splitScheme, htake, hdrop]
      cases s <;> rfl
    have hquery : '?' ∈ (s ++ '?' :: query).takeWhile (· != ':') := by
      rw [List.takeWhile_append_of_pos hs, List.takeWhile_cons_of_pos rfl]
      exact List.mem_append_right _ List.mem_cons_self
    rw [splitScheme_of_mem hquery rfl, hself]

theorem strip_append {s : List Char} (h : ∃ c ∈ s, 32 < c.toNat) (rest : List Char) :
    strip (s ++ rest) = strip s ++ rest.filter isSafe := by
  obtain ⟨c, hc, hlarge⟩ := h
  have hne : ¬ (s.dropWhile fun c => decide (c.toNat ≤ 32)).isEmpty = true := by
    rw [List.isEmpty_iff, List.dropWhile_eq_nil_iff]
    intro hall
    have hsmall := hall c hc
    simp only [decide_eq_true_eq] at hsmall
    omega
  rw [strip, List.dropWhile_append, if_neg hne, List.filter_append]
  rfl

/-- After the text of an address, a query is read as it stands, up to a `#`. -/
theorem urlsplit_append_query {s query : List Char} (h : ∃ c ∈ s, 32 < c.toNat)
    (hquery : '?' ∉ s) (hfragment : '#' ∉ s) :
    urlsplit C (s ++ '?' :: query) [] = (urlsplit C s []).map fun parts =>
      { parts with query := (partition '#' (query.filter isSafe)).1
                   fragment := (partition '#' (query.filter isSafe)).2 } := by
  have hstrip : strip (s ++ '?' :: query) = strip s ++ '?' :: query.filter isSafe :=
    strip_append h _
  have hsub : ∀ c ∈ (splitNetloc (splitScheme (strip s) []).2).2, c ∈ s := fun c hc =>
    (List.dropWhile_sublist _).subset
      (List.mem_filter.mp (mem_of_mem_splitScheme (mem_of_mem_splitNetloc (.inr hc)))).1
  have hhash : '#' ∉ (splitNetloc (splitScheme (strip s) []).2).2 := fun hc => hfragment (hsub _ hc)
  have hmark : '?' ∉ (splitNetloc (splitScheme (strip s) []).2).2 := fun hc => hquery (hsub _ hc)
  have hparts : splitParts (s ++ '?' :: query) [] =
      { splitParts s [] with query := (partition '#' (query.filter isSafe)).1
                             fragment := (partition '#' (query.filter isSafe)).2 } := by
    rw [splitParts, splitParts, hstrip, splitScheme_append_query]
    dsimp only
    rw [splitNetloc_append_query]
    dsimp only
    have hboth : '#' ∉ (splitNetloc (splitScheme (strip s) []).2).2 ++ ['?'] := by
      rw [List.mem_append]
      rintro (hc | hc)
      · exact hhash hc
      · exact absurd hc (by decide)
    rw [List.append_cons, partition_append_of_not_mem hboth]
    dsimp only
    rw [List.append_assoc, List.singleton_append, partition_append hmark,
      partition_of_not_mem hhash]
    dsimp only
    rw [partition_of_not_mem hmark]
  rw [urlsplit_eq, urlsplit_eq, hparts]
  cases checkNetloc C (splitParts s []).netloc <;> rfl

end MonascaNotification.Urlparse
