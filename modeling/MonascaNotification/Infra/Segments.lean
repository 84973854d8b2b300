import Mathlib.Algebra.Ring.Nat
import Mathlib.Data.List.Basic

/-!
# Separators and paths

What is between the separators of a list (`splitOn`), and what the list is made of.

A path is a list of segments, of which two have a meaning of their own: one stays where it is, and
one goes up. `removeDots` is the path without them. At the root, going up changes nothing.

`resolve` does the same with a stack that has something on it from the start. A marker for the root
is lost when the path goes up further than it went down (`resolve_singleton`).
-/

namespace Infra

/-! ## Separators -/

section

variable {α : Type} [DecidableEq α]

theorem not_mem_of_mem_splitOn {sep : α} {s seg : List α} (h : seg ∈ s.splitOn sep) :
    sep ∉ seg := by
  induction s generalizing seg with
  | nil =>
    rw [List.splitOn_nil, List.mem_singleton] at h
    rw [h]
    exact List.not_mem_nil
  | cons c s ih =>
    rw [List.splitOn_cons_eq_if_modifyHead] at h
    split at h
    · rcases List.mem_cons.mp h with rfl | h
      · exact List.not_mem_nil
      · exact ih h
    · next hc =>
      obtain ⟨first, rest, hsplit⟩ := List.exists_cons_of_ne_nil (List.splitOn_ne_nil sep s)
      rw [hsplit] at h ih
      rcases List.mem_cons.mp h with rfl | h
      · rw [List.mem_cons, not_or]
        exact ⟨fun heq => hc (by rw [heq]; exact beq_self_eq_true c), ih List.mem_cons_self⟩
      · exact ih (List.mem_cons_of_mem _ h)

omit [DecidableEq α] in
theorem intercalate_cons (sep : α) (seg : List α) (segs : List (List α)) :
    [sep].intercalate (seg :: segs) = seg ++ segs.flatMap (sep :: ·) := by
  induction segs generalizing seg with
  | nil => simp
  | cons next segs ih =>
    rw [List.intercalate_cons_cons, ih, List.flatMap_cons]
    simp

omit [DecidableEq α] in
theorem mem_intercalate {sep c : α} {segs : List (List α)} (h : c ∈ [sep].intercalate segs) :
    c = sep ∨ ∃ seg ∈ segs, c ∈ seg := by
  cases segs with
  | nil => cases h
  | cons seg segs =>
    rw [intercalate_cons, List.mem_append, List.mem_flatMap] at h
    rcases h with h | ⟨other, hother, hc⟩
    · exact .inr ⟨seg, List.mem_cons_self, h⟩
    · rcases List.mem_cons.mp hc with rfl | hc
      · exact .inl rfl
      · exact .inr ⟨other, List.mem_cons_of_mem _ hother, hc⟩

omit [DecidableEq α] in
theorem mem_intercalate_of_mem {sep c : α} {seg : List α} {segs : List (List α)}
    (h : seg ∈ segs) (hc : c ∈ seg) : c ∈ [sep].intercalate segs := by
  cases segs with
  | nil => cases h
  | cons first segs =>
    rw [intercalate_cons]
    rcases List.mem_cons.mp h with rfl | h
    · exact List.mem_append_left _ hc
    · exact List.mem_append_right _
        (List.mem_flatMap.mpr ⟨seg, h, List.mem_cons_of_mem _ hc⟩)

theorem mem_of_mem_splitOn {sep c : α} {s seg : List α} (h : seg ∈ s.splitOn sep) (hc : c ∈ seg) :
    c ∈ s := by
  have hs : [sep].intercalate (s.splitOn sep) = s := List.intercalate_splitOn sep
  rw [← hs]
  exact mem_intercalate_of_mem h hc

theorem exists_mem_splitOn (sep : α) {c : α} {s : List α} (hc : c ∈ s) (hsep : c ≠ sep) :
    ∃ seg ∈ s.splitOn sep, c ∈ seg := by
  have hs : [sep].intercalate (s.splitOn sep) = s := List.intercalate_splitOn sep
  rw [← hs] at hc
  exact (mem_intercalate hc).resolve_left hsep

omit [DecidableEq α] in
theorem length_intercalate {sep : α} {segs : List (List α)} (h : segs ≠ []) :
    ([sep].intercalate segs).length + 1 = (segs.map fun seg => seg.length + 1).sum := by
  obtain ⟨seg, segs, rfl⟩ := List.exists_cons_of_ne_nil h
  rw [intercalate_cons, List.length_append, List.length_flatMap, List.map_cons, List.sum_cons]
  simp only [List.length_cons]
  omega

theorem sum_length_splitOn (sep : α) (s : List α) :
    ((s.splitOn sep).map fun seg => seg.length + 1).sum = s.length + 1 := by
  rw [← length_intercalate (List.splitOn_ne_nil sep s), List.intercalate_splitOn]

end

/-! ## Dot segments -/

/-- The segments with a meaning, and the empty one. -/
structure Dots (σ : Type) where
  here : σ
  up : σ
  empty : σ
  here_ne_empty : here ≠ empty
  up_ne_empty : up ≠ empty

namespace Dots

variable {σ : Type} [DecidableEq σ] (D : Dots σ)

def IsDot (seg : σ) : Prop := seg = D.here ∨ seg = D.up

instance (seg : σ) : Decidable (D.IsDot seg) := inferInstanceAs (Decidable (_ ∨ _))

/-- One segment after those that are there. -/
def step (resolved : List σ) (seg : σ) : List σ :=
  if seg = D.up then resolved.dropLast
  else if seg = D.here then resolved
  else resolved ++ [seg]

/-- A path that ends with a dot segment is one of a directory. -/
def close (segs resolved : List σ) : List σ :=
  match segs.getLast? with
  | some seg => if D.IsDot seg then resolved ++ [D.empty] else resolved
  | none => resolved

def resolve (resolved segs : List σ) : List σ := D.close segs (segs.foldl D.step resolved)

/-- The path without dot segments. -/
def removeDots (segs : List σ) : List σ := D.resolve [] segs

/-- From this depth, the path goes up further than there is. -/
def climbs : Nat → List σ → Bool
  | _, [] => false
  | depth, seg :: segs =>
    if seg = D.up then depth == 0 || climbs (depth - 1) segs
    else if seg = D.here then climbs depth segs
    else climbs (depth + 1) segs

variable {D}

omit [DecidableEq σ] in
theorem empty_not_dot : ¬ D.IsDot D.empty := by
  rintro (h | h)
  · exact D.here_ne_empty h.symm
  · exact D.up_ne_empty h.symm

theorem step_of_not_dot {seg : σ} (h : ¬ D.IsDot seg) (resolved : List σ) :
    D.step resolved seg = resolved ++ [seg] := by
  rw [step, if_neg fun hup => h (.inr hup), if_neg fun hhere => h (.inl hhere)]

/-! ## Paths without dots -/

theorem foldl_step_of_not_dot {segs : List σ} (h : ∀ seg ∈ segs, ¬ D.IsDot seg)
    (resolved : List σ) : segs.foldl D.step resolved = resolved ++ segs := by
  induction segs generalizing resolved with
  | nil => simp
  | cons seg segs ih =>
    rw [List.foldl_cons, step_of_not_dot (h seg List.mem_cons_self),
      ih fun s hs => h s (List.mem_cons_of_mem _ hs), List.append_assoc]
    rfl

theorem close_of_not_dot {segs : List σ} (h : ∀ seg ∈ segs, ¬ D.IsDot seg) (resolved : List σ) :
    D.close segs resolved = resolved := by
  rw [close]
  cases hlast : segs.getLast? with
  | none => rfl
  | some seg =>
    dsimp only
    rw [if_neg (h seg (List.mem_of_getLast? hlast))]

theorem removeDots_of_not_dot {segs : List σ} (h : ∀ seg ∈ segs, ¬ D.IsDot seg) :
    D.removeDots segs = segs := by
  rw [removeDots, resolve, close_of_not_dot h, foldl_step_of_not_dot h, List.nil_append]

theorem not_dot_foldl_step {segs resolved : List σ} (h : ∀ seg ∈ resolved, ¬ D.IsDot seg) :
    ∀ seg ∈ segs.foldl D.step resolved, ¬ D.IsDot seg := by
  induction segs generalizing resolved with
  | nil => exact h
  | cons seg segs ih =>
    rw [List.foldl_cons]
    refine ih fun s hs => ?_
    rw [step] at hs
    split at hs
    · exact h s (List.dropLast_subset _ hs)
    · next hup =>
      split at hs
      · exact h s hs
      · next hhere =>
        rcases List.mem_append.mp hs with hs | hs
        · exact h s hs
        · rw [List.mem_singleton.mp hs]
          rintro (hdot | hdot)
          · exact hhere hdot
          · exact hup hdot

theorem not_dot_removeDots {segs : List σ} : ∀ seg ∈ D.removeDots segs, ¬ D.IsDot seg := by
  have hfold : ∀ seg ∈ segs.foldl D.step [], ¬ D.IsDot seg :=
    not_dot_foldl_step fun seg hseg => absurd hseg List.not_mem_nil
  intro seg hseg
  rw [removeDots, resolve, close] at hseg
  split at hseg
  · split at hseg
    · rcases List.mem_append.mp hseg with hseg | hseg
      · exact hfold seg hseg
      · rw [List.mem_singleton.mp hseg]
        exact empty_not_dot
    · exact hfold seg hseg
  · exact hfold seg hseg

/-! ## The segments that are left -/

theorem mem_foldl_step {segs resolved : List σ} {seg : σ} (h : seg ∈ segs.foldl D.step resolved) :
    seg ∈ resolved ∨ seg ∈ segs := by
  induction segs generalizing resolved with
  | nil => exact .inl h
  | cons first segs ih =>
    rcases ih h with h | h
    · rw [step] at h
      split at h
      · exact .inl (List.dropLast_subset _ h)
      · split at h
        · exact .inl h
        · rcases List.mem_append.mp h with h | h
          · exact .inl h
          · exact .inr (List.mem_cons.mpr (.inl (List.mem_singleton.mp h)))
    · exact .inr (List.mem_cons_of_mem _ h)

theorem mem_resolve {segs resolved : List σ} {seg : σ} (h : seg ∈ D.resolve resolved segs) :
    seg = D.empty ∨ seg ∈ resolved ∨ seg ∈ segs := by
  rw [resolve, close] at h
  split at h
  · split at h
    · rcases List.mem_append.mp h with h | h
      · exact .inr (mem_foldl_step h)
      · exact .inl (List.mem_singleton.mp h)
    · exact .inr (mem_foldl_step h)
  · exact .inr (mem_foldl_step h)

/-! ## The end of a path -/

theorem foldl_step_concat (segs resolved : List σ) (seg : σ) :
    (segs ++ [seg]).foldl D.step resolved = D.step (segs.foldl D.step resolved) seg := by
  rw [List.foldl_append]
  rfl

/-- The last segment stays, and a last dot is an empty segment. -/
theorem getLast?_resolve_concat (resolved segs : List σ) (seg : σ) :
    (D.resolve resolved (segs ++ [seg])).getLast? =
      some (if D.IsDot seg then D.empty else seg) := by
  rw [resolve, close, List.getLast?_concat, foldl_step_concat]
  dsimp only
  split
  · rw [List.getLast?_concat]
  · next hdot =>
    rw [step_of_not_dot hdot, List.getLast?_concat]

theorem resolve_cons (resolved : List σ) (seg : σ) {segs : List σ} (h : segs ≠ []) :
    D.resolve resolved (seg :: segs) = D.resolve (D.step resolved seg) segs := by
  obtain ⟨next, rest, rfl⟩ := List.exists_cons_of_ne_nil h
  rw [resolve, resolve, close, close, List.getLast?_cons_cons, List.foldl_cons]

/-! ## A stack that is not empty -/

theorem step_append {resolved : List σ} {seg : σ} (h : seg = D.up → resolved ≠ [])
    (below : List σ) :
    D.step (below ++ resolved) seg = below ++ D.step resolved seg := by
  rw [step, step]
  split
  · next hup => rw [List.dropLast_append_of_ne_nil (h hup)]
  · split
    · rfl
    · rw [List.append_assoc]

/-- What lies below only gets shorter. -/
theorem foldl_step_append (below resolved segs : List σ) :
    ∃ rest, segs.foldl D.step (below ++ resolved) = rest ++ segs.foldl D.step resolved := by
  induction segs generalizing below resolved with
  | nil => exact ⟨below, rfl⟩
  | cons seg segs ih =>
    rw [List.foldl_cons, List.foldl_cons]
    by_cases h : seg = D.up → resolved ≠ []
    · rw [step_append h]
      exact ih below _
    · -- going up from an empty stack takes a segment from what lies below
      obtain ⟨hup, hnil⟩ := Classical.not_imp.mp h
      obtain rfl := not_not.mp hnil
      have hpop : D.step (below ++ []) seg = below.dropLast ++ D.step [] seg := by
        rw [step, if_pos hup, step, if_pos hup, List.append_nil, List.dropLast_nil,
          List.append_nil]
      rw [hpop]
      exact ih _ _

theorem resolve_append (below resolved segs : List σ) :
    ∃ rest, D.resolve (below ++ resolved) segs = rest ++ D.resolve resolved segs := by
  obtain ⟨rest, hrest⟩ := foldl_step_append (D := D) below resolved segs
  refine ⟨rest, ?_⟩
  rw [resolve, resolve, hrest, close, close]
  split
  · split
    · rw [List.append_assoc]
    · rfl
  · rfl

/-- A marker below stays, unless the path goes up further than it went down. -/
theorem foldl_step_cons (root : σ) (resolved segs : List σ) :
    segs.foldl D.step (root :: resolved) =
      (if D.climbs resolved.length segs then [] else [root]) ++ segs.foldl D.step resolved := by
  induction segs generalizing resolved with
  | nil => rfl
  | cons seg segs ih =>
    rw [List.foldl_cons, List.foldl_cons, climbs, step, step]
    by_cases hup : seg = D.up
    · rw [if_pos hup, if_pos hup, if_pos hup]
      -- with nothing above it, the marker itself is taken
      cases resolved with
      | nil => simp
      | cons top resolved =>
        have hlength : (top :: resolved).dropLast.length = (top :: resolved).length - 1 :=
          List.length_dropLast
        rw [List.dropLast_cons_of_ne_nil (List.cons_ne_nil top resolved), ih, hlength]
        simp
    · rw [if_neg hup, if_neg hup, if_neg hup]
      by_cases hhere : seg = D.here
      · rw [if_pos hhere, if_pos hhere, if_pos hhere]
        exact ih resolved
      · rw [if_neg hhere, if_neg hhere, if_neg hhere]
        have hlength : (resolved ++ [seg]).length = resolved.length + 1 := List.length_append
        rw [List.cons_append, ih, hlength]

theorem resolve_singleton (root : σ) (segs : List σ) :
    D.resolve [root] segs =
      (if D.climbs 0 segs then [] else [root]) ++ D.removeDots segs := by
  rw [removeDots, resolve, resolve, foldl_step_cons, close, close]
  split
  · split
    · rw [List.append_assoc]
      rfl
    · rfl
  · rfl

end Dots

end Infra
