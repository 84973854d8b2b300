import Mathlib.Data.List.Induction
import Mathlib.Data.List.Nodup

/-!
# A cache that is never replaced

Values are kept in the order in which they come, each once, until the cache is full: the first
`bound` distinct values (`kept_eq_take`).
-/

namespace Infra

variable {α : Type} [DecidableEq α] {bound : Nat}

def keep (bound : Nat) (cache : List α) (x : α) : List α :=
  if x ∉ cache ∧ cache.length < bound then cache ++ [x] else cache

theorem prefix_keep (cache : List α) (x : α) : cache <+: keep bound cache x := by
  rw [keep]
  split
  · exact List.prefix_append cache [x]
  · exact List.prefix_refl cache

theorem nodup_keep {cache : List α} (h : cache.Nodup) (x : α) : (keep bound cache x).Nodup := by
  rw [keep]
  split
  · rename_i hkeep
    rw [List.nodup_append]
    refine ⟨h, List.nodup_singleton x, fun y hy z hz heq => hkeep.1 ?_⟩
    rw [List.mem_singleton.mp hz] at heq
    exact heq ▸ hy
  · exact h

theorem length_keep_le {cache : List α} (h : cache.length ≤ bound) (x : α) :
    (keep bound cache x).length ≤ bound := by
  rw [keep]
  split
  · rename_i hkeep
    rw [List.length_append, List.length_singleton]
    omega
  · exact h

theorem mem_keep {cache : List α} {x y : α} (h : y ∈ keep bound cache x) : y ∈ cache ∨ y = x := by
  rw [keep] at h
  split at h
  · rcases List.mem_append.mp h with hy | hy
    · exact .inl hy
    · exact .inr (List.mem_singleton.mp hy)
  · exact .inl h

/-- The cache after the values `xs`. -/
def kept (bound : Nat) (xs : List α) : List α := xs.foldl (keep bound) []

@[simp] theorem kept_nil : kept bound ([] : List α) = [] := rfl

theorem kept_append_singleton (xs : List α) (x : α) :
    kept bound (xs ++ [x]) = keep bound (kept bound xs) x := by
  rw [kept, List.foldl_append]
  rfl

theorem eraseDups_append_singleton (xs : List α) (x : α) :
    (xs ++ [x]).eraseDups = if x ∈ xs then xs.eraseDups else xs.eraseDups ++ [x] := by
  rw [List.eraseDups_append]
  by_cases hx : x ∈ xs
  · rw [if_pos hx, List.removeAll]
    simp [hx]
  · rw [if_neg hx, List.removeAll]
    simp [hx, List.eraseDups_cons]

theorem kept_eq_take (bound : Nat) (xs : List α) : kept bound xs = xs.eraseDups.take bound := by
  induction xs using List.reverseRecOn with
  | nil => simp
  | append_singleton xs x ih =>
    rw [kept_append_singleton, ih, eraseDups_append_singleton, keep]
    -- below the bound nothing was cut off, and above it nothing is added
    by_cases hfull : xs.eraseDups.length < bound
    · have hall : xs.eraseDups.take bound = xs.eraseDups := List.take_of_length_le (by omega)
      rw [hall]
      by_cases hx : x ∈ xs
      · rw [if_neg fun h => h.1 (List.mem_eraseDups.mpr hx), if_pos hx, hall]
      · rw [if_pos ⟨fun h => hx (List.mem_eraseDups.mp h), hfull⟩, if_neg hx]
        rw [List.take_of_length_le (by rw [List.length_append, List.length_singleton]; omega)]
    · have hlen : (xs.eraseDups.take bound).length = bound := by
        rw [List.length_take]
        omega
      rw [if_neg (by rw [hlen]; omega)]
      split
      · rfl
      · rw [List.take_append_of_le_length (by omega)]

/-! ## Without a bound -/

def addNew (found : List α) (x : α) : List α := if x ∈ found then found else found ++ [x]

theorem foldl_addNew (xs : List α) : xs.foldl addNew [] = xs.eraseDups := by
  induction xs using List.reverseRecOn with
  | nil => rfl
  | append_singleton xs x ih =>
    rw [List.foldl_append, ih, eraseDups_append_singleton]
    show addNew xs.eraseDups x = _
    rw [addNew]
    by_cases hx : x ∈ xs
    · rw [if_pos (List.mem_eraseDups.mpr hx), if_pos hx]
    · rw [if_neg fun h => hx (List.mem_eraseDups.mp h), if_neg hx]

/-- `x` is the only value in the list. -/
def Only {β : Type} (xs : List β) (x : β) : Prop := x ∈ xs ∧ ∀ y ∈ xs, y = x

theorem eraseDups_eq_singleton {xs : List α} {x : α} : xs.eraseDups = [x] ↔ Only xs x := by
  constructor
  · intro h
    have hmem : ∀ y, y ∈ xs ↔ y = x := by
      intro y
      rw [← List.mem_eraseDups, h, List.mem_singleton]
    exact ⟨(hmem x).mpr rfl, fun y hy => (hmem y).mp hy⟩
  · rintro ⟨hx, hall⟩
    cases xs with
    | nil => cases hx
    | cons y ys =>
      obtain rfl := hall y List.mem_cons_self
      have hnone : (ys.filter fun b => !b == y) = [] := by
        rw [List.filter_eq_nil_iff]
        intro z hz
        simp [hall z (List.mem_cons_of_mem _ hz)]
      rw [List.eraseDups_cons, hnone, List.eraseDups_nil]

theorem Only.perm {β : Type} {xs ys : List β} {x : β} (h : xs.Perm ys) : Only xs x ↔ Only ys x := by
  rw [Only, Only, h.mem_iff]
  exact and_congr_right fun _ => forall_congr' fun y => by rw [h.mem_iff]

theorem head?_eraseDups (xs : List α) : xs.eraseDups.head? = xs.head? := by
  cases xs with
  | nil => rfl
  | cons x xs =>
    rw [List.eraseDups_cons]
    rfl

end Infra
