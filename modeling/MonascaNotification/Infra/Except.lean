import Mathlib.Data.List.Forall2
import Mathlib.Data.Multiset.ZeroCons

/-!
# Computations that may fail

Inversion lemmas for `Except`: what a successful `do` block and a successful `mapM` say about
their parts. `unordered_mapM` is for a list whose order is not known.
-/

namespace Infra

variable {ε α β : Type}

@[simp] theorem ok_bind (a : α) (f : α → Except ε β) :
    ((Except.ok a : Except ε α) >>= f) = f a := rfl

@[simp] theorem error_bind (x : ε) (f : α → Except ε β) :
    ((Except.error x : Except ε α) >>= f) = .error x := rfl

theorem bind_eq_ok {x : Except ε α} {f : α → Except ε β} {b : β} :
    (x >>= f) = .ok b ↔ ∃ a, x = .ok a ∧ f a = .ok b := by
  cases x <;> simp

theorem exists_bind_eq_ok {x : Except ε α} {f : α → Except ε β} :
    (∃ b, (x >>= f) = .ok b) ↔ ∃ a, x = .ok a ∧ ∃ b, f a = .ok b := by
  cases x <;> simp

theorem exists_map_eq_ok {x : Except ε α} {f : α → β} :
    (∃ b, x.map f = .ok b) ↔ ∃ a, x = .ok a := by
  cases x <;> simp [Except.map]

theorem map_eq_ok {x : Except ε α} {f : α → β} {b : β} :
    x.map f = .ok b ↔ ∃ a, x = .ok a ∧ f a = b := by
  cases x <;> simp [Except.map]

theorem map_eq_error {x : Except ε α} {f : α → β} {e : ε} :
    x.map f = .error e ↔ x = .error e := by
  cases x <;> simp [Except.map]

theorem exists_eq_ok_and {a : α} {p : α → Prop} :
    (∃ b, (Except.ok a : Except ε α) = .ok b ∧ p b) ↔ p a := by
  simp

theorem exists_mapM_eq_ok {f : α → Except ε β} {xs : List α} (h : ∀ x ∈ xs, ∃ y, f x = .ok y) :
    ∃ ys, xs.mapM f = .ok ys := by
  induction xs with
  | nil => exact ⟨[], rfl⟩
  | cons x xs ih =>
    obtain ⟨y, hy⟩ := h x List.mem_cons_self
    obtain ⟨ys, hys⟩ := ih fun z hz => h z (List.mem_cons_of_mem _ hz)
    refine ⟨y :: ys, ?_⟩
    rw [List.mapM_cons, hy, hys]
    rfl

theorem mapM_eq_ok {f : α → Except ε β} {xs : List α} {ys : List β}
    (h : xs.mapM f = .ok ys) : List.Forall₂ (fun x y => f x = .ok y) xs ys := by
  induction xs generalizing ys with
  | nil =>
    rw [List.mapM_nil] at h
    cases h
    exact .nil
  | cons x xs ih =>
    rw [List.mapM_cons] at h
    obtain ⟨y, hy, h⟩ := bind_eq_ok.mp h
    obtain ⟨zs, hzs, h⟩ := bind_eq_ok.mp h
    cases h
    exact .cons hy (ih hzs)

theorem exists_mem_of_mapM_eq_ok {f : α → Except ε β} {xs : List α} {ys : List β}
    (h : xs.mapM f = .ok ys) {y : β} (hy : y ∈ ys) : ∃ x ∈ xs, f x = .ok y := by
  induction mapM_eq_ok h with
  | nil => cases hy
  | cons hx _ ih =>
    rcases List.mem_cons.mp hy with rfl | hy
    · exact ⟨_, List.mem_cons_self, hx⟩
    · rw [List.mapM_cons, hx, ok_bind] at h
      obtain ⟨zs, hzs, h⟩ := bind_eq_ok.mp h
      cases h
      obtain ⟨x, hmem, hx⟩ := ih hzs hy
      exact ⟨x, List.mem_cons_of_mem _ hmem, hx⟩

theorem exists_of_mem_of_mapM_eq_ok {f : α → Except ε β} {xs : List α} {ys : List β}
    (h : xs.mapM f = .ok ys) {x : α} (hx : x ∈ xs) : ∃ y ∈ ys, f x = .ok y := by
  induction mapM_eq_ok h with
  | nil => cases hx
  | cons hy _ ih =>
    rcases List.mem_cons.mp hx with rfl | hx
    · exact ⟨_, List.mem_cons_self, hy⟩
    · rw [List.mapM_cons, hy, ok_bind] at h
      obtain ⟨zs, hzs, h⟩ := bind_eq_ok.mp h
      cases h
      obtain ⟨y, hmem, hy⟩ := ih hzs hx
      exact ⟨y, List.mem_cons_of_mem _ hmem, hy⟩

/-- Of a `mapM` that succeeded, the members are the results of the members. -/
theorem mem_mapM_iff {f : α → Except ε β} {xs : List α} {ys : List β}
    (h : xs.mapM f = .ok ys) {y : β} : y ∈ ys ↔ ∃ x ∈ xs, f x = .ok y := by
  constructor
  · exact exists_mem_of_mapM_eq_ok h
  · rintro ⟨x, hx, hy⟩
    obtain ⟨z, hz, hz'⟩ := exists_of_mem_of_mapM_eq_ok h hx
    rw [hy] at hz'
    cases hz'
    exact hz

/-! ## Lists up to order -/

/-- A result up to the order of its list. -/
def unordered (out : Except ε (List α)) : Except ε (Multiset α) :=
  out.map fun l => (l : Multiset α)

theorem unordered_cons (b : β) (out : Except ε (List β)) :
    unordered (do
      let bs ← out
      return b :: bs) = (unordered out).map fun s => b ::ₘ s := by
  cases out <;> rfl

/-- Up to order, a `mapM` is the same in every order, when there is only one way to fail. -/
theorem unordered_mapM {f : α → Except ε β} {l l' : List α} (h : l.Perm l') {x : ε}
    (hf : ∀ a ∈ l, ∀ y, f a = .error y → y = x) :
    unordered (l.mapM f) = unordered (l'.mapM f) := by
  induction h with
  | nil => rfl
  | cons a _ ih =>
    rw [List.mapM_cons, List.mapM_cons]
    cases f a with
    | error y => rfl
    | ok b =>
      rw [ok_bind, ok_bind, unordered_cons, unordered_cons,
        ih fun c hc => hf c (List.mem_cons_of_mem _ hc)]
  | swap a b l =>
    simp only [List.mapM_cons]
    cases ha : f a with
    | error y =>
      cases hb : f b with
      | error z =>
        rw [hf a (by simp) y ha, hf b (by simp) z hb]
      | ok c => rfl
    | ok d =>
      cases hb : f b with
      | error z => rfl
      | ok c =>
        simp only [ok_bind]
        cases l.mapM f with
        | error y => rfl
        | ok bs => exact congrArg Except.ok (Multiset.cons_swap c d ↑bs)
  | trans h _ ih₁ ih₂ =>
    rw [ih₁ hf, ih₂ fun a ha => hf a (h.mem_iff.mpr ha)]

end Infra
