import Mathlib.Data.Nat.Find
import Mathlib.Data.Nat.Init
import Mathlib.Order.Basic
import Mathlib.Logic.Relation
import MonascaNotification.Infra.Generator

/-!
# Programs that share a state

Any number of programs run at the same time. Each effect is one step on the shared state and on
a state of the program's own, and any program may go next.

`Safe` is what can be said about one program alone when all that is known of the others is that
they make the shared state grow. `Pool.Reachable.safe` says that it holds of each program in
every reachable state. A program is a well-founded tree, so a program that is not forgotten comes
to its end (`FairRun.ends`).
-/

namespace Infra

variable {E : Type} {R : E → Type} {ε α β ι σ τ : Type}

/-- What effects do: the shared state and the own state, before and after. -/
abbrev Acts (E : Type) (R : E → Type) (σ τ : Type) := (e : E) → σ → τ → R e → σ → τ → Prop

/-! ## One program -/

namespace Prog

variable [Preorder σ] {A : Acts E R σ τ}

/--
Whatever the others do in between, no effect gets stuck, each one makes the shared state grow,
and `Q` holds at the end.
-/
def Safe (A : Acts E R σ τ) (Q : Except ε α → σ → τ → Prop) : Prog E R ε α → σ → τ → Prop
  | .ret a, s, l => ∀ s', s ≤ s' → Q (.ok a) s' l
  | .raise x, s, l => ∀ s', s ≤ s' → Q (.error x) s' l
  | .perform e k, s, l => ∀ s', s ≤ s' → (∃ r t l', A e s' l r t l') ∧
      ∀ r t l', A e s' l r t l' → s' ≤ t ∧ Safe A Q (k r) t l'

variable {Q : Except ε α → σ → τ → Prop} {Q' : Except ε β → σ → τ → Prop}

/-- The others may go first. -/
theorem Safe.mono {p : Prog E R ε α} {s s' : σ} {l : τ} (h : Safe A Q p s l) (hs : s ≤ s') :
    Safe A Q p s' l := by
  cases p with
  | ret a => exact fun t ht => h t (le_trans hs ht)
  | raise x => exact fun t ht => h t (le_trans hs ht)
  | perform e k => exact fun t ht => h t (le_trans hs ht)

theorem Safe.imp {Q'' : Except ε α → σ → τ → Prop} {p : Prog E R ε α} {s : σ} {l : τ}
    (h : Safe A Q p s l) (hQ : ∀ out t l', s ≤ t → Q out t l' → Q'' out t l') :
    Safe A Q'' p s l := by
  induction p generalizing s l with
  | ret a => exact fun t ht => hQ _ _ _ ht (h t ht)
  | raise x => exact fun t ht => hQ _ _ _ ht (h t ht)
  | perform e k ih =>
    intro s' hs'
    obtain ⟨hstep, hnext⟩ := h s' hs'
    refine ⟨hstep, fun r t l' hact => ⟨(hnext r t l' hact).1, ?_⟩⟩
    refine ih r (hnext r t l' hact).2 fun out t' l'' ht' hout => hQ out t' l'' ?_ hout
    exact le_trans hs' (le_trans (hnext r t l' hact).1 ht')

theorem Safe.bind {p : Prog E R ε α} {f : α → Prog E R ε β} {s : σ} {l : τ}
    (h : Safe A Q p s l) (hok : ∀ a t l', s ≤ t → Q (.ok a) t l' → Safe A Q' (f a) t l')
    (herror : ∀ x t l', s ≤ t → Q (.error x) t l' → Q' (.error x) t l') :
    Safe A Q' (p.bind f) s l := by
  induction p generalizing s l with
  | ret a => exact hok a s l le_rfl (h s le_rfl)
  | raise x => exact fun t ht => herror x t l ht (h t ht)
  | perform e k ih =>
    intro s' hs'
    obtain ⟨hstep, hnext⟩ := h s' hs'
    refine ⟨hstep, fun r t l' hact => ⟨(hnext r t l' hact).1, ?_⟩⟩
    have hst := le_trans hs' (hnext r t l' hact).1
    exact ih r (hnext r t l' hact).2
      (fun a t' l'' ht' ha => hok a t' l'' (le_trans hst ht') ha)
      (fun x t' l'' ht' hx => herror x t' l'' (le_trans hst ht') hx)

theorem Safe.tryCatch {Q'' : Except ε α → σ → τ → Prop} {p : Prog E R ε α}
    {h : ε → Prog E R ε α} {s : σ} {l : τ} (hp : Safe A Q p s l)
    (hok : ∀ a t l', s ≤ t → Q (.ok a) t l' → Q'' (.ok a) t l')
    (herror : ∀ x t l', s ≤ t → Q (.error x) t l' → Safe A Q'' (h x) t l') :
    Safe A Q'' (p.tryCatch h) s l := by
  induction p generalizing s l with
  | ret a => exact fun t ht => hok a t l ht (hp t ht)
  | raise x => exact herror x s l le_rfl (hp s le_rfl)
  | perform e k ih =>
    intro s' hs'
    obtain ⟨hstep, hnext⟩ := hp s' hs'
    refine ⟨hstep, fun r t l' hact => ⟨(hnext r t l' hact).1, ?_⟩⟩
    have hst := le_trans hs' (hnext r t l' hact).1
    exact ih r (hnext r t l' hact).2
      (fun a t' l'' ht' ha => hok a t' l'' (le_trans hst ht') ha)
      (fun x t' l'' ht' hx => herror x t' l'' (le_trans hst ht') hx)

/-- A program that only changes its result. -/
theorem safe_map {f : α → β} {p : Prog E R ε α} {s : σ} {l : τ} :
    Safe A Q' (p.bind fun a => .ret (f a)) s l ↔ Safe A (fun out => Q' (out.map f)) p s l := by
  induction p generalizing s l with
  | ret a => exact Iff.rfl
  | raise x => exact Iff.rfl
  | perform e k ih =>
    unfold bind Safe
    simp only [ih]

/-- A handler around a generator does nothing when no exception comes. -/
theorem safe_list_tryCatch {Y : Type} {g : Gen E R ε Y} {h : ε → Gen E R ε Y}
    {Q : Except ε (List Y) → σ → τ → Prop} {s : σ} {l : τ}
    (hg : Safe A Q (g.comprehension .ok) s l) (hQ : ∀ x t l', ¬ Q (.error x) t l') :
    Safe A Q ((g.tryCatch h).comprehension .ok) s l := by
  induction g generalizing Q s l with
  | done => exact hg
  | raise x => exact absurd (hg s le_rfl) (hQ x s l)
  | yield y rest ih =>
    have hrest := safe_map.mp (show Safe A Q ((rest.comprehension .ok).bind _) s l from hg)
    exact safe_map.mpr (ih hrest fun x t l' => hQ x t l')
  | perform e k ih =>
    intro s' hs'
    obtain ⟨hstep, hnext⟩ := hg s' hs'
    exact ⟨hstep, fun r t l' hact => ⟨(hnext r t l' hact).1, ih r (hnext r t l' hact).2 hQ⟩⟩

end Prog

/-! ## Any number of programs -/

/-- The shared state, and for each program its own state and what it has left to do. -/
structure Pool (ι E : Type) (R : E → Type) (ε α σ τ : Type) where
  shared : σ
  own : ι → τ
  prog : ι → Prog E R ε α

namespace Pool

/-- Program `i` performs its next effect. -/
def Step (A : ι → Acts E R σ τ) (c : Pool ι E R ε α σ τ) (i : ι) (c' : Pool ι E R ε α σ τ) :
    Prop :=
  ∃ e k r, c.prog i = .perform e k ∧ A i e c.shared (c.own i) r c'.shared (c'.own i) ∧
    c'.prog i = k r ∧ ∀ j, j ≠ i → c'.prog j = c.prog j ∧ c'.own j = c.own j

/-- The states of every interleaving. -/
def Reachable (A : ι → Acts E R σ τ) : Pool ι E R ε α σ τ → Pool ι E R ε α σ τ → Prop :=
  Relation.ReflTransGen fun c c' => ∃ i, Step A c i c'

variable {A : ι → Acts E R σ τ} {c c' : Pool ι E R ε α σ τ}

section Safe

variable [Preorder σ] {Q : ι → Except ε α → σ → τ → Prop}

/-- Every program of the pool is safe. -/
def Safe (A : ι → Acts E R σ τ) (Q : ι → Except ε α → σ → τ → Prop)
    (c : Pool ι E R ε α σ τ) : Prop :=
  ∀ i, Prog.Safe (A i) (Q i) (c.prog i) c.shared (c.own i)

theorem Safe.step {i : ι} (h : Safe A Q c) (hstep : Step A c i c') : Safe A Q c' := by
  obtain ⟨e, k, r, hprog, hact, hnext, hothers⟩ := hstep
  have hi := h i
  rw [hprog] at hi
  obtain ⟨hgrow, hsafe⟩ := (hi c.shared le_rfl).2 r _ _ hact
  intro j
  by_cases hj : j = i
  · subst hj
    rw [hnext]
    exact hsafe
  · obtain ⟨hprog', hown'⟩ := hothers j hj
    rw [hprog', hown']
    exact (h j).mono hgrow

/-- Safe programs stay safe, in every interleaving. -/
theorem Reachable.safe (hreach : Reachable A c c') (h : Safe A Q c) : Safe A Q c' := by
  induction hreach with
  | refl => exact h
  | tail _ hstep ih =>
    obtain ⟨i, hstep⟩ := hstep
    exact ih.step hstep

/-- A safe program that is not at its end can go on. -/
theorem Safe.canStep {i : ι} {e : E} {k : R e → Prog E R ε α} (h : Safe A Q c)
    (hprog : c.prog i = .perform e k) : ∃ c', Step A c i c' := by
  classical
  have hi := h i
  rw [hprog] at hi
  obtain ⟨r, t, l', hact⟩ := (hi c.shared le_rfl).1
  refine ⟨⟨t, Function.update c.own i l', Function.update c.prog i (k r)⟩, e, k, r, hprog, ?_, ?_,
    fun j hj => ⟨?_, ?_⟩⟩
  · show A i e c.shared (c.own i) r t (Function.update c.own i l' i)
    rw [Function.update_self]
    exact hact
  · show Function.update c.prog i (k r) i = k r
    rw [Function.update_self]
  · exact Function.update_of_ne hj ..
  · exact Function.update_of_ne hj ..

theorem Safe.of_ret {i : ι} {a : α} (h : Safe A Q c) (hprog : c.prog i = .ret a) :
    Q i (.ok a) c.shared (c.own i) := by
  have hi := h i
  rw [hprog] at hi
  exact hi c.shared le_rfl

theorem Safe.of_raise {i : ι} {x : ε} (h : Safe A Q c) (hprog : c.prog i = .raise x) :
    Q i (.error x) c.shared (c.own i) := by
  have hi := h i
  rw [hprog] at hi
  exact hi c.shared le_rfl

end Safe

/-! ## Fair runs -/

/-- An infinite run, with pauses, in which no program that can go on is forgotten. -/
structure FairRun (A : ι → Acts E R σ τ) (start : Pool ι E R ε α σ τ) where
  state : Nat → Pool ι E R ε α σ τ
  zero : state 0 = start
  next : ∀ n, state (n + 1) = state n ∨ ∃ i, Step A (state n) i (state (n + 1))
  fair : ∀ i n, (∃ e k, (state n).prog i = .perform e k) →
    ∃ m ≥ n, Step A (state m) i (state (m + 1))

namespace FairRun

variable {start : Pool ι E R ε α σ τ} (run : FairRun A start)

theorem reachable (n : Nat) : Reachable A start (run.state n) := by
  induction n with
  | zero =>
    rw [run.zero]
    exact .refl
  | succ n ih =>
    rcases run.next n with hsame | hstep
    · rw [hsame]
      exact ih
    · exact ih.tail hstep

/-- Until its next turn, a program stays as it is. -/
theorem prog_eq {i : ι} {n m : Nat} (hnm : n ≤ m)
    (hidle : ∀ j, n ≤ j → j < m → ¬ Step A (run.state j) i (run.state (j + 1))) :
    (run.state m).prog i = (run.state n).prog i := by
  induction m, hnm using Nat.le_induction with
  | base => rfl
  | succ m hm ih =>
    have hprev := ih fun j hj hjm => hidle j hj (by omega)
    rw [← hprev]
    rcases run.next m with hsame | ⟨i', hstep⟩
    · rw [hsame]
    · have hne : i ≠ i' := by
        rintro rfl
        exact hidle m hm (by omega) hstep
      obtain ⟨-, -, -, -, -, -, hothers⟩ := hstep
      exact (hothers i hne).1

/-- Every program comes to its end: each turn takes it down its tree. -/
theorem ends (i : ι) : ∃ n, (∃ a, (run.state n).prog i = .ret a) ∨
    ∃ x, (run.state n).prog i = .raise x := by
  classical
  have hend : ∀ (p : Prog E R ε α) (n : Nat), (run.state n).prog i = p →
      ∃ n, (∃ a, (run.state n).prog i = .ret a) ∨ ∃ x, (run.state n).prog i = .raise x := by
    intro p
    induction p with
    | ret a => exact fun n h => ⟨n, Or.inl ⟨a, h⟩⟩
    | raise x => exact fun n h => ⟨n, Or.inr ⟨x, h⟩⟩
    | perform e k ih =>
      intro n h
      have hturn := run.fair i n ⟨e, k, h⟩
      -- the first turn from `n` on
      obtain ⟨hm, hstep⟩ := Nat.find_spec hturn
      have hidle : ∀ j, n ≤ j → j < Nat.find hturn →
          ¬ Step A (run.state j) i (run.state (j + 1)) :=
        fun j hj hlt hj' => Nat.find_min hturn hlt ⟨hj, hj'⟩
      have hprog := run.prog_eq hm hidle
      obtain ⟨e', k', r, hprog', -, hnext, -⟩ := hstep
      rw [hprog, h] at hprog'
      cases hprog'
      exact ih r _ hnext
  exact hend _ 0 rfl

end FairRun

end Pool

end Infra
