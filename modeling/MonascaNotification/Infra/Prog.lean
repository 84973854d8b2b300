/-!
# Programs as trees of effects

A program either returns, raises, or performs one effect and goes on with its answer.
Nothing is said about what the effects do: the answers come from outside, so one tree
stands for every behaviour of its environment.

## Ways to read a program

* `eval ans p`, `run sem p w` — the outcome when the answers are a function, or are computed
  from a state that the effects change
* `Runs p tr out` — `p`, answered along `tr`, ends with `out`
* `Performs p tr e` — `p`, answered along `tr`, is about to perform `e`
* `Reaches p tr q` — `p`, answered along `tr`, has `q` left to do (it may be stopped there)

`Runs` and `Performs` have one inversion lemma for each way of building a program. A callee
enters a proof through its own lemma about `Runs`, and its body is not opened again.
-/

namespace Infra

variable {E : Type} {R : E → Type} {ε α β : Type}

/-! ## Programs -/

/-- A program over the effects `E`. The effect `e` is answered by a value of type `R e`. -/
inductive Prog (E : Type) (R : E → Type) (ε α : Type) where
  | ret (a : α)
  | raise (x : ε)
  | perform (e : E) (k : R e → Prog E R ε α)

/-- An effect together with the answer it got. -/
abbrev Event (E : Type) (R : E → Type) := (e : E) × R e

abbrev Trace (E : Type) (R : E → Type) := List (Event E R)

namespace Prog

def bind : Prog E R ε α → (α → Prog E R ε β) → Prog E R ε β
  | .ret a, f => f a
  | .raise x, _ => .raise x
  | .perform e k, f => .perform e fun r => (k r).bind f

/-- `h` handles what `p` raises. What `h` itself raises is not handled again. -/
def tryCatch : Prog E R ε α → (ε → Prog E R ε α) → Prog E R ε α
  | .ret a, _ => .ret a
  | .raise x, h => h x
  | .perform e k, h => .perform e fun r => (k r).tryCatch h

instance : Monad (Prog E R ε) where
  pure := .ret
  bind := bind

instance : MonadExcept ε (Prog E R ε) where
  throw := .raise
  tryCatch := tryCatch

def ofExcept : Except ε α → Prog E R ε α
  | .ok a => .ret a
  | .error x => .raise x

@[simp] theorem pure_eq (a : α) : (pure a : Prog E R ε α) = .ret a := rfl

@[simp] theorem throw_eq (x : ε) : (throw x : Prog E R ε α) = .raise x := rfl

@[simp] theorem tryCatch_eq (p : Prog E R ε α) (h : ε → Prog E R ε α) :
    MonadExcept.tryCatch p h = p.tryCatch h := rfl

@[simp] theorem bind_eq (p : Prog E R ε α) (f : α → Prog E R ε β) : (p >>= f) = p.bind f := rfl

@[simp] theorem bind_ret (a : α) (f : α → Prog E R ε β) : (ret a).bind f = f a := rfl

@[simp] theorem bind_raise (x : ε) (f : α → Prog E R ε β) : (raise x).bind f = .raise x := rfl

@[simp] theorem bind_perform (e : E) (k : R e → Prog E R ε α) (f : α → Prog E R ε β) :
    (perform e k).bind f = .perform e fun r => (k r).bind f := rfl

@[simp] theorem ofExcept_ok (a : α) : (ofExcept (.ok a) : Prog E R ε α) = .ret a := rfl

@[simp] theorem ofExcept_error (x : ε) : (ofExcept (.error x) : Prog E R ε α) = .raise x := rfl

@[simp] theorem tryCatch_ret (a : α) (h : ε → Prog E R ε α) : (ret a).tryCatch h = .ret a := rfl

@[simp] theorem tryCatch_raise (x : ε) (h : ε → Prog E R ε α) : (raise x).tryCatch h = h x := rfl

@[simp] theorem tryCatch_perform (e : E) (k : R e → Prog E R ε α) (h : ε → Prog E R ε α) :
    (perform e k).tryCatch h = .perform e fun r => (k r).tryCatch h := rfl

theorem bind_assoc {γ : Type} (p : Prog E R ε α) (f : α → Prog E R ε β)
    (g : β → Prog E R ε γ) : (p.bind f).bind g = p.bind fun a => (f a).bind g := by
  induction p with
  | ret a => rfl
  | raise x => rfl
  | perform e k ih =>
    simp only [bind_perform]
    congr 1
    funext r
    exact ih r

/-! ## Evaluation -/

/-- The outcome when `ans` answers every effect. -/
def eval (ans : (e : E) → R e) : Prog E R ε α → Except ε α
  | .ret a => .ok a
  | .raise x => .error x
  | .perform e k => (k (ans e)).eval ans

@[simp] theorem eval_ret (ans : (e : E) → R e) (a : α) :
    (ret a : Prog E R ε α).eval ans = .ok a := rfl

@[simp] theorem eval_raise (ans : (e : E) → R e) (x : ε) :
    (raise x : Prog E R ε α).eval ans = .error x := rfl

@[simp] theorem eval_perform (ans : (e : E) → R e) (e : E) (k : R e → Prog E R ε α) :
    (perform e k).eval ans = (k (ans e)).eval ans := rfl

@[simp] theorem eval_ofExcept (ans : (e : E) → R e) (y : Except ε α) :
    (ofExcept y : Prog E R ε α).eval ans = y := by
  cases y <;> rfl

theorem eval_bind (ans : (e : E) → R e) (p : Prog E R ε α) (f : α → Prog E R ε β) :
    (p.bind f).eval ans = match p.eval ans with
      | .ok a => (f a).eval ans
      | .error x => .error x := by
  induction p with
  | ret a => rfl
  | raise x => rfl
  | perform e k ih => exact ih (ans e)

theorem eval_tryCatch (ans : (e : E) → R e) (p : Prog E R ε α) (h : ε → Prog E R ε α) :
    (p.tryCatch h).eval ans = match p.eval ans with
      | .ok a => .ok a
      | .error x => (h x).eval ans := by
  induction p with
  | ret a => rfl
  | raise x => rfl
  | perform e k ih => exact ih (ans e)

/-- The outcome and the last state when `sem` answers every effect from a state. -/
def run {σ : Type} (sem : (e : E) → σ → R e × σ) : Prog E R ε α → σ → Except ε α × σ
  | .ret a, w => (.ok a, w)
  | .raise x, w => (.error x, w)
  | .perform e k, w => (k (sem e w).1).run sem (sem e w).2

theorem run_bind {σ : Type} (sem : (e : E) → σ → R e × σ) (p : Prog E R ε α)
    (f : α → Prog E R ε β) (w : σ) : (p.bind f).run sem w = match p.run sem w with
      | (.ok a, w') => (f a).run sem w'
      | (.error x, w') => (.error x, w') := by
  induction p generalizing w with
  | ret a => rfl
  | raise x => rfl
  | perform e k ih => exact ih _ _

theorem run_tryCatch {σ : Type} (sem : (e : E) → σ → R e × σ) (p : Prog E R ε α)
    (h : ε → Prog E R ε α) (w : σ) : (p.tryCatch h).run sem w = match p.run sem w with
      | (.ok a, w') => (.ok a, w')
      | (.error x, w') => (h x).run sem w' := by
  induction p generalizing w with
  | ret a => rfl
  | raise x => rfl
  | perform e k ih => exact ih _ _

@[simp] theorem run_ofExcept {σ : Type} (sem : (e : E) → σ → R e × σ) (y : Except ε α) (w : σ) :
    (ofExcept y : Prog E R ε α).run sem w = (y, w) := by
  cases y <;> rfl

/-! ## Complete runs -/

/-- `p`, answered along `tr`, ends with `out`. -/
def Runs : Prog E R ε α → Trace E R → Except ε α → Prop
  | .ret a, tr, out => tr = [] ∧ out = .ok a
  | .raise x, tr, out => tr = [] ∧ out = .error x
  | .perform e k, tr, out => ∃ r tr', tr = ⟨e, r⟩ :: tr' ∧ Runs (k r) tr' out

@[simp] theorem runs_ret {a : α} {tr : Trace E R} {out : Except ε α} :
    Runs (.ret a) tr out ↔ tr = [] ∧ out = .ok a := Iff.rfl

@[simp] theorem runs_raise {x : ε} {tr : Trace E R} {out : Except ε α} :
    Runs (.raise x) tr out ↔ tr = [] ∧ out = .error x := Iff.rfl

@[simp] theorem runs_perform {e : E} {k : R e → Prog E R ε α} {tr : Trace E R}
    {out : Except ε α} :
    Runs (.perform e k) tr out ↔ ∃ r tr', tr = ⟨e, r⟩ :: tr' ∧ Runs (k r) tr' out := Iff.rfl

@[simp] theorem runs_ofExcept {y : Except ε α} {tr : Trace E R} {out : Except ε α} :
    Runs (ofExcept y) tr out ↔ tr = [] ∧ out = y := by
  cases y <;> simp

theorem runs_bind_ok {p : Prog E R ε α} {f : α → Prog E R ε β} {tr : Trace E R} {b : β} :
    Runs (p.bind f) tr (.ok b) ↔
      ∃ tr₁ tr₂ a, tr = tr₁ ++ tr₂ ∧ Runs p tr₁ (.ok a) ∧ Runs (f a) tr₂ (.ok b) := by
  induction p generalizing tr with
  | ret a =>
    constructor
    · exact fun h => ⟨[], tr, a, rfl, ⟨rfl, rfl⟩, h⟩
    · rintro ⟨tr₁, tr₂, a', rfl, ⟨rfl, ha⟩, h⟩
      cases ha
      exact h
  | raise x =>
    constructor
    · rintro ⟨-, h⟩
      cases h
    · rintro ⟨tr₁, tr₂, a, -, ⟨-, h⟩, -⟩
      cases h
  | perform e k ih =>
    simp only [bind_perform, runs_perform, ih]
    constructor
    · rintro ⟨r, tr', rfl, tr₁, tr₂, a, rfl, h₁, h₂⟩
      exact ⟨⟨e, r⟩ :: tr₁, tr₂, a, rfl, ⟨r, tr₁, rfl, h₁⟩, h₂⟩
    · rintro ⟨tr₁, tr₂, a, rfl, ⟨r, tr', rfl, h₁⟩, h₂⟩
      exact ⟨r, tr' ++ tr₂, rfl, tr', tr₂, a, rfl, h₁, h₂⟩

theorem runs_bind_error {p : Prog E R ε α} {f : α → Prog E R ε β} {tr : Trace E R} {x : ε} :
    Runs (p.bind f) tr (.error x) ↔ Runs p tr (.error x) ∨
      ∃ tr₁ tr₂ a, tr = tr₁ ++ tr₂ ∧ Runs p tr₁ (.ok a) ∧ Runs (f a) tr₂ (.error x) := by
  induction p generalizing tr with
  | ret a =>
    constructor
    · exact fun h => Or.inr ⟨[], tr, a, rfl, ⟨rfl, rfl⟩, h⟩
    · rintro (⟨-, h⟩ | ⟨tr₁, tr₂, a', rfl, ⟨rfl, ha⟩, h⟩)
      · cases h
      · cases ha
        exact h
  | raise y =>
    constructor
    · rintro ⟨htr, h⟩
      cases h
      exact Or.inl ⟨htr, rfl⟩
    · rintro (⟨htr, h⟩ | ⟨tr₁, tr₂, a, -, ⟨-, h⟩, -⟩)
      · cases h
        exact ⟨htr, rfl⟩
      · cases h
  | perform e k ih =>
    simp only [bind_perform, runs_perform, ih]
    constructor
    · rintro ⟨r, tr', rfl, h | ⟨tr₁, tr₂, a, rfl, h₁, h₂⟩⟩
      · exact Or.inl ⟨r, tr', rfl, h⟩
      · exact Or.inr ⟨⟨e, r⟩ :: tr₁, tr₂, a, rfl, ⟨r, tr₁, rfl, h₁⟩, h₂⟩
    · rintro (⟨r, tr', rfl, h⟩ | ⟨tr₁, tr₂, a, rfl, ⟨r, tr', rfl, h₁⟩, h₂⟩)
      · exact ⟨r, tr', rfl, Or.inl h⟩
      · exact ⟨r, tr' ++ tr₂, rfl, Or.inr ⟨tr', tr₂, a, rfl, h₁, h₂⟩⟩

theorem runs_bind {p : Prog E R ε α} {f : α → Prog E R ε β} {tr : Trace E R}
    {out : Except ε β} :
    Runs (p.bind f) tr out ↔ (∃ x, out = .error x ∧ Runs p tr (.error x)) ∨
      ∃ tr₁ tr₂ a, tr = tr₁ ++ tr₂ ∧ Runs p tr₁ (.ok a) ∧ Runs (f a) tr₂ out := by
  cases out with
  | ok b =>
    rw [runs_bind_ok]
    exact (or_iff_right fun ⟨x, h, _⟩ => nomatch h).symm
  | error x =>
    rw [runs_bind_error]
    refine or_congr_left ⟨fun h => ⟨x, rfl, h⟩, ?_⟩
    rintro ⟨y, hy, h⟩
    cases hy
    exact h

theorem runs_tryCatch {p : Prog E R ε α} {h : ε → Prog E R ε α} {tr : Trace E R}
    {out : Except ε α} :
    Runs (p.tryCatch h) tr out ↔ (∃ a, out = .ok a ∧ Runs p tr (.ok a)) ∨
      ∃ tr₁ tr₂ x, tr = tr₁ ++ tr₂ ∧ Runs p tr₁ (.error x) ∧ Runs (h x) tr₂ out := by
  induction p generalizing tr with
  | ret a =>
    constructor
    · rintro ⟨rfl, rfl⟩
      exact Or.inl ⟨a, rfl, rfl, rfl⟩
    · rintro (⟨a', rfl, rfl, ha⟩ | ⟨tr₁, tr₂, x, -, ⟨-, hx⟩, -⟩)
      · exact ⟨rfl, ha⟩
      · cases hx
  | raise y =>
    constructor
    · exact fun hr => Or.inr ⟨[], tr, y, rfl, ⟨rfl, rfl⟩, hr⟩
    · rintro (⟨a, -, -, ha⟩ | ⟨tr₁, tr₂, x, rfl, ⟨rfl, hx⟩, hr⟩)
      · cases ha
      · cases hx
        exact hr
  | perform e k ih =>
    simp only [tryCatch_perform, runs_perform, ih]
    constructor
    · rintro ⟨r, tr', rfl, ⟨a, rfl, hr⟩ | ⟨tr₁, tr₂, x, rfl, h₁, h₂⟩⟩
      · exact Or.inl ⟨a, rfl, r, tr', rfl, hr⟩
      · exact Or.inr ⟨⟨e, r⟩ :: tr₁, tr₂, x, rfl, ⟨r, tr₁, rfl, h₁⟩, h₂⟩
    · rintro (⟨a, rfl, r, tr', rfl, hr⟩ | ⟨tr₁, tr₂, x, rfl, ⟨r, tr', rfl, h₁⟩, h₂⟩)
      · exact ⟨r, tr', rfl, Or.inl ⟨a, rfl, hr⟩⟩
      · exact ⟨r, tr' ++ tr₂, rfl, Or.inr ⟨tr', tr₂, x, rfl, h₁, h₂⟩⟩

/-- `try: v = p(); return g(v)`, with a handler `h`. -/
theorem runs_tryCatch_map {p : Prog E R ε α} {g : α → β} {h : ε → Prog E R ε β}
    {tr : Trace E R} {out : Except ε β} :
    Runs ((p.bind fun a => .ret (g a)).tryCatch h) tr out ↔
      (∃ a, out = .ok (g a) ∧ Runs p tr (.ok a)) ∨
        ∃ tr₁ tr₂ x, tr = tr₁ ++ tr₂ ∧ Runs p tr₁ (.error x) ∧ Runs (h x) tr₂ out := by
  induction p generalizing tr with
  | ret a =>
    constructor
    · rintro ⟨rfl, rfl⟩
      exact Or.inl ⟨a, rfl, rfl, rfl⟩
    · rintro (⟨a', rfl, rfl, ha⟩ | ⟨tr₁, tr₂, x, -, ⟨-, hx⟩, -⟩)
      · cases ha
        exact ⟨rfl, rfl⟩
      · cases hx
  | raise y =>
    constructor
    · exact fun hr => Or.inr ⟨[], tr, y, rfl, ⟨rfl, rfl⟩, hr⟩
    · rintro (⟨a, -, -, ha⟩ | ⟨tr₁, tr₂, x, rfl, ⟨rfl, hx⟩, hr⟩)
      · cases ha
      · cases hx
        exact hr
  | perform e k ih =>
    simp only [bind_perform, tryCatch_perform, runs_perform, ih]
    constructor
    · rintro ⟨r, tr', rfl, ⟨a, rfl, hr⟩ | ⟨tr₁, tr₂, x, rfl, h₁, h₂⟩⟩
      · exact Or.inl ⟨a, rfl, r, tr', rfl, hr⟩
      · exact Or.inr ⟨⟨e, r⟩ :: tr₁, tr₂, x, rfl, ⟨r, tr₁, rfl, h₁⟩, h₂⟩
    · rintro (⟨a, rfl, r, tr', rfl, hr⟩ | ⟨tr₁, tr₂, x, rfl, ⟨r, tr', rfl, h₁⟩, h₂⟩)
      · exact ⟨r, tr', rfl, Or.inl ⟨a, rfl, hr⟩⟩
      · exact ⟨r, tr' ++ tr₂, rfl, Or.inr ⟨tr', tr₂, x, rfl, h₁, h₂⟩⟩

/-- A computation before `f` that needs no effects. -/
theorem runs_ofExcept_bind {y : Except ε α} {f : α → Prog E R ε β} {tr : Trace E R}
    {out : Except ε β} :
    Runs ((ofExcept y).bind f) tr out ↔ (∃ x, y = .error x ∧ tr = [] ∧ out = .error x) ∨
      ∃ a, y = .ok a ∧ Runs (f a) tr out := by
  cases y with
  | ok a =>
    constructor
    · exact fun h => Or.inr ⟨a, rfl, h⟩
    · rintro (⟨x, hx, -⟩ | ⟨a', ha, h⟩)
      · cases hx
      · cases ha
        exact h
  | error x =>
    constructor
    · exact fun h => Or.inl ⟨x, rfl, h⟩
    · rintro (⟨x', hx, h⟩ | ⟨a, ha, -⟩)
      · cases hx
        exact h
      · cases ha

/-- A computation after `p` that needs no effects only changes the outcome. -/
theorem runs_bind_ofExcept {p : Prog E R ε α} {f : α → Except ε β} {tr : Trace E R}
    {out : Except ε β} :
    Runs (p.bind fun a => ofExcept (f a)) tr out ↔
      ∃ y : Except ε α, Runs p tr y ∧ out = y.bind f := by
  induction p generalizing tr with
  | ret a =>
    rw [bind_ret, runs_ofExcept]
    constructor
    · rintro ⟨rfl, rfl⟩
      exact ⟨.ok a, ⟨rfl, rfl⟩, rfl⟩
    · rintro ⟨y, ⟨rfl, rfl⟩, rfl⟩
      exact ⟨rfl, rfl⟩
  | raise x =>
    constructor
    · rintro ⟨rfl, rfl⟩
      exact ⟨.error x, ⟨rfl, rfl⟩, rfl⟩
    · rintro ⟨y, ⟨rfl, rfl⟩, rfl⟩
      exact ⟨rfl, rfl⟩
  | perform e k ih =>
    simp only [bind_perform, runs_perform, ih]
    constructor
    · rintro ⟨r, tr', rfl, y, hrun, rfl⟩
      exact ⟨y, ⟨r, tr', rfl, hrun⟩, rfl⟩
    · rintro ⟨y, ⟨r, tr', rfl, hrun⟩, rfl⟩
      exact ⟨r, tr', rfl, y, hrun, rfl⟩

/-- The value of an outcome when `g` handles what was raised. -/
def recover (g : ε → α) : Except ε α → α
  | .ok a => a
  | .error x => g x

/-- With a handler that returns at once, nothing is raised. -/
theorem runs_tryCatch_ret {p : Prog E R ε α} {g : ε → α} {tr : Trace E R} {out : Except ε α} :
    Runs (p.tryCatch fun x => .ret (g x)) tr out ↔
      ∃ y : Except ε α, Runs p tr y ∧ out = .ok (recover g y) := by
  rw [runs_tryCatch]
  constructor
  · rintro (⟨a, rfl, h⟩ | ⟨tr₁, tr₂, x, rfl, h, rfl, rfl⟩)
    · exact ⟨.ok a, h, rfl⟩
    · exact ⟨.error x, by rwa [List.append_nil], rfl⟩
  · rintro ⟨a | x, h, rfl⟩
    · exact Or.inr ⟨tr, [], _, by simp, h, rfl, rfl⟩
    · exact Or.inl ⟨_, rfl, h⟩

/-- A program is deterministic in its answers: one trace starts with at most one run of it. -/
theorem Runs.unique {p : Prog E R ε α} {tr₁ tr₂ rest₁ rest₂ : Trace E R} {out₁ out₂ : Except ε α}
    (h₁ : Runs p tr₁ out₁) (h₂ : Runs p tr₂ out₂) (heq : tr₁ ++ rest₁ = tr₂ ++ rest₂) :
    tr₁ = tr₂ ∧ out₁ = out₂ := by
  induction p generalizing tr₁ tr₂ with
  | ret a =>
    obtain ⟨rfl, rfl⟩ := h₁
    obtain ⟨rfl, rfl⟩ := h₂
    exact ⟨rfl, rfl⟩
  | raise x =>
    obtain ⟨rfl, rfl⟩ := h₁
    obtain ⟨rfl, rfl⟩ := h₂
    exact ⟨rfl, rfl⟩
  | perform e k ih =>
    obtain ⟨r, tr₁', rfl, h₁⟩ := h₁
    obtain ⟨r', tr₂', rfl, h₂⟩ := h₂
    simp only [List.cons_append, List.cons.injEq, Sigma.mk.injEq, true_and] at heq
    obtain ⟨hr, heq⟩ := heq
    cases hr
    obtain ⟨rfl, hout⟩ := ih r h₁ h₂ heq
    exact ⟨rfl, hout⟩

/-- The trace when `sem` answers every effect from a state. -/
def trace {σ : Type} (sem : (e : E) → σ → R e × σ) : Prog E R ε α → σ → Trace E R
  | .ret _, _ => []
  | .raise _, _ => []
  | .perform e k, w => ⟨e, (sem e w).1⟩ :: (k (sem e w).1).trace sem (sem e w).2

theorem runs_trace {σ : Type} (sem : (e : E) → σ → R e × σ) (p : Prog E R ε α) (w : σ) :
    Runs p (p.trace sem w) (p.run sem w).1 := by
  induction p generalizing w with
  | ret a => exact ⟨rfl, rfl⟩
  | raise x => exact ⟨rfl, rfl⟩
  | perform e k ih => exact ⟨(sem e w).1, _, rfl, ih _ _⟩

theorem runs_trace_of_eq {σ : Type} {sem : (e : E) → σ → R e × σ} {p : Prog E R ε α} {w : σ}
    {out : Except ε α} (h : (p.run sem w).1 = out) : Runs p (p.trace sem w) out :=
  h ▸ runs_trace sem p w

/-! ## Unfinished runs -/

/-- `p`, answered along `tr`, is about to perform `e`. -/
def Performs : Prog E R ε α → Trace E R → E → Prop
  | .ret _, _, _ => False
  | .raise _, _, _ => False
  | .perform e k, tr, e' => tr = [] ∧ e' = e ∨
      ∃ r tr', tr = ⟨e, r⟩ :: tr' ∧ Performs (k r) tr' e'

@[simp] theorem performs_ret {a : α} {tr : Trace E R} {e : E} :
    ¬ Performs (.ret a : Prog E R ε α) tr e := id

@[simp] theorem performs_raise {x : ε} {tr : Trace E R} {e : E} :
    ¬ Performs (.raise x : Prog E R ε α) tr e := id

@[simp] theorem performs_perform {e e' : E} {k : R e → Prog E R ε α} {tr : Trace E R} :
    Performs (.perform e k) tr e' ↔ tr = [] ∧ e' = e ∨
      ∃ r tr', tr = ⟨e, r⟩ :: tr' ∧ Performs (k r) tr' e' := Iff.rfl

@[simp] theorem performs_ofExcept {y : Except ε α} {tr : Trace E R} {e : E} :
    ¬ Performs (ofExcept y) tr e := by
  cases y <;> exact id

/-- An effect of `p` followed by `f` is one of `p`, or one of `f` after a complete run of `p`. -/
theorem performs_bind {p : Prog E R ε α} {f : α → Prog E R ε β} {tr : Trace E R} {e : E} :
    Performs (p.bind f) tr e ↔ Performs p tr e ∨
      ∃ tr₁ tr₂ a, tr = tr₁ ++ tr₂ ∧ Runs p tr₁ (.ok a) ∧ Performs (f a) tr₂ e := by
  induction p generalizing tr with
  | ret a =>
    constructor
    · exact fun h => Or.inr ⟨[], tr, a, rfl, ⟨rfl, rfl⟩, h⟩
    · rintro (h | ⟨tr₁, tr₂, a', rfl, ⟨rfl, ha⟩, h⟩)
      · cases h
      · cases ha
        exact h
  | raise x =>
    constructor
    · exact fun h => h.elim
    · rintro (h | ⟨tr₁, tr₂, a, -, ⟨-, ha⟩, -⟩)
      · exact h
      · cases ha
  | perform e' k ih =>
    simp only [bind_perform, performs_perform, runs_perform, ih]
    constructor
    · rintro (h | ⟨r, tr', rfl, h | ⟨tr₁, tr₂, a, rfl, h₁, h₂⟩⟩)
      · exact Or.inl (Or.inl h)
      · exact Or.inl (Or.inr ⟨r, tr', rfl, h⟩)
      · exact Or.inr ⟨⟨e', r⟩ :: tr₁, tr₂, a, rfl, ⟨r, tr₁, rfl, h₁⟩, h₂⟩
    · rintro ((h | ⟨r, tr', rfl, h⟩) | ⟨tr₁, tr₂, a, rfl, ⟨r, tr', rfl, h₁⟩, h₂⟩)
      · exact Or.inl h
      · exact Or.inr ⟨r, tr', rfl, Or.inl h⟩
      · exact Or.inr ⟨r, tr' ++ tr₂, rfl, Or.inr ⟨tr', tr₂, a, rfl, h₁, h₂⟩⟩

/-- `p`, answered along `tr`, has `q` left to do. -/
inductive Reaches : Prog E R ε α → Trace E R → Prog E R ε α → Prop where
  | refl (p : Prog E R ε α) : Reaches p [] p
  | step {e : E} {k : R e → Prog E R ε α} {r : R e} {tr : Trace E R} {q : Prog E R ε α} :
      Reaches (k r) tr q → Reaches (.perform e k) (⟨e, r⟩ :: tr) q

theorem Reaches.snoc {p : Prog E R ε α} {tr : Trace E R} {e : E} {k : R e → Prog E R ε α}
    (h : Reaches p tr (.perform e k)) (r : R e) : Reaches p (tr ++ [⟨e, r⟩]) (k r) := by
  generalize hq : Prog.perform e k = q at h
  induction h with
  | refl p => subst hq; exact .step (.refl _)
  | step _ ih => exact .step (ih hq)

theorem Reaches.performs {p : Prog E R ε α} {tr : Trace E R} {e : E} {k : R e → Prog E R ε α}
    (h : Reaches p tr (.perform e k)) : Performs p tr e := by
  generalize hq : Prog.perform e k = q at h
  induction h with
  | refl p => subst hq; exact Or.inl ⟨rfl, rfl⟩
  | step _ ih => exact Or.inr ⟨_, _, rfl, ih hq⟩

theorem Reaches.runs {p q : Prog E R ε α} {tr tr' : Trace E R} {out : Except ε α}
    (h : Reaches p tr q) (hq : Runs q tr' out) : Runs p (tr ++ tr') out := by
  induction h with
  | refl p => exact hq
  | step _ ih => exact ⟨_, _, rfl, ih hq⟩

/-- A run has a point after each part of its trace. -/
theorem Runs.exists_reaches {p : Prog E R ε α} {tr₁ tr₂ : Trace E R} {out : Except ε α}
    (h : Runs p (tr₁ ++ tr₂) out) : ∃ q, Reaches p tr₁ q ∧ Runs q tr₂ out := by
  induction tr₁ generalizing p with
  | nil => exact ⟨p, .refl p, h⟩
  | cons ev tr₁ ih =>
    cases p with
    | ret a => cases h.1
    | raise x => cases h.1
    | perform e k =>
      obtain ⟨r, tr', heq, h⟩ := h
      cases heq
      obtain ⟨q, hreach, hq⟩ := ih h
      exact ⟨q, .step hreach, hq⟩

/-- Any effect of a finished run was performed on the way. -/
theorem Runs.performs {p : Prog E R ε α} {tr₁ tr₂ : Trace E R} {ev : Event E R}
    {out : Except ε α} (h : Runs p (tr₁ ++ ev :: tr₂) out) : Performs p tr₁ ev.1 := by
  induction p generalizing tr₁ with
  | ret a => exact absurd h.1 (by simp)
  | raise x => exact absurd h.1 (by simp)
  | perform e k ih =>
    obtain ⟨r, tr', heq, h⟩ := h
    cases tr₁ with
    | nil =>
      cases heq
      exact Or.inl ⟨rfl, rfl⟩
    | cons ev' tr₁ =>
      cases heq
      exact Or.inr ⟨r, tr₁, rfl, ih r h⟩

/-- What was performed before an effect was performed on the way to it. -/
theorem Performs.of_append {p : Prog E R ε α} {tr₁ tr₂ : Trace E R} {ev : Event E R} {e : E}
    (h : Performs p (tr₁ ++ ev :: tr₂) e) : Performs p tr₁ ev.1 := by
  induction p generalizing tr₁ with
  | ret a => cases h
  | raise x => cases h
  | perform e' k ih =>
    rcases h with ⟨htr, -⟩ | ⟨r, tr', heq, h⟩
    · exact absurd htr (by simp)
    · cases tr₁ with
      | nil =>
        cases heq
        exact Or.inl ⟨rfl, rfl⟩
      | cons ev' tr₁ =>
        cases heq
        exact Or.inr ⟨r, tr₁, rfl, ih r h⟩

theorem Reaches.of_append {p q : Prog E R ε α} {tr₁ tr₂ : Trace E R} {ev : Event E R}
    (h : Reaches p (tr₁ ++ ev :: tr₂) q) : Performs p tr₁ ev.1 := by
  induction tr₁ generalizing p with
  | nil =>
    cases h with
    | step _ => exact Or.inl ⟨rfl, rfl⟩
  | cons ev' tr₁ ih =>
    cases h with
    | step h => exact Or.inr ⟨_, _, rfl, ih h⟩

/-- The state after the first `n` effects when `sem` answers every effect from a state. -/
def stateAt {σ : Type} (sem : (e : E) → σ → R e × σ) : Prog E R ε α → σ → Nat → σ
  | .perform e k, w, n + 1 => (k (sem e w).1).stateAt sem (sem e w).2 n
  | _, w, _ => w

/-- Each effect of a computed trace was performed after what stands before it. -/
theorem performs_take_trace {σ : Type} (sem : (e : E) → σ → R e × σ) (p : Prog E R ε α) (w : σ)
    {n : Nat} {ev : Event E R} (h : (p.trace sem w)[n]? = some ev) :
    Performs p ((p.trace sem w).take n) ev.1 := by
  have hrun := runs_trace sem p w
  obtain ⟨hn, hget⟩ := List.getElem?_eq_some_iff.mp h
  rw [← List.take_append_drop n (p.trace sem w), List.drop_eq_getElem_cons hn, hget] at hrun
  exact hrun.performs

/-! ## The effects of a program -/

/-- All effects a program can ever perform satisfy `S`. -/
def Uses (S : E → Prop) : Prog E R ε α → Prop
  | .ret _ => True
  | .raise _ => True
  | .perform e k => S e ∧ ∀ r, Uses S (k r)

theorem uses_bind {S : E → Prop} {p : Prog E R ε α} {f : α → Prog E R ε β}
    (hp : Uses S p) (hf : ∀ a, Uses S (f a)) : Uses S (p.bind f) := by
  induction p with
  | ret a => exact hf a
  | raise x => trivial
  | perform e k ih => exact ⟨hp.1, fun r => ih r (hp.2 r)⟩

/-- It is enough to look at the values that the first program can return. -/
theorem uses_bind_of_runs {S : E → Prop} {p : Prog E R ε α} {f : α → Prog E R ε β}
    (hp : Uses S p) (hf : ∀ tr a, Runs p tr (.ok a) → Uses S (f a)) : Uses S (p.bind f) := by
  induction p with
  | ret a => exact hf [] a ⟨rfl, rfl⟩
  | raise x => trivial
  | perform e k ih =>
    exact ⟨hp.1, fun r => ih r (hp.2 r) fun tr a h => hf (⟨e, r⟩ :: tr) a ⟨r, tr, rfl, h⟩⟩

theorem uses_tryCatch {S : E → Prop} {p : Prog E R ε α} {h : ε → Prog E R ε α}
    (hp : Uses S p) (hh : ∀ x, Uses S (h x)) : Uses S (p.tryCatch h) := by
  induction p with
  | ret a => trivial
  | raise x => exact hh x
  | perform e k ih => exact ⟨hp.1, fun r => ih r (hp.2 r)⟩

@[simp] theorem uses_ret {S : E → Prop} {a : α} :
    Uses S (.ret a : Prog E R ε α) := trivial

@[simp] theorem uses_raise {S : E → Prop} {x : ε} :
    Uses S (.raise x : Prog E R ε α) := trivial

@[simp] theorem uses_perform {S : E → Prop} {e : E} {k : R e → Prog E R ε α} :
    Uses S (.perform e k) ↔ S e ∧ ∀ r, Uses S (k r) := Iff.rfl

@[simp] theorem uses_ofExcept {S : E → Prop} {y : Except ε α} :
    Uses S (ofExcept y : Prog E R ε α) := by
  cases y <;> trivial

theorem Uses.mono {S S' : E → Prop} {p : Prog E R ε α} (hp : Uses S p)
    (hS : ∀ e, S e → S' e) : Uses S' p := by
  induction p with
  | ret a => trivial
  | raise x => trivial
  | perform e k ih => exact ⟨hS e hp.1, fun r => ih r (hp.2 r)⟩

/-- The effects on the trace of a run are effects of the program. -/
theorem Uses.runs {S : E → Prop} {p : Prog E R ε α} (hp : Uses S p) {tr : Trace E R}
    {out : Except ε α} (h : Runs p tr out) : ∀ ev ∈ tr, S ev.1 := by
  induction p generalizing tr with
  | ret a => obtain ⟨rfl, -⟩ := h; simp
  | raise x => obtain ⟨rfl, -⟩ := h; simp
  | perform e k ih =>
    obtain ⟨r, tr', rfl, h⟩ := h
    simp only [List.mem_cons, forall_eq_or_imp]
    exact ⟨hp.1, ih r (hp.2 r) h⟩

/-- What comes before an effect is of the kind, too. -/
theorem Uses.before {S : E → Prop} {p : Prog E R ε α} (hp : Uses S p) {tr : Trace E R} {e : E}
    (h : Performs p tr e) : ∀ ev ∈ tr, S ev.1 := by
  induction p generalizing tr with
  | ret a => cases h
  | raise x => cases h
  | perform e' k ih =>
    rcases h with ⟨rfl, -⟩ | ⟨r, tr', rfl, h⟩
    · simp
    · intro ev hev
      rcases List.mem_cons.mp hev with rfl | hev
      · exact hp.1
      · exact ih r (hp.2 r) h ev hev

theorem Uses.performs {S : E → Prop} {p : Prog E R ε α} (hp : Uses S p) {tr : Trace E R} {e : E}
    (h : Performs p tr e) : S e := by
  induction p generalizing tr with
  | ret a => cases h
  | raise x => cases h
  | perform e' k ih =>
    rcases h with ⟨-, rfl⟩ | ⟨r, tr', -, h⟩
    · exact hp.1
    · exact ih r (hp.2 r) h

end Prog

/-! ## Admissible answers -/

/-- The answers on a trace are admissible. -/
def Trace.Admits (A : (e : E) → R e → Prop) (tr : Trace E R) : Prop :=
  ∀ ev ∈ tr, A ev.1 ev.2

@[simp] theorem Trace.admits_nil {A : (e : E) → R e → Prop} : Trace.Admits A [] := by
  simp [Trace.Admits]

@[simp] theorem Trace.admits_cons {A : (e : E) → R e → Prop} {ev : Event E R}
    {tr : Trace E R} : Trace.Admits A (ev :: tr) ↔ A ev.1 ev.2 ∧ Trace.Admits A tr := by
  simp [Trace.Admits]

@[simp] theorem Trace.admits_append {A : (e : E) → R e → Prop} {tr₁ tr₂ : Trace E R} :
    Trace.Admits A (tr₁ ++ tr₂) ↔ Trace.Admits A tr₁ ∧ Trace.Admits A tr₂ := by
  simp [Trace.Admits, or_imp, forall_and]

/-- When every answer is given in a fixed way, a program has a run with these answers. -/
theorem Prog.exists_run {A : (e : E) → R e → Prop} (ans : (e : E) → R e)
    (h : ∀ e, A e (ans e)) (p : Prog E R ε α) :
    ∃ tr out, Runs p tr out ∧ Trace.Admits A tr := by
  induction p with
  | ret a => exact ⟨[], .ok a, ⟨rfl, rfl⟩, Trace.admits_nil⟩
  | raise x => exact ⟨[], .error x, ⟨rfl, rfl⟩, Trace.admits_nil⟩
  | perform e k ih =>
    obtain ⟨tr, out, hrun, hadm⟩ := ih (ans e)
    exact ⟨⟨e, ans e⟩ :: tr, out, ⟨ans e, tr, rfl, hrun⟩, Trace.admits_cons.mpr ⟨h e, hadm⟩⟩

end Infra
