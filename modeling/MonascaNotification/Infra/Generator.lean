import MonascaNotification.Infra.Triple

/-!
# Generators

A generator is a program that yields values on its way. Its consumer runs between two yields,
and may stop it there. What a consumer can see of it is its stream: the values in order, and
the exception that ended it, if any.

A comprehension goes back to its generator for each value. What it makes of a stream is
`consume`.
-/

namespace Infra

variable {E : Type} {R : E → Type} {ε α β Y σ : Type}

inductive Gen (E : Type) (R : E → Type) (ε Y : Type) where
  | done
  | raise (x : ε)
  | yield (y : Y) (rest : Gen E R ε Y)
  | perform (e : E) (k : R e → Gen E R ε Y)

namespace Gen

/-- Run `p`, and go on with the generator for its result. -/
def after : Prog E R ε α → (α → Gen E R ε Y) → Gen E R ε Y
  | .ret a, f => f a
  | .raise x, _ => .raise x
  | .perform e k, f => .perform e fun r => after (k r) f

/-- A handler around the whole body. It also sees what is raised after some values. -/
def tryCatch : Gen E R ε Y → (ε → Gen E R ε Y) → Gen E R ε Y
  | .done, _ => .done
  | .raise x, h => h x
  | .yield y rest, h => .yield y (rest.tryCatch h)
  | .perform e k, h => .perform e fun r => (k r).tryCatch h

/-- The values of a list, one after the other. -/
def ofList : List Y → Gen E R ε Y
  | [] => .done
  | y :: ys => .yield y (ofList ys)

/-- `[f(y) for y in g]`. -/
def comprehension (f : Y → Except ε β) : Gen E R ε Y → Prog E R ε (List β)
  | .done => .ret []
  | .raise x => .raise x
  | .yield y rest => (Prog.ofExcept (f y)).bind fun b =>
      (rest.comprehension f).bind fun bs => .ret (b :: bs)
  | .perform e k => .perform e fun r => (k r).comprehension f

/-- What a comprehension makes of a stream: its own exception comes before the one at the end. -/
def consume (f : Y → Except ε β) (s : List Y × Option ε) : Except ε (List β) := do
  let bs ← s.1.mapM f
  match s.2 with
  | some x => .error x
  | none => .ok bs

variable (sem : (e : E) → σ → R e × σ)

/-- The values, the exception after them, if any, and the last state of a run. -/
def run : Gen E R ε Y → σ → (List Y × Option ε) × σ
  | .done, w => (([], none), w)
  | .raise x, w => (([], some x), w)
  | .yield y rest, w => ((y :: (rest.run w).1.1, (rest.run w).1.2), (rest.run w).2)
  | .perform e k, w => (k (sem e w).1).run (sem e w).2

theorem run_after (p : Prog E R ε α) (f : α → Gen E R ε Y) (w : σ) :
    (after p f).run sem w = match p.run sem w with
      | (.ok a, w') => (f a).run sem w'
      | (.error x, w') => (([], some x), w') := by
  induction p generalizing w with
  | ret a => rfl
  | raise x => rfl
  | perform e k ih => exact ih _ _

theorem run_tryCatch (g : Gen E R ε Y) (h : ε → Gen E R ε Y) (w : σ) :
    (g.tryCatch h).run sem w = match g.run sem w with
      | ((ys, none), w') => ((ys, none), w')
      | ((ys, some x), w') =>
        ((ys ++ ((h x).run sem w').1.1, ((h x).run sem w').1.2), ((h x).run sem w').2) := by
  induction g generalizing w with
  | done => rfl
  | raise x => rfl
  | yield y rest ih =>
    unfold tryCatch
    rw [run, ih, run]
    obtain ⟨⟨ys, failure⟩, w'⟩ := rest.run sem w
    cases failure <;> rfl
  | perform e k ih => exact ih _ _

theorem comprehension_after (f : Y → Except ε β) (p : Prog E R ε α) (g : α → Gen E R ε Y) :
    (after p g).comprehension f = p.bind fun a => (g a).comprehension f := by
  induction p with
  | ret a => rfl
  | raise x => rfl
  | perform e k ih => exact congrArg (Prog.perform e) (funext ih)

theorem mapM_ok (ys : List Y) : (ys.mapM fun y => (Except.ok y : Except ε Y)) = .ok ys := by
  induction ys with
  | nil => rfl
  | cons y ys ih =>
    rw [List.mapM_cons, ih]
    rfl

@[simp] theorem consume_ok_none (ys : List Y) :
    consume .ok (ys, none) = (.ok ys : Except ε (List Y)) := by
  show (List.mapM _ ys >>= _) = _
  rw [mapM_ok]
  rfl

@[simp] theorem consume_ok_some (ys : List Y) (x : ε) :
    consume .ok (ys, some x) = (.error x : Except ε (List Y)) := by
  show (List.mapM _ ys >>= _) = _
  rw [mapM_ok]
  rfl

theorem consume_ok_cons (y : Y) (s : List Y × Option ε) :
    consume .ok (y :: s.1, s.2) = (do
      let ys ← consume .ok s
      return y :: ys : Except ε (List Y)) := by
  obtain ⟨ys, failure⟩ := s
  cases failure with
  | none =>
    rw [consume_ok_none, consume_ok_none]
    rfl
  | some x =>
    rw [consume_ok_some, consume_ok_some]
    rfl

/-- The list of all values takes the generator to its end. -/
theorem run_list (g : Gen E R ε Y) (w : σ) : (g.comprehension .ok).run sem w =
    (consume .ok (g.run sem w).1, (g.run sem w).2) := by
  induction g generalizing w with
  | done => rfl
  | raise x => rfl
  | yield y rest ih =>
    show ((rest.comprehension .ok).bind _).run sem w = _
    rw [Prog.run_bind, ih, run]
    obtain ⟨⟨ys, failure⟩, w'⟩ := rest.run sem w
    cases failure with
    | none =>
      rw [consume_ok_none, consume_ok_none]
      rfl
    | some x => rw [consume_ok_some, consume_ok_some]
  | perform e k ih => exact ih _ _

theorem run_ofList (ys : List Y) (w : σ) :
    (ofList ys : Gen E R ε Y).run sem w = ((ys, none), w) := by
  induction ys with
  | nil => rfl
  | cons y ys ih =>
    unfold ofList run
    rw [ih]

/-! ## Rules -/

/-- In every world whose answers are admissible, the stream is in `Q`. -/
def Ensures (Adm : (e : E) → R e → Prop) (g : Gen E R ε Y) (Q : List Y × Option ε → Prop) : Prop :=
  ∀ (σ : Type) (sem : (e : E) → σ → R e × σ) (w : σ), (∀ e w, Adm e (sem e w).1) →
    Q (g.run sem w).1

section Ensures

variable {Adm : (e : E) → R e → Prop} {Q Q' : List Y × Option ε → Prop}

theorem Ensures.mono {g : Gen E R ε Y} (h : g.Ensures Adm Q) (hQ : ∀ s, Q s → Q' s) :
    g.Ensures Adm Q' :=
  fun σ sem w hsem => hQ _ (h σ sem w hsem)

theorem Ensures.yield {g : Gen E R ε Y} {y : Y} (h : g.Ensures Adm fun s => Q (y :: s.1, s.2)) :
    (Gen.yield y g).Ensures Adm Q :=
  fun σ sem w hsem => h σ sem w hsem

theorem Ensures.tryCatch {g : Gen E R ε Y} {h : ε → Gen E R ε Y} (hg : g.Ensures Adm Q)
    (hdone : ∀ ys, Q (ys, none) → Q' (ys, none))
    (hraise : ∀ ys x, Q (ys, some x) → (h x).Ensures Adm fun s => Q' (ys ++ s.1, s.2)) :
    (g.tryCatch h).Ensures Adm Q' := by
  intro σ sem w hsem
  have hs := hg σ sem w hsem
  rw [run_tryCatch]
  generalize g.run sem w = r at hs
  obtain ⟨⟨ys, failure⟩, w'⟩ := r
  cases failure with
  | none => exact hdone ys hs
  | some x => exact hraise ys x hs σ sem w' hsem

end Ensures

end Gen

end Infra
