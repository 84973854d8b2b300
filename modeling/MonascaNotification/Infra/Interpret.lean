import MonascaNotification.Infra.Prog

/-!
# Calls that are programs themselves

A program over the calls of an interface, each of which may raise, can be read at two levels: a
call is one effect, or it is a program over smaller effects. `interpret` goes from the first
level to the second.

`runs_interpret` is the connection: a run below is a run above in which each call is answered by
the outcome of its program.
-/

namespace Infra

variable {E : Type} {R : E → Type} {C : Type} {A : C → Type} {ε α β γ : Type}

namespace Prog

/-! ## Going on with an outcome -/

/-- Run `p` and go on with its outcome, also when it is an exception. -/
def attempt : Prog E R ε α → (Except ε α → Prog E R ε β) → Prog E R ε β
  | .ret a, k => k (.ok a)
  | .raise x, k => k (.error x)
  | .perform e f, k => .perform e fun r => (f r).attempt k

theorem attempt_ofExcept (p : Prog E R ε α) : p.attempt ofExcept = p := by
  induction p with
  | ret a => rfl
  | raise x => rfl
  | perform e f ih => exact congrArg (perform e) (funext ih)

theorem attempt_bind (p : Prog E R ε α) (k : Except ε α → Prog E R ε β)
    (f : β → Prog E R ε γ) : (p.attempt k).bind f = p.attempt fun out => (k out).bind f := by
  induction p with
  | ret a => rfl
  | raise x => rfl
  | perform e g ih => exact congrArg (perform e) (funext ih)

theorem attempt_tryCatch (p : Prog E R ε α) (k : Except ε α → Prog E R ε β)
    (h : ε → Prog E R ε β) :
    (p.attempt k).tryCatch h = p.attempt fun out => (k out).tryCatch h := by
  induction p with
  | ret a => rfl
  | raise x => rfl
  | perform e g ih => exact congrArg (perform e) (funext ih)

theorem runs_attempt {p : Prog E R ε α} {k : Except ε α → Prog E R ε β} {tr : Trace E R}
    {out : Except ε β} :
    Runs (p.attempt k) tr out ↔
      ∃ tr₁ tr₂ y, tr = tr₁ ++ tr₂ ∧ Runs p tr₁ y ∧ Runs (k y) tr₂ out := by
  induction p generalizing tr with
  | ret a =>
    constructor
    · exact fun h => ⟨[], tr, .ok a, rfl, ⟨rfl, rfl⟩, h⟩
    · rintro ⟨_, tr₂, _, rfl, ⟨rfl, rfl⟩, h⟩
      exact h
  | raise x =>
    constructor
    · exact fun h => ⟨[], tr, .error x, rfl, ⟨rfl, rfl⟩, h⟩
    · rintro ⟨_, tr₂, _, rfl, ⟨rfl, rfl⟩, h⟩
      exact h
  | perform e g ih =>
    constructor
    · rintro ⟨r, tr', rfl, h⟩
      obtain ⟨tr₁, tr₂, y, rfl, h₁, h₂⟩ := ih r |>.mp h
      exact ⟨⟨e, r⟩ :: tr₁, tr₂, y, rfl, ⟨r, tr₁, rfl, h₁⟩, h₂⟩
    · rintro ⟨_, tr₂, y, rfl, ⟨r, tr₁, rfl, h₁⟩, h₂⟩
      exact ⟨r, tr₁ ++ tr₂, rfl, ih r |>.mpr ⟨tr₁, tr₂, y, rfl, h₁, h₂⟩⟩

/-! ## Interpretation -/

/-- The program of one call. -/
def call (c : C) : Prog C (fun c => Except ε (A c)) ε (A c) := .perform c ofExcept

/-- Each call is carried out by a program. -/
def interpret (h : (c : C) → Prog E R ε (A c)) :
    Prog C (fun c => Except ε (A c)) ε α → Prog E R ε α
  | .ret a => .ret a
  | .raise x => .raise x
  | .perform c k => (h c).attempt fun out => (k out).interpret h

section

variable (h : (c : C) → Prog E R ε (A c))

@[simp] theorem interpret_ret (a : α) :
    (ret a : Prog C (fun c => Except ε (A c)) ε α).interpret h = .ret a := rfl

@[simp] theorem interpret_raise (x : ε) :
    (raise x : Prog C (fun c => Except ε (A c)) ε α).interpret h = .raise x := rfl

@[simp] theorem interpret_ofExcept (y : Except ε α) :
    (ofExcept y : Prog C (fun c => Except ε (A c)) ε α).interpret h = ofExcept y := by
  cases y <;> rfl

@[simp] theorem interpret_call (c : C) : (call c).interpret h = h c := by
  have hofExcept : (fun out => (ofExcept out : Prog C (fun c => Except ε (A c)) ε (A c)).interpret
      h) = ofExcept := funext (interpret_ofExcept h)
  show (h c).attempt (fun out => (ofExcept out).interpret h) = h c
  rw [hofExcept, attempt_ofExcept]

theorem interpret_bind (p : Prog C (fun c => Except ε (A c)) ε α)
    (f : α → Prog C (fun c => Except ε (A c)) ε β) :
    (p.bind f).interpret h = (p.interpret h).bind fun a => (f a).interpret h := by
  induction p with
  | ret a => rfl
  | raise x => rfl
  | perform c k ih =>
    show (h c).attempt (fun out => ((k out).bind f).interpret h) =
      ((h c).attempt fun out => (k out).interpret h).bind fun a => (f a).interpret h
    rw [attempt_bind]
    exact congrArg _ (funext ih)

theorem interpret_tryCatch (p : Prog C (fun c => Except ε (A c)) ε α)
    (g : ε → Prog C (fun c => Except ε (A c)) ε α) :
    (p.tryCatch g).interpret h = (p.interpret h).tryCatch fun x => (g x).interpret h := by
  induction p with
  | ret a => rfl
  | raise x => rfl
  | perform c k ih =>
    show (h c).attempt (fun out => ((k out).tryCatch g).interpret h) =
      ((h c).attempt fun out => (k out).interpret h).tryCatch fun x => (g x).interpret h
    rw [attempt_tryCatch]
    exact congrArg _ (funext ih)

end

/-- The calls of the first trace are carried out along the second one. -/
inductive Carries (h : (c : C) → Prog E R ε (A c)) :
    Trace C (fun c => Except ε (A c)) → Trace E R → Prop where
  | nil : Carries h [] []
  | cons {c : C} {out : Except ε (A c)} {calls : Trace C fun c => Except ε (A c)}
      {tr₁ tr₂ : Trace E R} :
      Runs (h c) tr₁ out → Carries h calls tr₂ → Carries h (⟨c, out⟩ :: calls) (tr₁ ++ tr₂)

theorem runs_interpret {h : (c : C) → Prog E R ε (A c)}
    {p : Prog C (fun c => Except ε (A c)) ε α} {tr : Trace E R} {out : Except ε α} :
    Runs (p.interpret h) tr out ↔ ∃ calls, Runs p calls out ∧ Carries h calls tr := by
  induction p generalizing tr with
  | ret a =>
    constructor
    · rintro ⟨rfl, rfl⟩
      exact ⟨[], ⟨rfl, rfl⟩, .nil⟩
    · rintro ⟨calls, ⟨rfl, rfl⟩, hcarries⟩
      cases hcarries
      exact ⟨rfl, rfl⟩
  | raise x =>
    constructor
    · rintro ⟨rfl, rfl⟩
      exact ⟨[], ⟨rfl, rfl⟩, .nil⟩
    · rintro ⟨calls, ⟨rfl, rfl⟩, hcarries⟩
      cases hcarries
      exact ⟨rfl, rfl⟩
  | perform c k ih =>
    show Runs ((h c).attempt fun out => (k out).interpret h) tr out ↔ _
    rw [runs_attempt]
    constructor
    · rintro ⟨tr₁, tr₂, y, rfl, hcall, hrest⟩
      obtain ⟨calls, hrun, hcarries⟩ := (ih y).mp hrest
      exact ⟨⟨c, y⟩ :: calls, ⟨y, calls, rfl, hrun⟩, .cons hcall hcarries⟩
    · rintro ⟨_, ⟨y, calls, rfl, hrun⟩, hcarries⟩
      cases hcarries with
      | cons hcall hcarries =>
        exact ⟨_, _, y, rfl, hcall, (ih y).mpr ⟨calls, hrun, hcarries⟩⟩

end Prog

end Infra
