import MonascaNotification.Infra.Prog

/-!
# Rules for outcomes

`Triple A Pre p Post` says of a program in a world that its effects change: when it starts in a
state of `Pre` and comes to its end, its outcome and the last state are in `Post`. There is one
rule for each way of building a program, so a property of a whole program is put together from
those of its callees.

`Ensures` is the same for a world without a state, of whose answers only some are admissible.
-/

namespace Infra

variable {E : Type} {R : E → Type} {ε α β σ : Type}

/-! ## Worlds -/

/-- What effects do in a world: the state before, the answer, and the state after. -/
abbrev Answering (σ E : Type) (R : E → Type) := σ → (e : E) → R e → σ → Prop

/-- The events of `tr` take the world from `w` to `w'`. -/
inductive Walk (A : Answering σ E R) : σ → Trace E R → σ → Prop where
  | nil {w} : Walk A w [] w
  | cons {w e r w₁ tr w'} : A w e r w₁ → Walk A w₁ tr w' → Walk A w (⟨e, r⟩ :: tr) w'

theorem walk_append {A : Answering σ E R} {w w' : σ} {tr₁ tr₂ : Trace E R} :
    Walk A w (tr₁ ++ tr₂) w' ↔ ∃ w₁, Walk A w tr₁ w₁ ∧ Walk A w₁ tr₂ w' := by
  induction tr₁ generalizing w with
  | nil =>
    constructor
    · exact fun h => ⟨w, .nil, h⟩
    · rintro ⟨w₁, h₁, h₂⟩
      cases h₁
      exact h₂
  | cons ev tr₁ ih =>
    constructor
    · intro h
      cases h with
      | cons hact h =>
        obtain ⟨w₁, h₁, h₂⟩ := ih.mp h
        exact ⟨w₁, .cons hact h₁, h₂⟩
    · rintro ⟨w₁, h₁, h₂⟩
      cases h₁ with
      | cons hact h₁ => exact .cons hact (ih.mpr ⟨w₁, h₁, h₂⟩)

/-- A world that answers as `sem` computes walks along the trace of `sem`. -/
theorem walk_trace {A : Answering σ E R} {sem : (e : E) → σ → R e × σ}
    (h : ∀ w e, A w e (sem e w).1 (sem e w).2) (p : Prog E R ε α) (w : σ) :
    Walk A w (p.trace sem w) (p.run sem w).2 := by
  induction p generalizing w with
  | ret a => exact .nil
  | raise x => exact .nil
  | perform e k ih => exact .cons (h w e) (ih _ _)

namespace Prog

variable {A : Answering σ E R} {Pre : σ → Prop} {Mid Post : Except ε α → σ → Prop}
  {Post' : Except ε β → σ → Prop}

/-! ## Triples -/

/-- A run of `p` from a state of `Pre` ends in `Post`. -/
def Triple (A : Answering σ E R) (Pre : σ → Prop) (p : Prog E R ε α)
    (Post : Except ε α → σ → Prop) : Prop :=
  ∀ w tr out w', Pre w → Runs p tr out → Walk A w tr w' → Post out w'

theorem Triple.mono {Pre' : σ → Prop} {p : Prog E R ε α} (h : Triple A Pre p Mid)
    (hpre : ∀ w, Pre' w → Pre w) (hpost : ∀ out w, Mid out w → Post out w) :
    Triple A Pre' p Post :=
  fun w tr out w' hw hrun hwalk => hpost out w' (h w tr out w' (hpre w hw) hrun hwalk)

theorem triple_ret {a : α} (h : ∀ w, Pre w → Post (.ok a) w) : Triple A Pre (.ret a) Post := by
  rintro w tr out w' hw ⟨rfl, rfl⟩ hwalk
  cases hwalk
  exact h w hw

theorem triple_raise {x : ε} (h : ∀ w, Pre w → Post (.error x) w) :
    Triple A Pre (.raise x) Post := by
  rintro w tr out w' hw ⟨rfl, rfl⟩ hwalk
  cases hwalk
  exact h w hw

theorem triple_ofExcept {y : Except ε α} (h : ∀ w, Pre w → Post y w) :
    Triple A Pre (.ofExcept y) Post := by
  cases y with
  | ok a => exact triple_ret h
  | error x => exact triple_raise h

/-- One effect, and what comes after it for each answer. -/
theorem triple_perform {e : E} {k : R e → Prog E R ε α}
    (h : ∀ r, Triple A (fun w' => ∃ w, Pre w ∧ A w e r w') (k r) Post) :
    Triple A Pre (.perform e k) Post := by
  rintro w tr out w' hw ⟨r, tr', rfl, hrun⟩ hwalk
  cases hwalk with
  | @cons _ _ _ w₁ _ _ hact hwalk => exact h r w₁ tr' out w' ⟨w, hw, hact⟩ hrun hwalk

theorem Triple.bind {p : Prog E R ε α} {f : α → Prog E R ε β} (h : Triple A Pre p Mid)
    (hok : ∀ a, Triple A (Mid (.ok a)) (f a) Post')
    (herror : ∀ x w, Mid (.error x) w → Post' (.error x) w) : Triple A Pre (p.bind f) Post' := by
  intro w tr out w' hw hrun hwalk
  cases out with
  | ok b =>
    obtain ⟨tr₁, tr₂, a, rfl, h₁, h₂⟩ := runs_bind_ok.mp hrun
    obtain ⟨w₁, hwalk₁, hwalk₂⟩ := walk_append.mp hwalk
    exact hok a w₁ tr₂ _ w' (h w tr₁ _ w₁ hw h₁ hwalk₁) h₂ hwalk₂
  | error x =>
    rcases runs_bind_error.mp hrun with h₁ | ⟨tr₁, tr₂, a, rfl, h₁, h₂⟩
    · exact herror x w' (h w tr _ w' hw h₁ hwalk)
    · obtain ⟨w₁, hwalk₁, hwalk₂⟩ := walk_append.mp hwalk
      exact hok a w₁ tr₂ _ w' (h w tr₁ _ w₁ hw h₁ hwalk₁) h₂ hwalk₂

theorem Triple.tryCatch {p : Prog E R ε α} {h : ε → Prog E R ε α} (hp : Triple A Pre p Mid)
    (hok : ∀ a w, Mid (.ok a) w → Post (.ok a) w)
    (herror : ∀ x, Triple A (Mid (.error x)) (h x) Post) :
    Triple A Pre (p.tryCatch h) Post := by
  intro w tr out w' hw hrun hwalk
  rcases runs_tryCatch.mp hrun with ⟨a, rfl, h₁⟩ | ⟨tr₁, tr₂, x, rfl, h₁, h₂⟩
  · exact hok a w' (hp w tr _ w' hw h₁ hwalk)
  · obtain ⟨w₁, hwalk₁, hwalk₂⟩ := walk_append.mp hwalk
    exact herror x w₁ tr₂ out w' (hp w tr₁ _ w₁ hw h₁ hwalk₁) h₂ hwalk₂

/-! ## Worlds without a state -/

/-- Every run of `p` with admissible answers has an outcome in `Q`. -/
def Ensures (Adm : (e : E) → R e → Prop) (p : Prog E R ε α) (Q : Except ε α → Prop) : Prop :=
  ∀ tr out, Trace.Admits Adm tr → Runs p tr out → Q out

section Ensures

variable {Adm : (e : E) → R e → Prop} {Q Q₁ : Except ε α → Prop} {Q' : Except ε β → Prop}

theorem ensures_iff {p : Prog E R ε α} : Ensures Adm p Q ↔
    Triple (fun (_ : Unit) e r _ => Adm e r) (fun _ => True) p fun out _ => Q out := by
  have hwalk : ∀ {tr : Trace E R},
      Walk (fun (_ : Unit) e r _ => Adm e r) () tr () ↔ Trace.Admits Adm tr := by
    intro tr
    induction tr with
    | nil => exact ⟨fun _ => Trace.admits_nil, fun _ => .nil⟩
    | cons ev tr ih =>
      rw [Trace.admits_cons, ← ih]
      constructor
      · intro h
        cases h with
        | cons hact h => exact ⟨hact, h⟩
      · rintro ⟨hact, h⟩
        exact .cons hact h
  constructor
  · intro h w tr out w' _ hrun hw
    exact h tr out (hwalk.mp hw) hrun
  · intro h tr out hadm hrun
    exact h () tr out () trivial hrun (hwalk.mpr hadm)

theorem Ensures.mono {p : Prog E R ε α} (h : Ensures Adm p Q₁) (hQ : ∀ out, Q₁ out → Q out) :
    Ensures Adm p Q :=
  fun tr out hadm hrun => hQ out (h tr out hadm hrun)

theorem admits_trace {sem : (e : E) → σ → R e × σ} (hsem : ∀ e w, Adm e (sem e w).1)
    (p : Prog E R ε α) (w : σ) : Trace.Admits Adm (p.trace sem w) := by
  induction p generalizing w with
  | ret a => exact Trace.admits_nil
  | raise x => exact Trace.admits_nil
  | perform e k ih => exact Trace.admits_cons.mpr ⟨hsem e w, ih _ _⟩

/-- In particular the one run in a world that computes its answers. -/
theorem Ensures.run {p : Prog E R ε α} (h : Ensures Adm p Q) {sem : (e : E) → σ → R e × σ}
    (hsem : ∀ e w, Adm e (sem e w).1) (w : σ) : Q (p.run sem w).1 :=
  h _ _ (admits_trace hsem p w) (runs_trace sem p w)

theorem ensures_ret {a : α} (h : Q (.ok a)) : Ensures Adm (.ret a : Prog E R ε α) Q := by
  rintro tr out - ⟨-, rfl⟩
  exact h

theorem ensures_ofExcept {y : Except ε α} (h : Q y) :
    Ensures Adm (.ofExcept y : Prog E R ε α) Q := by
  intro tr out _ hrun
  obtain ⟨-, rfl⟩ := runs_ofExcept.mp hrun
  exact h

theorem ensures_perform {e : E} {k : R e → Prog E R ε α} (h : ∀ r, Adm e r → Ensures Adm (k r) Q) :
    Ensures Adm (.perform e k) Q := by
  rintro tr out hadm ⟨r, tr', rfl, hrun⟩
  rw [Trace.admits_cons] at hadm
  exact h r hadm.1 tr' out hadm.2 hrun

theorem Ensures.bind {p : Prog E R ε α} {f : α → Prog E R ε β} (h : Ensures Adm p Q)
    (hok : ∀ a, Q (.ok a) → Ensures Adm (f a) Q') (herror : ∀ x, Q (.error x) → Q' (.error x)) :
    Ensures Adm (p.bind f) Q' := by
  refine ensures_iff.mpr ((ensures_iff.mp h).bind (fun a => ?_) fun x _ hx => herror x hx)
  intro w tr out w' ha hrun hwalk
  exact ensures_iff.mp (hok a ha) w tr out w' trivial hrun hwalk

/-- What raises nothing gives a result, and the rest of the run goes on with it. -/
theorem Ensures.runs_bind {p : Prog E R ε α} {f : α → Prog E R ε β} (h : Ensures Adm p Q)
    (hno : ∀ x, ¬ Q (.error x)) {tr : Trace E R} {out : Except ε β} (hadm : Trace.Admits Adm tr)
    (hrun : Runs (p.bind f) tr out) :
    ∃ tr₁ tr₂ a, tr = tr₁ ++ tr₂ ∧ Runs p tr₁ (.ok a) ∧ Q (.ok a) ∧ Trace.Admits Adm tr₁ ∧
      Trace.Admits Adm tr₂ ∧ Runs (f a) tr₂ out := by
  rcases Prog.runs_bind.mp hrun with ⟨x, -, hp⟩ | ⟨tr₁, tr₂, a, rfl, hp, hf⟩
  · exact absurd (h tr _ hadm hp) (hno x)
  · obtain ⟨hadm₁, hadm₂⟩ := Trace.admits_append.mp hadm
    exact ⟨tr₁, tr₂, a, rfl, hp, h tr₁ _ hadm₁ hp, hadm₁, hadm₂, hf⟩

theorem Ensures.tryCatch {p : Prog E R ε α} {h : ε → Prog E R ε α} (hp : Ensures Adm p Q₁)
    (hok : ∀ a, Q₁ (.ok a) → Q (.ok a)) (herror : ∀ x, Q₁ (.error x) → Ensures Adm (h x) Q) :
    Ensures Adm (p.tryCatch h) Q := by
  refine ensures_iff.mpr ((ensures_iff.mp hp).tryCatch (fun a _ ha => hok a ha) fun x => ?_)
  intro w tr out w' hx hrun hwalk
  exact ensures_iff.mp (herror x hx) w tr out w' trivial hrun hwalk

end Ensures

end Prog

end Infra
