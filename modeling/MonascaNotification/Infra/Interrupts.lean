import MonascaNotification.Infra.Prog

/-!
# Handlers that interrupt each other

A program with signal handlers that run in its main thread. A signal may arrive between any two
effects, also while a handler runs. Its handler runs to the end before what it interrupted goes on,
so the programs that are in work are a stack. An exception that nobody catches ends all of them.

Two threads that test a flag and then set it, in two effects, can both get through. Nested handlers
cannot: who is interrupted between the two does not come back, provided that nobody who has set the
flag returns (`exclusive`).
-/

namespace Infra

/-- Effects on a global flag and on the table of handlers, and all others. -/
inductive FlagEffect (Sig E : Type) where
  | get
  | set
  | listen (sig : Sig)
  | other (e : E)

namespace FlagEffect

def Answer {Sig E : Type} (R : E → Type) : FlagEffect Sig E → Type
  | .get => Bool
  | .set => Unit
  | .listen _ => Unit
  | .other e => R e

end FlagEffect

abbrev FlagProg (Sig E : Type) (R : E → Type) (ε α : Type) :=
  Prog (FlagEffect Sig E) (FlagEffect.Answer R) ε α

abbrev FlagTrace (Sig E : Type) (R : E → Type) := Trace (FlagEffect Sig E) (FlagEffect.Answer R)

namespace Interrupts

open Prog

variable {Sig E : Type} {R : E → Type} {ε : Type}

/-- A program in work: the signal that it handles, and what is left of it. -/
structure Frame (Sig E : Type) (R : E → Type) (ε : Type) where
  sig : Sig
  rest : FlagProg Sig E R ε Unit

/-- The frames are there with the innermost first. -/
structure State (Sig E : Type) (R : E → Type) (ε : Type) where
  flag : Bool
  listens : List Sig
  received : List Sig
  frames : List (Frame Sig E R ε)
  trace : FlagTrace Sig E R
  exited : Option ε

/-- The main program alone, which stands for the signal `sig`. -/
def initial (sig : Sig) (main : FlagProg Sig E R ε Unit) : State Sig E R ε where
  flag := false
  listens := []
  received := []
  frames := [⟨sig, main⟩]
  trace := []
  exited := none

inductive Step (handler : Sig → FlagProg Sig E R ε Unit) :
    State Sig E R ε → State Sig E R ε → Prop where
  | signal {s : State Sig E R ε} {sig} : sig ∈ s.listens → s.exited = none → Step handler s
      { s with received := s.received ++ [sig], frames := ⟨sig, handler sig⟩ :: s.frames }
  | get {s : State Sig E R ε} {sig k fs} : s.frames = ⟨sig, .perform .get k⟩ :: fs → Step handler s
      { s with frames := ⟨sig, k s.flag⟩ :: fs, trace := s.trace ++ [⟨.get, s.flag⟩] }
  | set {s : State Sig E R ε} {sig k fs} : s.frames = ⟨sig, .perform .set k⟩ :: fs → Step handler s
      { s with flag := true, frames := ⟨sig, k ()⟩ :: fs, trace := s.trace ++ [⟨.set, ()⟩] }
  | listen {s : State Sig E R ε} {sig sig' k fs} :
      s.frames = ⟨sig, .perform (.listen sig') k⟩ :: fs → Step handler s
      { s with
        listens := s.listens ++ [sig']
        frames := ⟨sig, k ()⟩ :: fs
        trace := s.trace ++ [⟨.listen sig', ()⟩] }
  | other {s : State Sig E R ε} {sig e k fs} (r : R e) :
      s.frames = ⟨sig, .perform (.other e) k⟩ :: fs → Step handler s
      { s with frames := ⟨sig, k r⟩ :: fs, trace := s.trace ++ [⟨.other e, r⟩] }
  | finish {s : State Sig E R ε} {sig fs} : s.frames = ⟨sig, .ret ()⟩ :: fs → Step handler s
      { s with frames := fs }
  | exit {s : State Sig E R ε} {sig x fs} : s.frames = ⟨sig, .raise x⟩ :: fs → Step handler s
      { s with frames := [], exited := some x }

inductive Reachable (sig : Sig) (main : FlagProg Sig E R ε Unit)
    (handler : Sig → FlagProg Sig E R ε Unit) : State Sig E R ε → Prop where
  | init : Reachable sig main handler (initial sig main)
  | step {s s'} : Reachable sig main handler s → Step handler s s' → Reachable sig main handler s'

/-! ## Programs behind a flag -/

/-- The rest of a program that has found the flag down: it sets it and goes on with `body`. -/
inductive Passed (act : E → Bool) (body : FlagProg Sig E R ε Unit) :
    FlagProg Sig E R ε Unit → Prop where
  | other {e k} : act e = false → (∀ r : R e, Passed act body (k r)) →
      Passed act body (.perform (.other e) k)
  | set : Passed act body (.perform .set fun _ => body)

/--
A program that does nothing in `act`, unless it finds the flag down. It listens only to signals in
`sigs`, and raises nothing.
-/
inductive Guarded (act : E → Bool) (sigs : List Sig) (body : FlagProg Sig E R ε Unit) :
    FlagProg Sig E R ε Unit → Prop where
  | ret : Guarded act sigs body (.ret ())
  | other {e k} : act e = false → (∀ r : R e, Guarded act sigs body (k r)) →
      Guarded act sigs body (.perform (.other e) k)
  | listen {sig k} : sig ∈ sigs → Guarded act sigs body (k ()) →
      Guarded act sigs body (.perform (.listen sig) k)
  | get {k} : Guarded act sigs body (k true) → Passed act body (k false) →
      Guarded act sigs body (.perform .get k)

/-- A program that does not touch the flag and does not return. -/
inductive Final : FlagProg Sig E R ε Unit → Prop where
  | raise {x} : Final (.raise x)
  | other {e k} : (∀ r : R e, Final (k r)) → Final (.perform (.other e) k)

theorem Final.bind {α : Type} {p : FlagProg Sig E R ε α} {f : α → FlagProg Sig E R ε Unit}
    (hp : Uses (fun e => ∃ e', e = .other e') p) (hf : ∀ a, Final (f a)) : Final (p.bind f) := by
  induction p with
  | ret a => exact hf a
  | raise x => exact .raise
  | perform e k ih =>
    obtain ⟨⟨e', rfl⟩, hk⟩ := hp
    exact .other fun r => ih r (hk r)

/-- A final program ends with an exception. -/
theorem Final.runs {p : FlagProg Sig E R ε Unit} (h : Final p) {tr : FlagTrace Sig E R}
    {out : Except ε Unit} (hrun : Runs p tr out) : ∃ x, out = .error x := by
  induction h generalizing tr with
  | raise => exact ⟨_, hrun.2⟩
  | other _ ih =>
    obtain ⟨r, tr', -, hrun⟩ := hrun
    exact ih r hrun

def isAction (act : E → Bool) (ev : Event (FlagEffect Sig E) (FlagEffect.Answer R)) : Bool :=
  match ev.1 with
  | .other e => act e
  | _ => false

/-- The events of a trace in `act`. -/
def actions (act : E → Bool) (tr : FlagTrace Sig E R) : FlagTrace Sig E R :=
  tr.filter (isAction act)

@[simp] theorem actions_nil (act : E → Bool) : actions act ([] : FlagTrace Sig E R) = [] := rfl

@[simp] theorem actions_append (act : E → Bool) (tr₁ tr₂ : FlagTrace Sig E R) :
    actions act (tr₁ ++ tr₂) = actions act tr₁ ++ actions act tr₂ := by
  simp [actions]

theorem actions_other_of_not {act : E → Bool} {e : E} (h : act e = false) (r : R e) :
    actions act ([⟨.other e, r⟩] : FlagTrace Sig E R) = [] := by
  simp [actions, isAction, h]

/-- The effects on the flag and on the table are in no class. -/
theorem actions_append_of_flag {act : E → Bool}
    {ev : Event (FlagEffect Sig E) (FlagEffect.Answer R)} (h : ∀ e, ev.1 ≠ .other e)
    (tr : FlagTrace Sig E R) :
    actions act (tr ++ [ev]) = actions act tr := by
  obtain ⟨e, r⟩ := ev
  cases e with
  | other e => exact absurd rfl (h e)
  | _ => simp [actions, isAction]

/-- Whoever looks at the events in `act` only does not see the others. -/
theorem filterMap_actions {act : E → Bool} {β : Type}
    {g : Event (FlagEffect Sig E) (FlagEffect.Answer R) → Option β}
    (hg : ∀ ev, isAction act ev = false → g ev = none) (tr : FlagTrace Sig E R) :
    (actions act tr).filterMap g = tr.filterMap g := by
  induction tr with
  | nil => rfl
  | cons ev tr ih =>
    unfold actions at ih ⊢
    by_cases hev : isAction act ev = true
    · rw [List.filter_cons_of_pos hev, List.filterMap_cons, List.filterMap_cons, ih]
    · rw [List.filter_cons_of_neg hev, List.filterMap_cons, hg ev (by simpa using hev), ih]

/-! ## Only one gets through -/

/-- What the handlers and the main program, which stands for `sig₀`, look like. -/
structure Discipline (act : E → Bool) (sigs : List Sig) (sig₀ : Sig)
    (main : FlagProg Sig E R ε Unit) (handler body : Sig → FlagProg Sig E R ε Unit) : Prop where
  main : Guarded act sigs (body sig₀) main
  handler : ∀ sig ∈ sigs, Guarded act sigs (body sig) (handler sig)
  final : ∀ sig, Final (body sig)

variable {act : E → Bool} {sigs : List Sig} {sig₀ : Sig} {main : FlagProg Sig E R ε Unit}
  {handler body : Sig → FlagProg Sig E R ε Unit} {s s' : State Sig E R ε}

/-- The frame has not got through. -/
def Outside (act : E → Bool) (sigs : List Sig) (body : Sig → FlagProg Sig E R ε Unit)
    (f : Frame Sig E R ε) : Prop :=
  Guarded act sigs (body f.sig) f.rest

/-- A signal that was received, or the one of the main program. -/
def Known (sig₀ : Sig) (s : State Sig E R ε) (sig : Sig) : Prop := sig = sig₀ ∨ sig ∈ s.received

/-- Who got through so far, and what was done by then. -/
inductive Ownership (act : E → Bool) (sigs : List Sig) (body : Sig → FlagProg Sig E R ε Unit)
    (sig₀ : Sig) (s : State Sig E R ε) : Prop where
  | nobody : s.flag = false → s.exited = none →
      (∀ f ∈ s.frames, Outside act sigs body f ∨ Passed act (body f.sig) f.rest) →
      actions act s.trace = [] → Ownership act sigs body sig₀ s
  | owner (inner : List (Frame Sig E R ε)) (owner : Frame Sig E R ε)
      (outer : List (Frame Sig E R ε)) (tr : FlagTrace Sig E R) : s.flag = true → s.exited = none →
      s.frames = inner ++ owner :: outer → (∀ f ∈ inner, Outside act sigs body f) →
      Known sig₀ s owner.sig → Final owner.rest → Reaches (body owner.sig) tr owner.rest →
      actions act s.trace = actions act tr → Ownership act sigs body sig₀ s
  | ended (sig : Sig) (tr : FlagTrace Sig E R) (x : ε) : s.flag = true → Known sig₀ s sig →
      s.exited = some x → s.frames = [] → Runs (body sig) tr (.error x) →
      actions act s.trace = actions act tr → Ownership act sigs body sig₀ s

/-- Which signals there can be. -/
structure Heard (sigs : List Sig) (sig₀ : Sig) (s : State Sig E R ε) : Prop where
  listens : ∀ sig ∈ s.listens, sig ∈ sigs
  received : ∀ sig ∈ s.received, sig ∈ sigs
  frames : ∀ f ∈ s.frames, Known sig₀ s f.sig

/-- The innermost frame, when somebody has got through: one that has not, or the owner. -/
theorem cons_eq_append_cons {α : Type} {a b : α} {as inner outer : List α}
    (h : a :: as = inner ++ b :: outer) :
    (∃ inner', inner = a :: inner' ∧ as = inner' ++ b :: outer) ∨
      inner = [] ∧ a = b ∧ as = outer := by
  cases inner with
  | nil =>
    cases h
    exact Or.inr ⟨rfl, rfl, rfl⟩
  | cons c inner =>
    cases h
    exact Or.inl ⟨inner, rfl, rfl⟩

/-- As long as nobody has got through, the innermost frame may set the flag. -/
theorem Ownership.step_nobody (hd : Discipline act sigs sig₀ main handler body)
    (hheard : Heard sigs sig₀ s) (hflag : s.flag = false) (hexited : s.exited = none)
    (hframes : ∀ f ∈ s.frames, Outside act sigs body f ∨ Passed act (body f.sig) f.rest)
    (hnone : actions act s.trace = []) (hst : Step handler s s') :
    Ownership act sigs body sig₀ s' := by
  have htop : ∀ {f fs}, s.frames = f :: fs →
      Outside act sigs body f ∨ Passed act (body f.sig) f.rest := fun h =>
    hframes _ (h ▸ List.mem_cons_self)
  have hrest : ∀ {f fs}, s.frames = f :: fs → ∀ g ∈ fs,
      Outside act sigs body g ∨ Passed act (body g.sig) g.rest := fun h g hg =>
    hframes _ (h ▸ List.mem_cons_of_mem _ hg)
  cases hst with
  | signal hlisten _ =>
    refine .nobody hflag hexited (fun f hf => ?_) hnone
    rcases List.mem_cons.mp hf with rfl | hf
    · exact Or.inl (hd.handler _ (hheard.listens _ hlisten))
    · exact hframes f hf
  | get hfr =>
    refine .nobody hflag hexited (fun f hf => ?_) ((actions_append_of_flag (by simp) _).trans hnone)
    rcases List.mem_cons.mp hf with rfl | hf
    · rcases htop hfr with hg | hp
      · cases hg with
        | get _ hpassed => exact Or.inr (hflag ▸ hpassed)
      · cases hp
    · exact hrest hfr f hf
  | @set sig k fs hfr =>
    rcases htop hfr with hg | hp
    · cases hg
    · have hknown : Known sig₀ s sig := hheard.frames ⟨sig, _⟩ (hfr ▸ List.mem_cons_self)
      have hp : Passed act (body sig) (.perform .set k) := hp
      cases hp with
      | set =>
        exact .owner [] _ _ [] rfl hexited rfl (by simp) hknown (hd.final _) (.refl _)
          ((actions_append_of_flag (by simp) _).trans hnone)
  | listen hfr =>
    refine .nobody hflag hexited (fun f hf => ?_) ((actions_append_of_flag (by simp) _).trans hnone)
    rcases List.mem_cons.mp hf with rfl | hf
    · rcases htop hfr with hg | hp
      · cases hg with
        | listen _ hguarded => exact Or.inl hguarded
      · cases hp
    · exact hrest hfr f hf
  | other r hfr =>
    rcases htop hfr with hg | hp
    · cases hg with
      | other hact hguarded =>
        refine .nobody hflag hexited (fun f hf => ?_) ?_
        · rcases List.mem_cons.mp hf with rfl | hf
          · exact Or.inl (hguarded r)
          · exact hrest hfr f hf
        · rw [actions_append, hnone, actions_other_of_not hact, List.append_nil]
    · cases hp with
      | other hact hpassed =>
        refine .nobody hflag hexited (fun f hf => ?_) ?_
        · rcases List.mem_cons.mp hf with rfl | hf
          · exact Or.inr (hpassed r)
          · exact hrest hfr f hf
        · rw [actions_append, hnone, actions_other_of_not hact, List.append_nil]
  | finish hfr => exact .nobody hflag hexited (hrest hfr) hnone
  | exit hfr =>
    rcases htop hfr with hg | hp
    · cases hg
    · cases hp

/-- Who has got through goes on alone: the frames inside of it leave again. -/
theorem Ownership.step_owner (hd : Discipline act sigs sig₀ main handler body)
    (hheard : Heard sigs sig₀ s) {inner outer : List (Frame Sig E R ε)} {owner : Frame Sig E R ε}
    {tr : FlagTrace Sig E R} (hflag : s.flag = true) (hexited : s.exited = none)
    (hframes : s.frames = inner ++ owner :: outer) (hinner : ∀ f ∈ inner, Outside act sigs body f)
    (hknown : Known sig₀ s owner.sig) (hfinal : Final owner.rest)
    (hreach : Reaches (body owner.sig) tr owner.rest)
    (hsame : actions act s.trace = actions act tr) (hst : Step handler s s') :
    Ownership act sigs body sig₀ s' := by
  cases hst with
  | signal hlisten _ =>
    refine .owner (_ :: inner) owner outer tr hflag hexited (by rw [hframes]; rfl) (fun f hf => ?_)
      (hknown.imp_right (List.mem_append_left _)) hfinal hreach hsame
    rcases List.mem_cons.mp hf with rfl | hf
    · exact hd.handler _ (hheard.listens _ hlisten)
    · exact hinner f hf
  | get hfr =>
    rcases cons_eq_append_cons (hfr.symm.trans hframes) with ⟨inner', rfl, rfl⟩ | ⟨rfl, rfl, rfl⟩
    · cases hinner _ List.mem_cons_self with
      | get hguarded _ =>
        refine .owner (_ :: inner') owner outer tr hflag hexited rfl (fun f hf => ?_) hknown hfinal
          hreach ((actions_append_of_flag (by simp) _).trans hsame)
        rcases List.mem_cons.mp hf with rfl | hf
        · exact hflag ▸ hguarded
        · exact hinner f (List.mem_cons_of_mem _ hf)
    · cases hfinal
  | set hfr =>
    rcases cons_eq_append_cons (hfr.symm.trans hframes) with ⟨inner', rfl, rfl⟩ | ⟨rfl, rfl, rfl⟩
    · cases hinner _ List.mem_cons_self
    · cases hfinal
  | listen hfr =>
    rcases cons_eq_append_cons (hfr.symm.trans hframes) with ⟨inner', rfl, rfl⟩ | ⟨rfl, rfl, rfl⟩
    · cases hinner _ List.mem_cons_self with
      | listen _ hguarded =>
        refine .owner (_ :: inner') owner outer tr hflag hexited rfl (fun f hf => ?_) hknown hfinal
          hreach ((actions_append_of_flag (by simp) _).trans hsame)
        rcases List.mem_cons.mp hf with rfl | hf
        · exact hguarded
        · exact hinner f (List.mem_cons_of_mem _ hf)
    · cases hfinal
  | other r hfr =>
    rcases cons_eq_append_cons (hfr.symm.trans hframes) with ⟨inner', rfl, rfl⟩ | ⟨rfl, rfl, rfl⟩
    · cases hinner _ List.mem_cons_self with
      | other hact hguarded =>
        refine .owner (_ :: inner') owner outer tr hflag hexited rfl (fun f hf => ?_) hknown hfinal
          hreach ?_
        · rcases List.mem_cons.mp hf with rfl | hf
          · exact hguarded r
          · exact hinner f (List.mem_cons_of_mem _ hf)
        · rw [actions_append, hsame, actions_other_of_not hact, List.append_nil]
    · cases hfinal with
      | other hfinal =>
        refine .owner [] _ _ (tr ++ [⟨.other _, r⟩]) hflag hexited rfl (by simp) hknown
          (hfinal r) (hreach.snoc r) ?_
        rw [actions_append, actions_append, hsame]
  | finish hfr =>
    rcases cons_eq_append_cons (hfr.symm.trans hframes) with ⟨inner', rfl, rfl⟩ | ⟨rfl, rfl, rfl⟩
    · exact .owner inner' owner outer tr hflag hexited rfl
        (fun f hf => hinner f (List.mem_cons_of_mem _ hf)) hknown hfinal hreach hsame
    · cases hfinal
  | exit hfr =>
    rcases cons_eq_append_cons (hfr.symm.trans hframes) with ⟨inner', rfl, rfl⟩ | ⟨rfl, rfl, rfl⟩
    · cases hinner _ List.mem_cons_self
    · refine .ended _ tr _ hflag hknown rfl rfl ?_ hsame
      have hend := hreach.runs (show Runs _ [] _ from ⟨rfl, rfl⟩)
      simpa using hend

/-- Nobody listens to another signal. -/
theorem Ownership.listens (h : Ownership act sigs body sig₀ s) {sig sig' : Sig}
    {k : Unit → FlagProg Sig E R ε Unit} {fs : List (Frame Sig E R ε)}
    (hfr : s.frames = ⟨sig, .perform (.listen sig') k⟩ :: fs) : sig' ∈ sigs := by
  cases h with
  | nobody _ _ hframes _ =>
    rcases hframes _ (hfr ▸ List.mem_cons_self) with hg | hp
    · cases hg with
      | listen hmem _ => exact hmem
    · cases hp
  | owner inner owner outer tr _ _ hframes hinner _ hfinal _ _ =>
    rcases cons_eq_append_cons (hfr.symm.trans hframes) with ⟨inner', rfl, -⟩ | ⟨-, rfl, -⟩
    · cases hinner _ List.mem_cons_self with
      | listen hmem _ => exact hmem
    · cases hfinal
  | ended _ _ _ _ _ _ hframes _ _ =>
    rw [hframes] at hfr
    cases hfr

theorem Heard.step (h : Heard sigs sig₀ s) (ho : Ownership act sigs body sig₀ s)
    (hst : Step handler s s') : Heard sigs sig₀ s' := by
  have hrest : ∀ {f g : Frame Sig E R ε} {fs}, s.frames = f :: fs → g.sig = f.sig →
      ∀ f' ∈ g :: fs, Known sig₀ s f'.sig := by
    intro f g fs hfr hsig f' hf'
    rcases List.mem_cons.mp hf' with rfl | hf'
    · rw [hsig]
      exact h.frames f (hfr ▸ List.mem_cons_self)
    · exact h.frames f' (hfr ▸ List.mem_cons_of_mem _ hf')
  cases hst with
  | @signal sig hlisten _ =>
    refine ⟨h.listens, fun sig' hsig' => ?_, fun f hf => ?_⟩
    · rcases List.mem_append.mp hsig' with hsig' | hsig'
      · exact h.received sig' hsig'
      · rw [List.mem_singleton.mp hsig']
        exact h.listens sig hlisten
    · rcases List.mem_cons.mp hf with rfl | hf
      · exact Or.inr (List.mem_append_right _ (List.mem_singleton_self _))
      · exact (h.frames f hf).imp_right (List.mem_append_left _)
  | get hfr => exact ⟨h.listens, h.received, hrest hfr rfl⟩
  | set hfr => exact ⟨h.listens, h.received, hrest hfr rfl⟩
  | listen hfr =>
    refine ⟨fun sig' hsig' => ?_, h.received, hrest hfr rfl⟩
    rcases List.mem_append.mp hsig' with hsig' | hsig'
    · exact h.listens sig' hsig'
    · rw [List.mem_singleton.mp hsig']
      exact ho.listens hfr
  | other r hfr => exact ⟨h.listens, h.received, hrest hfr rfl⟩
  | finish hfr =>
    exact ⟨h.listens, h.received, fun f hf => h.frames f (hfr ▸ List.mem_cons_of_mem _ hf)⟩
  | exit hfr => exact ⟨h.listens, h.received, by simp⟩

/--
**Only one gets through.** In every state, whenever signals arrived and however handlers were
interrupted, what was done in `act` is what one undisturbed run of one `body` does, as far as it has
come; it belongs to the main program or to a signal that was received.
-/
theorem exclusive (hd : Discipline act sigs sig₀ main handler body)
    (h : Reachable sig₀ main handler s) :
    Ownership act sigs body sig₀ s ∧ ∀ sig ∈ s.received, sig ∈ sigs := by
  suffices hboth : Ownership act sigs body sig₀ s ∧ Heard sigs sig₀ s from
    ⟨hboth.1, hboth.2.received⟩
  induction h with
  | init =>
    refine ⟨.nobody rfl rfl (fun f hf => Or.inl ?_) rfl,
      ⟨fun sig hsig => ?_, fun sig hsig => ?_, fun f hf => Or.inl ?_⟩⟩
    · rw [List.mem_singleton.mp hf]
      exact hd.main
    · cases hsig
    · cases hsig
    · rw [List.mem_singleton.mp hf]
  | step _ hst ih =>
    obtain ⟨ho, hheard⟩ := ih
    refine ⟨?_, hheard.step ho hst⟩
    cases ho with
    | nobody hflag hexited hframes hnone =>
      exact Ownership.step_nobody hd hheard hflag hexited hframes hnone hst
    | owner inner owner outer tr hflag hexited hframes hinner hknown hfinal hreach hsame =>
      exact Ownership.step_owner hd hheard hflag hexited hframes hinner hknown hfinal hreach hsame
        hst
    | ended sig tr x _ _ hexited hframes _ _ =>
      -- the process has ended: no signal arrives, and nothing is in work
      exfalso
      cases hst with
      | signal _ hnone =>
        rw [hexited] at hnone
        cases hnone
      | get hfr => cases hframes.symm.trans hfr
      | set hfr => cases hframes.symm.trans hfr
      | listen hfr => cases hframes.symm.trans hfr
      | other _ hfr => cases hframes.symm.trans hfr
      | finish hfr => cases hframes.symm.trans hfr
      | exit hfr => cases hframes.symm.trans hfr

/-! ## Computed runs -/

/-- The innermost frame goes one effect further, or leaves. -/
def advance (ans : (e : E) → R e) (s : State Sig E R ε) : State Sig E R ε :=
  match s.frames with
  | [] => s
  | ⟨_, .ret ()⟩ :: fs => { s with frames := fs }
  | ⟨_, .raise x⟩ :: _ => { s with frames := [], exited := some x }
  | ⟨sig, .perform .get k⟩ :: fs =>
    { s with frames := ⟨sig, k s.flag⟩ :: fs, trace := s.trace ++ [⟨.get, s.flag⟩] }
  | ⟨sig, .perform .set k⟩ :: fs =>
    { s with flag := true, frames := ⟨sig, k ()⟩ :: fs, trace := s.trace ++ [⟨.set, ()⟩] }
  | ⟨sig, .perform (.listen sig') k⟩ :: fs =>
    { s with
      listens := s.listens ++ [sig']
      frames := ⟨sig, k ()⟩ :: fs
      trace := s.trace ++ [⟨.listen sig', ()⟩] }
  | ⟨sig, .perform (.other e) k⟩ :: fs =>
    { s with frames := ⟨sig, k (ans e)⟩ :: fs, trace := s.trace ++ [⟨.other e, ans e⟩] }

def advances (ans : (e : E) → R e) : Nat → State Sig E R ε → State Sig E R ε
  | 0, s => s
  | n + 1, s => advances ans n (advance ans s)

theorem Reachable.advance (ans : (e : E) → R e) (h : Reachable sig₀ main handler s) :
    Reachable sig₀ main handler (advance ans s) := by
  unfold Interrupts.advance
  split
  · exact h
  · next hfr => exact h.step (.finish hfr)
  · next hfr => exact h.step (.exit hfr)
  · next hfr => exact h.step (.get hfr)
  · next hfr => exact h.step (.set hfr)
  · next hfr => exact h.step (.listen hfr)
  · next hfr => exact h.step (.other _ hfr)

theorem Reachable.advances (ans : (e : E) → R e) (n : Nat) (h : Reachable sig₀ main handler s) :
    Reachable sig₀ main handler (advances ans n s) := by
  induction n generalizing s with
  | zero => exact h
  | succ n ih => exact ih (h.advance ans)

/-- A signal arrives. -/
def interrupt (handler : Sig → FlagProg Sig E R ε Unit) (sig : Sig) (s : State Sig E R ε) :
    State Sig E R ε :=
  { s with received := s.received ++ [sig], frames := ⟨sig, handler sig⟩ :: s.frames }

theorem Reachable.interrupt (h : Reachable sig₀ main handler s) {sig : Sig}
    (hlisten : sig ∈ s.listens) (hexited : s.exited = none) :
    Reachable sig₀ main handler (interrupt handler sig s) :=
  h.step (.signal hlisten hexited)

end Interrupts

end Infra
