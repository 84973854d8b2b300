import Mathlib.Logic.Function.Basic
import MonascaNotification.Infra.Prog

/-!
# Consumers of durable logs

Processes that read messages from append-only topics, run one program for each message and
commit their offset when they choose to. Every effect of every process is one step, so all
interleavings are covered, and a process may be stopped between any two effects.

## What is assumed of the broker

* a publish is durable once it returns (`deliver` is part of the step)
* `commit` commits everything the process has consumed so far
* a process that stops, by a crash or by an exception, reads again from its committed offset

## What is recorded

`history` holds every effect ever performed, `steps` one entry for each loop body that
reached its commit. Neither is read by a step.
-/

namespace Infra

open Prog

/-! ## Topics -/

section Deliver

variable {T M : Type} [DecidableEq T]

/-- The logs after `pubs` were appended to their topics. -/
def deliver (log : T → List M) (pubs : List (T × M)) : T → List M :=
  fun t => log t ++ (pubs.filter fun p => p.1 = t).map Prod.snd

theorem mem_deliver {log : T → List M} {pubs : List (T × M)} {t : T} {m : M} :
    m ∈ deliver log pubs t ↔ m ∈ log t ∨ (t, m) ∈ pubs := by
  simp only [deliver, List.mem_append, List.mem_map, List.mem_filter, decide_eq_true_eq]
  constructor
  · rintro (h | ⟨⟨t', m'⟩, ⟨h, rfl⟩, rfl⟩)
    · exact Or.inl h
    · exact Or.inr h
  · rintro (h | h)
    · exact Or.inl h
    · exact Or.inr ⟨(t, m), ⟨h, rfl⟩, rfl⟩

/-- A message keeps its offset. -/
theorem getElem?_deliver {log : T → List M} {pubs : List (T × M)} {t : T} {j : Nat} {m : M}
    (h : (log t)[j]? = some m) : (deliver log pubs t)[j]? = some m := by
  obtain ⟨hj, -⟩ := List.getElem?_eq_some_iff.mp h
  rw [deliver, List.getElem?_append_left hj, h]

/-- An appended message is behind everything that was there. -/
theorem exists_getElem?_deliver (log : T → List M) {pubs : List (T × M)} {t : T} {m : M}
    (h : (t, m) ∈ pubs) : ∃ j, (log t).length ≤ j ∧ (deliver log pubs t)[j]? = some m := by
  have hmem : m ∈ (pubs.filter fun p => p.1 = t).map Prod.snd :=
    List.mem_map.mpr ⟨(t, m), by simp [h], rfl⟩
  obtain ⟨j, hj⟩ := List.mem_iff_getElem?.mp hmem
  refine ⟨(log t).length + j, Nat.le_add_right _ _, ?_⟩
  rw [deliver, List.getElem?_append_right (Nat.le_add_right _ _), Nat.add_sub_cancel_left, hj]

theorem length_le_deliver (log : T → List M) (pubs : List (T × M)) (t : T) :
    (log t).length ≤ (deliver log pubs t).length := by
  simp [deliver]

@[simp] theorem deliver_nil (log : T → List M) : deliver log [] = log := by
  funext t
  simp [deliver]

theorem deliver_append (log : T → List M) (pubs₁ pubs₂ : List (T × M)) :
    deliver log (pubs₁ ++ pubs₂) = deliver (deliver log pubs₁) pubs₂ := by
  funext t
  simp [deliver]

end Deliver

/-! ## Processes and their steps -/

/--
Processes `ι` over topics `T` with messages `M`, in an environment with states `σ`.

`answer w e r w'` says that in environment `w` the effect `e` may be answered `r`, leaving
`w'`. `env w pubs w'` is a step of the environment itself; `pubs` are the messages that
others publish in it.
-/
structure Network (ι T M σ E : Type) (R : E → Type) (ε : Type) where
  source : ι → T
  handler : ι → Nat → M → Prog E R ε Unit
  published : E → List (T × M)
  commits : E → Bool
  init : σ → Prop
  answer : σ → (e : E) → R e → σ → Prop
  env : σ → List (T × M) → σ → Prop
  mayCrash : Prop

/-- Where a process is: before the message at `next`, or inside the loop body of a message. -/
inductive Phase (M E : Type) (R : E → Type) (ε : Type) where
  | idle (next : Nat)
  | running (offset : Nat) (msg : M) (trace : Trace E R) (rest : Prog E R ε Unit)

/-- A loop body that reached its commit, with the effects it had performed before. -/
structure CommittedStep (ι M E : Type) (R : E → Type) where
  proc : ι
  offset : Nat
  msg : M
  trace : Trace E R

structure NetState (ι T M σ E : Type) (R : E → Type) (ε : Type) where
  world : σ
  log : T → List M
  committed : ι → Nat
  phase : ι → Phase M E R ε
  history : List (ι × Event E R)
  steps : List (CommittedStep ι M E R)

/-- After one entry was replaced, an entry is the new one or an old one. -/
theorem update_cases {ι β : Type} [DecidableEq ι] {f : ι → β} {i j : ι} {x y : β}
    (h : Function.update f i x j = y) : j = i ∧ x = y ∨ j ≠ i ∧ f j = y := by
  by_cases hji : j = i
  · subst hji
    exact Or.inl ⟨rfl, by simpa using h⟩
  · exact Or.inr ⟨hji, by simpa [Function.update_of_ne hji] using h⟩

namespace Network

variable {ι T M σ E : Type} {R : E → Type} {ε : Type} [DecidableEq ι] [DecidableEq T]

def initial (w : σ) : NetState ι T M σ E R ε where
  world := w
  log := fun _ => []
  committed := fun _ => 0
  phase := fun _ => .idle 0
  history := []
  steps := []

/-- The state after process `i`, inside the body of the message at `o`, got `r` for `e`. -/
def performed (N : Network ι T M σ E R ε) (s : NetState ι T M σ E R ε) (i : ι) (o : Nat)
    (m : M) (tr : Trace E R) (e : E) (k : R e → Prog E R ε Unit) (r : R e) (w : σ) :
    NetState ι T M σ E R ε where
  world := w
  log := deliver s.log (N.published e)
  committed := if N.commits e then Function.update s.committed i (o + 1) else s.committed
  phase := Function.update s.phase i (.running o m (tr ++ [⟨e, r⟩]) (k r))
  history := s.history ++ [(i, ⟨e, r⟩)]
  steps := if N.commits e then s.steps ++ [⟨i, o, m, tr⟩] else s.steps

theorem performed_phase (N : Network ι T M σ E R ε) (s : NetState ι T M σ E R ε) {i : ι}
    {o : Nat} {m : M} {tr : Trace E R} {e : E} {k : R e → Prog E R ε Unit} {r : R e} {w : σ} :
    (N.performed s i o m tr e k r w).phase =
      Function.update s.phase i (.running o m (tr ++ [⟨e, r⟩]) (k r)) := rfl

/-- Only its own commit moves the committed offset of a process. -/
theorem performed_committed_of_not (N : Network ι T M σ E R ε) (s : NetState ι T M σ E R ε)
    {i c : ι} {o : Nat} {m : M} {tr : Trace E R} {e : E} {k : R e → Prog E R ε Unit} {r : R e}
    {w : σ} (h : ¬ (i = c ∧ N.commits e = true)) :
    (N.performed s i o m tr e k r w).committed c = s.committed c := by
  by_cases he : N.commits e = true
  · have hne : c ≠ i := fun hci => h ⟨hci.symm, he⟩
    simp [performed, he, Function.update_of_ne hne]
  · simp [performed, he]

inductive Step (N : Network ι T M σ E R ε) :
    NetState ι T M σ E R ε → NetState ι T M σ E R ε → Prop where
  | env {s pubs w} : N.env s.world pubs w →
      Step N s { s with world := w, log := deliver s.log pubs }
  | read {s i n m} : s.phase i = .idle n → (s.log (N.source i))[n]? = some m →
      Step N s { s with phase := Function.update s.phase i (.running n m [] (N.handler i n m)) }
  | perform {s i o m tr e k r w} : s.phase i = .running o m tr (.perform e k) →
      N.answer s.world e r w → Step N s (N.performed s i o m tr e k r w)
  | finish {s i o m tr} : s.phase i = .running o m tr (.ret ()) →
      Step N s { s with phase := Function.update s.phase i (.idle (o + 1)) }
  | crash {s i} : N.mayCrash →
      Step N s { s with phase := Function.update s.phase i (.idle (s.committed i)) }

inductive Reachable (N : Network ι T M σ E R ε) : NetState ι T M σ E R ε → Prop where
  | init {w} : N.init w → Reachable N (initial w)
  | step {s s'} : Reachable N s → Step N s s' → Reachable N s'

/-! ## Whole loop bodies -/

/-- `tr` can be answered from the environment `w`, which it leaves as `w'`. -/
inductive Answers (N : Network ι T M σ E R ε) : σ → Trace E R → σ → Prop where
  | nil {w} : Answers N w [] w
  | cons {w e r w₁ tr w'} : N.answer w e r w₁ → Answers N w₁ tr w' →
      Answers N w (⟨e, r⟩ :: tr) w'

omit [DecidableEq ι] [DecidableEq T] in
/-- Answers computed from the environment are answers of the network. -/
theorem Answers.trace {N : Network ι T M σ E R ε} {sem : (e : E) → σ → R e × σ}
    (hsem : ∀ w e, N.answer w e (sem e w).1 (sem e w).2) {α : Type} (p : Prog E R ε α) (w : σ) :
    Answers N w (p.trace sem w) (p.run sem w).2 := by
  induction p generalizing w with
  | ret a => exact .nil
  | raise x => exact .nil
  | perform e k ih => exact .cons (hsem w e) (ih _ _)

omit [DecidableEq ι] [DecidableEq T] in
/-- They have to be answers of the network only to what the program may perform. -/
theorem Answers.trace_of_uses {N : Network ι T M σ E R ε} {sem : (e : E) → σ → R e × σ}
    {S : E → Prop} (hsem : ∀ w e, S e → N.answer w e (sem e w).1 (sem e w).2) {α : Type}
    {p : Prog E R ε α} (hp : Uses S p) (w : σ) :
    Answers N w (p.trace sem w) (p.run sem w).2 := by
  induction p generalizing w with
  | ret a => exact .nil
  | raise x => exact .nil
  | perform e k ih => exact .cons (hsem w e hp.1) (ih _ (hp.2 _) _)

omit [DecidableEq ι] [DecidableEq T] in
theorem answers_append {N : Network ι T M σ E R ε} {w w' : σ} {tr₁ tr₂ : Trace E R} :
    Answers N w (tr₁ ++ tr₂) w' ↔ ∃ w₁, Answers N w tr₁ w₁ ∧ Answers N w₁ tr₂ w' := by
  induction tr₁ generalizing w with
  | nil =>
    constructor
    · exact fun h => ⟨w, .nil, h⟩
    · rintro ⟨w₁, h₁, h₂⟩
      cases h₁
      exact h₂
  | cons ev tr₁ ih =>
    constructor
    · intro h
      cases h with
      | cons hans h =>
        obtain ⟨w₁, h₁, h₂⟩ := ih.mp h
        exact ⟨w₁, .cons hans h₁, h₂⟩
    · rintro ⟨w₁, h₁, h₂⟩
      cases h₁ with
      | cons hans h₁ => exact .cons hans (ih.mpr ⟨w₁, h₁, h₂⟩)

omit [DecidableEq ι] [DecidableEq T] in
/-- A part of a computed trace leads to the state that is computed for it. -/
theorem Answers.take_trace {N : Network ι T M σ E R ε} {sem : (e : E) → σ → R e × σ}
    (hsem : ∀ w e, N.answer w e (sem e w).1 (sem e w).2) {α : Type} (p : Prog E R ε α) (w : σ)
    (n : Nat) : Answers N w ((p.trace sem w).take n) (p.stateAt sem w n) := by
  induction p generalizing w n with
  | ret a => cases n <;> exact .nil
  | raise x => cases n <;> exact .nil
  | perform e k ih =>
    cases n with
    | zero => exact .nil
    | succ n => exact .cons (hsem w e) (ih _ _ n)

/-- The commits on a trace, each with what stands before it. -/
def commitSteps (N : Network ι T M σ E R ε) (i : ι) (o : Nat) (m : M) (before : Trace E R) :
    Trace E R → List (CommittedStep ι M E R)
  | [] => []
  | ev :: tr =>
    (if N.commits ev.1 then [⟨i, o, m, before⟩] else []) ++
      N.commitSteps i o m (before ++ [ev]) tr

/-- The state after process `i` has finished the body of the message at `o` along `tr`. -/
def after (N : Network ι T M σ E R ε) (s : NetState ι T M σ E R ε) (i : ι) (o : Nat) (m : M)
    (before tr : Trace E R) (w : σ) : NetState ι T M σ E R ε where
  world := w
  log := deliver s.log (tr.flatMap fun ev => N.published ev.1)
  committed :=
    if tr.any fun ev => N.commits ev.1 then Function.update s.committed i (o + 1) else s.committed
  phase := Function.update s.phase i (.idle (o + 1))
  history := s.history ++ tr.map fun ev => (i, ev)
  steps := s.steps ++ N.commitSteps i o m before tr

theorem after_performed (N : Network ι T M σ E R ε) (s : NetState ι T M σ E R ε) (i : ι)
    (o : Nat) (m : M) (before tr : Trace E R) (e : E) (k : R e → Prog E R ε Unit) (r : R e)
    (w₁ w : σ) :
    N.after (N.performed s i o m before e k r w₁) i o m (before ++ [⟨e, r⟩]) tr w =
      N.after s i o m before (⟨e, r⟩ :: tr) w := by
  have hcom : (N.after (N.performed s i o m before e k r w₁) i o m (before ++ [⟨e, r⟩]) tr
      w).committed = (N.after s i o m before (⟨e, r⟩ :: tr) w).committed := by
    by_cases he : N.commits e = true <;>
      by_cases hany : (tr.any fun ev => N.commits ev.1) = true <;>
      simp [after, performed, he, hany]
  have hsteps : (N.after (N.performed s i o m before e k r w₁) i o m (before ++ [⟨e, r⟩]) tr
      w).steps = (N.after s i o m before (⟨e, r⟩ :: tr) w).steps := by
    by_cases he : N.commits e = true <;> simp [after, performed, commitSteps, he]
  have hlog : (N.after (N.performed s i o m before e k r w₁) i o m (before ++ [⟨e, r⟩]) tr
      w).log = (N.after s i o m before (⟨e, r⟩ :: tr) w).log := by
    simp [after, performed, deliver_append]
  unfold after at *
  simp only [NetState.mk.injEq, true_and] at *
  exact ⟨hlog, hcom, by simp [performed], by simp [performed], hsteps⟩

theorem Reachable.finish_body {N : Network ι T M σ E R ε} {s : NetState ι T M σ E R ε}
    (h : Reachable N s) {i : ι} {o : Nat} {m : M} {before tr : Trace E R}
    {p : Prog E R ε Unit} {w : σ} (hph : s.phase i = .running o m before p)
    (hrun : Runs p tr (.ok ())) (hans : Answers N s.world tr w) :
    Reachable N (N.after s i o m before tr w) := by
  induction p generalizing s before tr with
  | ret u =>
    obtain ⟨rfl, -⟩ := hrun
    cases hans
    have heq : N.after s i o m before [] s.world =
        { s with phase := Function.update s.phase i (.idle (o + 1)) } := by
      simp [after, commitSteps]
    rw [heq]
    exact h.step (.finish hph)
  | raise x => cases hrun.2
  | perform e k ih =>
    obtain ⟨r, tr', rfl, hrun⟩ := hrun
    cases hans with
    | @cons _ _ _ w₁ _ _ hone hrest =>
      have hs := h.step (.perform hph hone)
      have hnext := ih r hs (by rw [performed_phase, Function.update_self]) hrun hrest
      rwa [after_performed] at hnext

/-- A process reads its next message and runs the whole loop body. -/
theorem Reachable.run_body {N : Network ι T M σ E R ε} {s : NetState ι T M σ E R ε}
    (h : Reachable N s) {i : ι} {o : Nat} {m : M} {tr : Trace E R} {w : σ}
    (hph : s.phase i = .idle o) (hm : (s.log (N.source i))[o]? = some m)
    (hrun : Runs (N.handler i o m) tr (.ok ())) (hans : Answers N s.world tr w) :
    Reachable N (N.after s i o m [] tr w) := by
  have hread := h.step (.read hph hm)
  have hfin := hread.finish_body (Function.update_self _ _ _) hrun hans
  simpa [after] using hfin

/-- A body that raises gets to the point where it has raised. -/
theorem Reachable.raise_body {N : Network ι T M σ E R ε} {s : NetState ι T M σ E R ε}
    (h : Reachable N s) {i : ι} {o : Nat} {m : M} {before tr : Trace E R} {p : Prog E R ε Unit}
    {x : ε} {w : σ} (hph : s.phase i = .running o m before p) (hrun : Runs p tr (.error x))
    (hans : Answers N s.world tr w) :
    ∃ s', Reachable N s' ∧ s'.phase i = .running o m (before ++ tr) (.raise x) := by
  induction p generalizing s before tr with
  | ret u => cases hrun.2
  | raise y =>
    obtain ⟨rfl, hx⟩ := hrun
    cases hx
    exact ⟨s, h, by rw [List.append_nil, hph]⟩
  | perform e k ih =>
    obtain ⟨r, tr', rfl, hrun⟩ := hrun
    cases hans with
    | @cons _ _ _ w₁ _ _ hone hrest =>
      have hs := h.step (.perform hph hone)
      have hnext := ih r hs (by rw [performed_phase, Function.update_self]) hrun hrest
      rwa [List.append_assoc, List.singleton_append] at hnext

/-! ## Contracts -/

/--
What the processes promise each other.

A message on topic `t` is `Valid t`. Given a valid message and admissible answers, the body
of process `i` performs each effect after a trace that satisfies `Φ`, publishes valid
messages only, and returns after a trace that satisfies `Q`.
-/
structure Contract (N : Network ι T M σ E R ε) where
  Valid : T → M → Prop
  A : (e : E) → R e → Prop
  Φ : ι → Nat → M → Trace E R → E → Prop
  Q : ι → Nat → M → Trace E R → Prop
  answer_admits : ∀ {w e r w'}, N.answer w e r w' → A e r
  env_valid : ∀ {w pubs w'}, N.env w pubs w' → ∀ p ∈ pubs, Valid p.1 p.2
  handler_performs : ∀ {i o m tr e}, Valid (N.source i) m → Trace.Admits A tr →
    Performs (N.handler i o m) tr e → Φ i o m tr e
  handler_returns : ∀ {i o m tr}, Valid (N.source i) m → Trace.Admits A tr →
    Runs (N.handler i o m) tr (.ok ()) → Q i o m tr
  publish_valid : ∀ {i o m tr e}, Φ i o m tr e → ∀ p ∈ N.published e, Valid p.1 p.2

namespace Contract

variable {N : Network ι T M σ E R ε}

/-- The contract, read off a state. -/
structure Inv (C : Contract N) (s : NetState ι T M σ E R ε) : Prop where
  valid : ∀ t, ∀ m ∈ s.log t, C.Valid t m
  running : ∀ {i o m tr p}, s.phase i = .running o m tr p →
    (s.log (N.source i))[o]? = some m ∧ Trace.Admits C.A tr ∧ Reaches (N.handler i o m) tr p

theorem inv_reachable (C : Contract N) {s : NetState ι T M σ E R ε} (h : Reachable N s) :
    C.Inv s := by
  induction h with
  | init _ => exact ⟨by simp [initial], by simp [initial]⟩
  | step _ hst ih =>
    cases hst with
    | env henv =>
      refine ⟨fun t m hm => ?_, fun hph => ?_⟩
      · rcases mem_deliver.mp hm with hm | hm
        · exact ih.valid t m hm
        · exact C.env_valid henv _ hm
      · obtain ⟨hlog, hadm, hreach⟩ := ih.running hph
        exact ⟨getElem?_deliver hlog, hadm, hreach⟩
    | @read i n m hph hm =>
      refine ⟨ih.valid, fun {j o m' tr p} hj => ?_⟩
      rcases update_cases hj with ⟨rfl, heq⟩ | ⟨-, hj⟩
      · cases heq
        exact ⟨hm, by simp, .refl _⟩
      · exact ih.running hj
    | @perform i o m tr e k r w hph hans =>
      obtain ⟨hlog, hadm, hreach⟩ := ih.running hph
      have hA : C.A e r := C.answer_admits hans
      have hΦ : C.Φ i o m tr e :=
        C.handler_performs (ih.valid _ _ (List.mem_of_getElem? hlog)) hadm hreach.performs
      refine ⟨fun t m' hm' => ?_, fun {j o' m' tr' p} hj => ?_⟩
      · rcases mem_deliver.mp hm' with hm' | hm'
        · exact ih.valid t m' hm'
        · exact C.publish_valid hΦ _ hm'
      · rw [performed_phase] at hj
        rcases update_cases hj with ⟨rfl, heq⟩ | ⟨-, hj⟩
        · cases heq
          exact ⟨getElem?_deliver hlog, by simp [hadm, hA], hreach.snoc r⟩
        · obtain ⟨hlog', hadm', hreach'⟩ := ih.running hj
          exact ⟨getElem?_deliver hlog', hadm', hreach'⟩
    | @finish i o m tr hph =>
      refine ⟨ih.valid, fun {j o' m' tr' p} hj => ?_⟩
      rcases update_cases hj with ⟨-, heq⟩ | ⟨-, hj⟩
      · cases heq
      · exact ih.running hj
    | @crash i _ =>
      refine ⟨ih.valid, fun {j o' m' tr' p} hj => ?_⟩
      rcases update_cases hj with ⟨-, heq⟩ | ⟨-, hj⟩
      · cases heq
      · exact ih.running hj

/-- Every effect is performed in a state that satisfies `Φ`. -/
theorem effect_reachable (C : Contract N) {s : NetState ι T M σ E R ε} (h : Reachable N s)
    {i : ι} {o : Nat} {m : M} {tr : Trace E R} {e : E} {k : R e → Prog E R ε Unit}
    (hph : s.phase i = .running o m tr (.perform e k)) :
    Trace.Admits C.A tr ∧ C.Φ i o m tr e := by
  have hinv := C.inv_reachable h
  obtain ⟨hlog, hadm, hreach⟩ := hinv.running hph
  have hvalid : C.Valid (N.source i) m := hinv.valid _ _ (List.mem_of_getElem? hlog)
  exact ⟨hadm, C.handler_performs hvalid hadm hreach.performs⟩

/-- A body that has come to its end did what the contract says. -/
theorem return_reachable (C : Contract N) {s : NetState ι T M σ E R ε} (h : Reachable N s)
    {i : ι} {o : Nat} {m : M} {tr : Trace E R} (hph : s.phase i = .running o m tr (.ret ())) :
    C.Q i o m tr := by
  have hinv := C.inv_reachable h
  obtain ⟨hlog, hadm, hreach⟩ := hinv.running hph
  have hvalid : C.Valid (N.source i) m := hinv.valid _ _ (List.mem_of_getElem? hlog)
  exact C.handler_returns hvalid hadm (by simpa using hreach.runs ⟨rfl, rfl⟩)

/--
Every committed loop body was on the message at its offset, and had, just before its commit, a
trace that satisfies the contract at the commit.
-/
theorem step_reachable (C : Contract N) {s : NetState ι T M σ E R ε} (h : Reachable N s) :
    ∀ st ∈ s.steps, (s.log (N.source st.proc))[st.offset]? = some st.msg ∧
      Trace.Admits C.A st.trace ∧
      ∃ e, N.commits e = true ∧ C.Φ st.proc st.offset st.msg st.trace e := by
  induction h with
  | init _ => simp [initial]
  | step hs hst ih =>
    cases hst with
    | env _ =>
      intro st hmem
      obtain ⟨hlog, hrest⟩ := ih st hmem
      exact ⟨getElem?_deliver hlog, hrest⟩
    | read _ _ => exact ih
    | @perform i o m tr e k r w hph hans =>
      intro st hmem
      by_cases hc : N.commits e = true
      · simp only [performed, hc, if_true, List.mem_append, List.mem_singleton] at hmem
        rcases hmem with hmem | rfl
        · obtain ⟨hlog, hrest⟩ := ih st hmem
          exact ⟨getElem?_deliver hlog, hrest⟩
        · obtain ⟨hadm, hΦ⟩ := C.effect_reachable hs hph
          obtain ⟨hlog, -, -⟩ := (C.inv_reachable hs).running hph
          exact ⟨getElem?_deliver hlog, hadm, e, hc, hΦ⟩
      · simp only [performed, hc] at hmem
        obtain ⟨hlog, hrest⟩ := ih st hmem
        exact ⟨getElem?_deliver hlog, hrest⟩
    | finish _ => exact ih
    | crash _ => exact ih

/-- The contract with one more property of the answers. -/
def also (C : Contract N) {A : (e : E) → R e → Prop}
    (hA : ∀ {w e r w'}, N.answer w e r w' → A e r) : Contract N where
  Valid := C.Valid
  A := fun e r => C.A e r ∧ A e r
  Φ := C.Φ
  Q := C.Q
  answer_admits := fun h => ⟨C.answer_admits h, hA h⟩
  env_valid := C.env_valid
  handler_performs := fun hm hadm h => C.handler_performs hm (fun ev hev => (hadm ev hev).1) h
  handler_returns := fun hm hadm h => C.handler_returns hm (fun ev hev => (hadm ev hev).1) h
  publish_valid := C.publish_valid

end Contract

/-! ## History -/

/-- What the recorded effects say about the rest of the state. -/
structure HistoryInv (N : Network ι T M σ E R ε) (s : NetState ι T M σ E R ε) : Prop where
  running : ∀ {i o m tr p}, s.phase i = .running o m tr p → ∀ ev ∈ tr, (i, ev) ∈ s.history
  steps : ∀ st ∈ s.steps, ∀ ev ∈ st.trace, (st.proc, ev) ∈ s.history
  published : ∀ x ∈ s.history, ∀ p ∈ N.published x.2.1, p.2 ∈ s.log p.1

theorem historyInv_reachable {N : Network ι T M σ E R ε} {s : NetState ι T M σ E R ε}
    (h : Reachable N s) : HistoryInv N s := by
  induction h with
  | init _ => exact ⟨by simp [initial], by simp [initial], by simp [initial]⟩
  | step _ hst ih =>
    cases hst with
    | env _ =>
      exact ⟨ih.running, ih.steps,
        fun x hx p hp => mem_deliver.mpr (Or.inl (ih.published x hx p hp))⟩
    | @read i n m hph hm =>
      refine ⟨fun {j o m' tr p} hj => ?_, ih.steps, ih.published⟩
      rcases update_cases hj with ⟨-, heq⟩ | ⟨-, hj⟩
      · cases heq
        simp
      · exact ih.running hj
    | @perform i o m tr e k r w hph hans =>
      refine ⟨fun {j o' m' tr' p} hj ev hev => ?_, fun st hst ev hev => ?_, fun x hx p hp => ?_⟩
      · refine List.mem_append.mpr ?_
        rw [performed_phase] at hj
        rcases update_cases hj with ⟨rfl, heq⟩ | ⟨-, hj⟩
        · cases heq
          rcases List.mem_append.mp hev with hev | hev
          · exact Or.inl (ih.running hph ev hev)
          · exact Or.inr (by rw [List.mem_singleton] at hev; simp [hev])
        · exact Or.inl (ih.running hj ev hev)
      · refine List.mem_append.mpr (Or.inl ?_)
        by_cases hc : N.commits e = true
        · simp only [performed, hc, if_true, List.mem_append, List.mem_singleton] at hst
          rcases hst with hst | rfl
          · exact ih.steps st hst ev hev
          · exact ih.running hph ev hev
        · simp only [performed, hc] at hst
          exact ih.steps st hst ev hev
      · refine mem_deliver.mpr ?_
        rcases List.mem_append.mp hx with hx | hx
        · exact Or.inl (ih.published x hx p hp)
        · rw [List.mem_singleton] at hx
          subst hx
          exact Or.inr hp
    | @finish i o m tr hph =>
      refine ⟨fun {j o' m' tr' p} hj => ?_, ih.steps, ih.published⟩
      rcases update_cases hj with ⟨-, heq⟩ | ⟨-, hj⟩
      · cases heq
      · exact ih.running hj
    | @crash i _ =>
      refine ⟨fun {j o' m' tr' p} hj => ?_, ih.steps, ih.published⟩
      rcases update_cases hj with ⟨-, heq⟩ | ⟨-, hj⟩
      · cases heq
      · exact ih.running hj

/-- What is on a topic that the environment does not publish on was published in the history. -/
theorem mem_history_of_mem_log {N : Network ι T M σ E R ε} {s : NetState ι T M σ E R ε}
    (h : Reachable N s) {t : T} (henv : ∀ {w pubs w'}, N.env w pubs w' → ∀ p ∈ pubs, p.1 ≠ t) :
    ∀ m ∈ s.log t, ∃ x ∈ s.history, (t, m) ∈ N.published x.2.1 := by
  induction h with
  | init _ => simp [initial]
  | step _ hst ih =>
    cases hst with
    | env hw =>
      intro m hm
      rcases mem_deliver.mp hm with hm | hm
      · exact ih m hm
      · exact absurd rfl (henv hw _ hm)
    | read _ _ => exact ih
    | @perform i o m tr e k r w hph hans =>
      intro m' hm'
      rcases mem_deliver.mp hm' with hm' | hm'
      · obtain ⟨x, hx, hpub⟩ := ih m' hm'
        exact ⟨x, List.mem_append_left _ hx, hpub⟩
      · exact ⟨(i, ⟨e, r⟩), by simp [performed], hm'⟩
    | finish _ => exact ih
    | crash _ => exact ih

/-- Every effect of the history was performed after a trace of earlier effects, as agreed. -/
theorem Contract.history_reachable {N : Network ι T M σ E R ε} (C : Contract N)
    {s : NetState ι T M σ E R ε} (h : Reachable N s) {x : ι × Event E R}
    {h₁ h₂ : List (ι × Event E R)} (hsplit : s.history = h₁ ++ x :: h₂) :
    ∃ o m tr, Trace.Admits C.A tr ∧ C.Φ x.1 o m tr x.2.1 ∧ ∀ ev ∈ tr, (x.1, ev) ∈ h₁ := by
  induction h generalizing h₂ with
  | init _ => simp [initial] at hsplit
  | step hs hst ih =>
    cases hst with
    | env _ => exact ih hsplit
    | read _ _ => exact ih hsplit
    | @perform i o m tr e k r w hph hans =>
      rcases List.eq_nil_or_concat h₂ with rfl | ⟨h₂, y, rfl⟩
      · obtain ⟨rfl, hx⟩ := List.append_inj' hsplit rfl
        cases hx
        obtain ⟨hadm, hΦ⟩ := C.effect_reachable hs hph
        exact ⟨o, m, tr, hadm, hΦ, (historyInv_reachable hs).running hph⟩
      · rw [List.concat_eq_append, ← List.cons_append, ← List.append_assoc] at hsplit
        obtain ⟨hsplit, -⟩ := List.append_inj' hsplit rfl
        exact ih hsplit
    | finish _ => exact ih hsplit
    | crash _ => exact ih hsplit

end Network

end Infra
