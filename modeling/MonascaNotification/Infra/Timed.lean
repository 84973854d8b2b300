import Mathlib.Algebra.Order.Ring.Rat
import MonascaNotification.Infra.Network

/-!
# Moments

When the effects of a network happened. A history is *dated* when each of its events has a
moment. `Clocked` says that all processes read one clock that never goes backwards, and that a
process which pauses does nothing before its pause is over.

A loop body was started in an earlier state, in which its message was already there, and all
its events came later (`InBody.started`). So what was read off the clock before a message was
published is not later than what is read in its body (`Clocked.reading_le`).
-/

namespace Infra

open Prog

/-! ## Clocks -/

section

variable {ι E : Type} {R : E → Type}

/-- What an event says about the clock, and how long a process rests after an effect. -/
structure Clock (E : Type) (R : E → Type) where
  reading : Event E R → Option Rat
  pause : E → Rat

/-- The moments of the events agree with one clock. -/
structure Clocked (C : Clock E R) (dated : List ((ι × Event E R) × Rat)) : Prop where
  forward : dated.Pairwise fun x y => x.2 ≤ y.2
  pauses : dated.Pairwise fun x y => x.1.1 = y.1.1 → x.2 + C.pause x.1.2.1 ≤ y.2
  readings : ∀ x ∈ dated, ∀ t ∈ C.reading x.1.2, t = x.2

/-- The moments of a loop body of `i`: its events as they stand in the dated history. -/
structure Dates (dated : List ((ι × Event E R) × Rat)) (i : ι) (tr : Trace E R)
    (body : List (Event E R × Rat)) : Prop where
  events : body.map Prod.fst = tr
  sublist : (body.map fun y => ((i, y.1), y.2)).Sublist dated

/-- The moments of one loop body, among themselves. -/
structure BodyClocked (C : Clock E R) (body : List (Event E R × Rat)) : Prop where
  forward : body.Pairwise fun x y => x.2 ≤ y.2
  pauses : body.Pairwise fun x y => x.2 + C.pause x.1.1 ≤ y.2
  readings : ∀ x ∈ body, ∀ t ∈ C.reading x.1, t = x.2

variable {C : Clock E R} {dated : List ((ι × Event E R) × Rat)}

theorem Clocked.body (h : Clocked C dated) {i : ι} {tr : Trace E R}
    {body : List (Event E R × Rat)} (hd : Dates dated i tr body) : BodyClocked C body := by
  refine ⟨?_, ?_, ?_⟩
  · have hforward := h.forward.sublist hd.sublist
    rwa [List.pairwise_map] at hforward
  · have hpauses := h.pauses.sublist hd.sublist
    rw [List.pairwise_map] at hpauses
    exact hpauses.imp fun hxy => hxy rfl
  · intro x hx
    exact h.readings _ (hd.sublist.subset (List.mem_map.mpr ⟨x, hx, rfl⟩))

/-- What was read earlier is not later. -/
theorem Clocked.reading_le (h : Clocked C dated) {before after : List (ι × Event E R)}
    (hsplit : dated.map Prod.fst = before ++ after) {x y : ι × Event E R} (hx : x ∈ before)
    (hy : y ∈ after) {a b : Rat} (ha : a ∈ C.reading x.2) (hb : b ∈ C.reading y.2) : a ≤ b := by
  obtain ⟨dated₁, dated₂, rfl, rfl, rfl⟩ := List.map_eq_append_iff.mp hsplit
  obtain ⟨x', hx', rfl⟩ := List.mem_map.mp hx
  obtain ⟨y', hy', rfl⟩ := List.mem_map.mp hy
  rw [h.readings x' (List.mem_append_left _ hx') a ha,
    h.readings y' (List.mem_append_right _ hy') b hb]
  exact (List.pairwise_append.mp h.forward).2.2 x' hx' y' hy'

namespace BodyClocked

variable {body before after : List (Event E R × Rat)} {x y : Event E R × Rat}

/-- An event and any later event of the body. -/
theorem le (h : BodyClocked C (before ++ x :: after)) (hy : y ∈ after) : x.2 ≤ y.2 :=
  List.rel_of_pairwise_cons (List.pairwise_append.mp h.forward).2.1 hy

theorem pause_le (h : BodyClocked C (before ++ x :: after)) (hy : y ∈ after) :
    x.2 + C.pause x.1.1 ≤ y.2 :=
  List.rel_of_pairwise_cons (List.pairwise_append.mp h.pauses).2.1 hy

theorem eq_of_reading (h : BodyClocked C body) (hx : x ∈ body) {t : Rat}
    (ht : t ∈ C.reading x.1) : x.2 = t :=
  (h.readings x hx t ht).symm

end BodyClocked

end

/-! ## Places in a list -/

section

variable {α : Type} {a : α} {xs ys before after : List α}

theorem eq_take_append_drop {k : Nat} (h : xs[k]? = some a) :
    xs = xs.take k ++ a :: xs.drop (k + 1) := by
  obtain ⟨hk, rfl⟩ := List.getElem?_eq_some_iff.mp h
  rw [← List.drop_eq_getElem_cons hk, List.take_append_drop]

/-- An element that is not in the first part is in the second one. -/
theorem exists_of_append_eq_right (h : xs ++ ys = before ++ a :: after) (ha : a ∉ xs) :
    ∃ between, before = xs ++ between ∧ ys = between ++ a :: after := by
  rcases List.append_eq_append_iff.mp h with ⟨c, rfl, hc⟩ | ⟨c, rfl, hc⟩
  · exact ⟨c, rfl, hc⟩
  · cases c with
    | nil => exact ⟨[], by simp, hc.symm⟩
    | cons b c =>
      cases hc
      exact absurd (by simp) ha

/-- An element that is not in the second part is in the first one. -/
theorem exists_of_append_eq_left (h : xs ++ ys = before ++ a :: after) (ha : a ∉ ys) :
    ∃ between, after = between ++ ys ∧ xs = before ++ a :: between := by
  rcases List.append_eq_append_iff.mp h with ⟨c, rfl, hc⟩ | ⟨c, rfl, hc⟩
  · exact absurd (hc ▸ by simp) ha
  · cases c with
    | nil => exact absurd (by rw [← List.nil_append ys, ← hc]; simp) ha
    | cons b c =>
      cases hc
      exact ⟨c, rfl, rfl⟩

end

/-! ## Loop bodies -/

namespace Network

variable {ι T M σ E : Type} {R : E → Type} {ε : Type}

/-- The loop body of process `i` for the message at `o` has performed `tr`. -/
def InBody (s : NetState ι T M σ E R ε) (i : ι) (o : Nat) (m : M) (tr : Trace E R) : Prop :=
  ⟨i, o, m, tr⟩ ∈ s.steps ∨ ∃ p, s.phase i = .running o m tr p

variable [DecidableEq ι] [DecidableEq T] {N : Network ι T M σ E R ε}
  {s : NetState ι T M σ E R ε} {i : ι} {o : Nat} {m : M} {tr : Trace E R}

/-- After an effect a loop body has performed what it had before, or one effect more. -/
theorem InBody.of_performed {j : ι} {o' : Nat} {m' : M} {tr' : Trace E R} {e : E}
    {k : R e → Prog E R ε Unit} {r : R e} {w : σ}
    (hph : s.phase j = .running o' m' tr' (.perform e k))
    (h : InBody (N.performed s j o' m' tr' e k r w) i o m tr) :
    InBody s i o m tr ∨ i = j ∧ o = o' ∧ m = m' ∧ tr = tr' ++ [⟨e, r⟩] := by
  rcases h with hstep | ⟨p, hp⟩
  · by_cases hc : N.commits e = true
    · simp only [performed, hc, if_true, List.mem_append, List.mem_singleton] at hstep
      rcases hstep with hstep | heq
      · exact Or.inl (Or.inl hstep)
      · cases heq
        exact Or.inl (Or.inr ⟨_, hph⟩)
    · simp only [performed, hc] at hstep
      exact Or.inl (Or.inl hstep)
  · rw [performed_phase] at hp
    rcases update_cases hp with ⟨rfl, heq⟩ | ⟨-, hp⟩
    · cases heq
      exact Or.inr ⟨rfl, rfl, rfl, rfl⟩
    · exact Or.inl (Or.inr ⟨p, hp⟩)

omit [DecidableEq T] in
/-- When a process became idle no body has performed anything new. -/
theorem InBody.of_idle {j : ι} {next : Nat}
    (h : InBody { s with phase := Function.update s.phase j (.idle next) } i o m tr) :
    InBody s i o m tr := by
  rcases h with hstep | ⟨p, hp⟩
  · exact Or.inl hstep
  · rcases update_cases hp with ⟨-, heq⟩ | ⟨-, hp⟩
    · cases heq
    · exact Or.inr ⟨p, hp⟩

/-- A body started in an earlier state, with its message in the log, and performed all later. -/
theorem InBody.started (h : Reachable N s) (hb : InBody s i o m tr) :
    ∃ s₀ later, Reachable N s₀ ∧ s.history = s₀.history ++ later ∧
      (s₀.log (N.source i))[o]? = some m ∧ (tr.map (Prod.mk i)).Sublist later := by
  induction h generalizing i o m tr with
  | init _ =>
    rcases hb with hstep | ⟨p, hp⟩
    · cases hstep
    · cases hp
  | @step s s' hs hst ih =>
    cases hst with
    | env _ => exact ih hb
    | @read j n m' hph hm =>
      rcases hb with hstep | ⟨p, hp⟩
      · exact ih (Or.inl hstep)
      · rcases update_cases hp with ⟨rfl, heq⟩ | ⟨-, hp⟩
        · cases heq
          exact ⟨s, [], hs, (List.append_nil _).symm, hm, List.Sublist.refl _⟩
        · exact ih (Or.inr ⟨p, hp⟩)
    | @perform j o' m' tr' e k r w hph hans =>
      rcases hb.of_performed hph with hb | ⟨rfl, rfl, rfl, rfl⟩
      · obtain ⟨s₀, later, hs₀, hhist, hlog, hsub⟩ := ih hb
        refine ⟨s₀, later ++ [(j, ⟨e, r⟩)], hs₀, ?_, hlog, ?_⟩
        · rw [← List.append_assoc, ← hhist]
          rfl
        · exact hsub.trans (List.sublist_append_left _ _)
      · obtain ⟨s₀, later, hs₀, hhist, hlog, hsub⟩ := ih (Or.inr ⟨_, hph⟩)
        refine ⟨s₀, later ++ [(i, ⟨e, r⟩)], hs₀, ?_, hlog, ?_⟩
        · rw [← List.append_assoc, ← hhist]
          rfl
        · rw [List.map_append]
          exact hsub.append (List.Sublist.refl _)
    | finish _ => exact ih hb.of_idle
    | crash _ => exact ih hb.of_idle

omit [DecidableEq ι] [DecidableEq T] in
/-- A commit on a trace ends a step with what stands before it. -/
theorem mem_commitSteps {before : Trace E R} {k : Nat} {ev : Event E R} (h : tr[k]? = some ev)
    (hc : N.commits ev.1 = true) :
    ⟨i, o, m, before ++ tr.take k⟩ ∈ N.commitSteps i o m before tr := by
  induction tr generalizing before k with
  | nil => cases h
  | cons ev' tr ih =>
    cases k with
    | zero =>
      cases h
      simp [commitSteps, hc]
    | succ k =>
      have hrest : ⟨i, o, m, before ++ [ev'] ++ tr.take k⟩ ∈ N.commitSteps i o m _ tr := ih h
      rw [List.append_assoc] at hrest
      exact List.mem_append_right _ hrest

/-- The contract that says only what the handlers do. -/
def handlers (N : Network ι T M σ E R ε) : Contract N where
  Valid := fun _ _ => True
  A := fun _ _ => True
  Φ := fun i o m tr e => Performs (N.handler i o m) tr e
  Q := fun _ _ _ _ => True
  answer_admits := fun _ => trivial
  env_valid := fun _ _ _ => trivial
  handler_performs := fun _ _ h => h
  handler_returns := fun _ _ _ => trivial
  publish_valid := fun _ _ _ => trivial

/-- What a body has performed is what its handler performs. -/
theorem InBody.performs (h : Reachable N s) {tr₁ tr₂ : Trace E R} {ev : Event E R}
    (hb : InBody s i o m (tr₁ ++ ev :: tr₂)) : Performs (N.handler i o m) tr₁ ev.1 := by
  rcases hb with hstep | ⟨p, hp⟩
  · obtain ⟨-, -, e, -, hperf⟩ := N.handlers.step_reachable h _ hstep
    exact hperf.of_append
  · obtain ⟨-, -, hreach⟩ := (N.handlers.inv_reachable h).running hp
    exact hreach.of_append

/-- The message of a body is in the log, and the answers that it got are admissible. -/
theorem Contract.inBody (C : Contract N) (h : Reachable N s) (hb : InBody s i o m tr) :
    C.Valid (N.source i) m ∧ Trace.Admits C.A tr := by
  have hinv := C.inv_reachable h
  rcases hb with hstep | ⟨p, hp⟩
  · obtain ⟨hlog, hadm, -⟩ := C.step_reachable h _ hstep
    exact ⟨hinv.valid _ _ (List.mem_of_getElem? hlog), hadm⟩
  · obtain ⟨hlog, hadm, -⟩ := hinv.running hp
    exact ⟨hinv.valid _ _ (List.mem_of_getElem? hlog), hadm⟩

end Network

end Infra
