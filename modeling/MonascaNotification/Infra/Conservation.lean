import Mathlib.Data.List.Count
import MonascaNotification.Infra.Relay

/-!
# Counting what consumers publish

In runs without crashes a process reads every offset once. When each of its loop bodies
publishes at most one message of a class, and only for messages of a class of its own, then it
never publishes more of them than it has read (`charged`). For a process that passes messages
on along its own topic this is a conservation law: what is unread and what has ended is no more
than what others have put in (`unread_add_ended_le`).
-/

namespace Infra.Network

open Prog

variable {ι T M σ E : Type} {R : E → Type} {ε : Type} [DecidableEq ι] [DecidableEq T]
  {N : Network ι T M σ E R ε}

/-! ## What is counted -/

/-- How many messages of the class `κ` a trace publishes. -/
def emitted (N : Network ι T M σ E R ε) (κ : T × M → Bool) (tr : Trace E R) : Nat :=
  (tr.flatMap fun ev => N.published ev.1).countP κ

/-- How many the processes in `q` have published. -/
def emittedBy (N : Network ι T M σ E R ε) (κ : T × M → Bool) (s : NetState ι T M σ E R ε)
    (q : ι → Bool) : Nat :=
  N.emitted κ ((s.history.filter fun x => q x.1).map Prod.snd)

/-- How many committed steps of `i`, on messages of the class `ω`, published none. -/
def endedBy (N : Network ι T M σ E R ε) (κ : T × M → Bool) (ω : M → Bool)
    (s : NetState ι T M σ E R ε) (i : ι) : Nat :=
  s.steps.countP fun st => decide (st.proc = i) && (ω st.msg && N.emitted κ st.trace == 0)

/-- The offset that the process reads next. -/
def readPos (s : NetState ι T M σ E R ε) (i : ι) : Nat :=
  match s.phase i with
  | .idle n => n
  | .running o _ _ _ => o + 1

section Counts

variable {κ : T × M → Bool} {ω : M → Bool} {s : NetState ι T M σ E R ε}

omit [DecidableEq ι] [DecidableEq T] in
@[simp] theorem emitted_nil : N.emitted κ [] = 0 := rfl

omit [DecidableEq ι] [DecidableEq T] in
@[simp] theorem emitted_append (tr₁ tr₂ : Trace E R) :
    N.emitted κ (tr₁ ++ tr₂) = N.emitted κ tr₁ + N.emitted κ tr₂ := by
  simp [emitted]

omit [DecidableEq ι] [DecidableEq T] in
@[simp] theorem emitted_cons (ev : Event E R) (tr : Trace E R) :
    N.emitted κ (ev :: tr) = (N.published ev.1).countP κ + N.emitted κ tr := by
  simp [emitted]

omit [DecidableEq ι] [DecidableEq T] in
/-- Each publisher is in `q` or not. -/
theorem emittedBy_add_not (q : ι → Bool) :
    N.emittedBy κ s q + N.emittedBy κ s (fun i => !q i) =
      N.emitted κ (s.history.map Prod.snd) := by
  unfold emittedBy
  induction s.history with
  | nil => rfl
  | cons x xs ih =>
    dsimp only at ih
    cases hq : q x.1 <;> simp [hq] <;> omega

omit [DecidableEq ι] [DecidableEq T] in
/-- Publishers that publish nothing of the class do not count. -/
theorem emittedBy_congr {q q' : ι → Bool}
    (h : ∀ x ∈ s.history, q x.1 ≠ q' x.1 → (N.published x.2.1).countP κ = 0) :
    N.emittedBy κ s q = N.emittedBy κ s q' := by
  unfold emittedBy
  revert h
  generalize s.history = xs
  intro h
  induction xs with
  | nil => rfl
  | cons x xs ih =>
    have hrest := ih fun y hy => h y (List.mem_cons_of_mem _ hy)
    have hx := h x List.mem_cons_self
    cases hq : q x.1 <;> cases hq' : q' x.1 <;> simp [hq, hq', hrest] at hx ⊢ <;> exact hx

/-- The messages on a topic are the ones that were published on it. -/
theorem countP_log {t : T} {f : M → Bool} (h : Reachable N s)
    (henv : ∀ {w pubs w'}, N.env w pubs w' → ∀ p ∈ pubs, p.1 ≠ t) :
    (s.log t).countP f =
      N.emitted (fun p => decide (p.1 = t) && f p.2) (s.history.map Prod.snd) := by
  have hdeliver : ∀ (log : T → List M) pubs, (deliver log pubs t).countP f =
      (log t).countP f + pubs.countP fun p => decide (p.1 = t) && f p.2 := by
    intro log pubs
    rw [deliver, List.countP_append, List.countP_map, List.countP_filter]
    congr 1
    refine List.countP_congr fun p _ => ?_
    simp [and_comm]
  induction h with
  | init _ => rfl
  | step _ hst ih =>
    cases hst with
    | @env pubs w hw =>
      have hnone : (pubs.countP fun p => decide (p.1 = t) && f p.2) = 0 := by
        refine List.countP_eq_zero.mpr fun p hp => ?_
        simp [henv hw p hp]
      rw [hdeliver, hnone, ih, Nat.add_zero]
    | read _ _ => exact ih
    | perform _ _ => simp [performed, hdeliver, ih]
    | finish _ => exact ih
    | crash _ => exact ih

end Counts

/-! ## Each loop body is charged to its message -/

/--
What the body of a message of `i` has used up: what it has published, or, when it has committed
and published nothing for a message of the class, its end.
-/
def charge (N : Network ι T M σ E R ε) (κ : T × M → Bool) (ω : M → Bool) (m : M)
    (tr : Trace E R) : Nat :=
  N.emitted κ tr +
    if (tr.any fun ev => N.commits ev.1) && (ω m && N.emitted κ tr == 0) then 1 else 0

/-- The body of a message in `ω` publishes at most one message in `κ`, any other body none. -/
structure Contract.Charged (C : Contract N) (i : ι) (κ : T × M → Bool) (ω : M → Bool) : Prop
    extends C.CommitsOnce i where
  commit_publishes : ∀ e, N.commits e = true → N.published e = []
  bound : ∀ {o m tr e}, C.Valid (N.source i) m → Trace.Admits C.A tr → C.Φ i o m tr e →
    0 < (N.published e).countP κ →
    N.emitted κ tr + (N.published e).countP κ ≤ (if ω m then 1 else 0) ∧
      ∀ ev ∈ tr, N.commits ev.1 = false

section Charge

variable {C : Contract N} {i : ι} {κ : T × M → Bool} {ω : M → Bool}
  {s : NetState ι T M σ E R ε} {o : Nat} {m : M} {tr : Trace E R} {e : E}
  {k : R e → Prog E R ε Unit} {r : R e} {w : σ}

theorem emittedBy_performed (j : ι) : N.emittedBy κ (N.performed s j o m tr e k r w)
    (fun x => decide (x = i)) = N.emittedBy κ s (fun x => decide (x = i)) +
      if j = i then (N.published e).countP κ else 0 := by
  by_cases hj : j = i <;> simp [emittedBy, performed, hj]

theorem endedBy_performed (j : ι) : N.endedBy κ ω (N.performed s j o m tr e k r w) i =
    N.endedBy κ ω s i +
      if j = i ∧ N.commits e = true ∧ ω m = true ∧ N.emitted κ tr = 0 then 1 else 0 := by
  by_cases hc : N.commits e = true
  · simp only [endedBy, performed, hc, if_true, List.countP_append, true_and]
    congr 1
    simp [List.countP_cons]
  · simp [endedBy, performed, hc]

omit [DecidableEq ι] [DecidableEq T] in
/-- One effect charges the message with exactly what it adds to the counts, and not too much. -/
theorem charge_step (hC : C.Charged i κ ω) (hvalid : C.Valid (N.source i) m)
    (hadm : Trace.Admits C.A tr) (hΦ : C.Φ i o m tr e)
    (hle : N.charge κ ω m tr ≤ if ω m then 1 else 0) :
    N.charge κ ω m (tr ++ [⟨e, r⟩]) = N.charge κ ω m tr + (N.published e).countP κ +
      (if N.commits e = true ∧ ω m = true ∧ N.emitted κ tr = 0 then 1 else 0) ∧
    N.charge κ ω m (tr ++ [⟨e, r⟩]) ≤ if ω m then 1 else 0 := by
  by_cases hc : N.commits e = true
  · -- a commit publishes nothing, and none stands before it
    have hpub : N.published e = [] := hC.commit_publishes e hc
    have hnone : (tr.any fun ev => N.commits ev.1) = false := by
      simpa using hC.once hΦ hc
    have hemit : N.emitted κ (tr ++ [⟨e, r⟩]) = N.emitted κ tr := by simp [hpub]
    unfold charge at hle ⊢
    rw [hemit]
    simp only [List.any_append, hnone, hc, hpub] at hle ⊢
    by_cases hω : ω m = true <;> by_cases hz : N.emitted κ tr = 0 <;> simp_all
  · have hany : ((tr ++ [(⟨e, r⟩ : Event E R)]).any fun ev => N.commits ev.1) =
        (tr.any fun ev => N.commits ev.1) := by simp [hc]
    by_cases hpos : 0 < (N.published e).countP κ
    · obtain ⟨hbound, hno⟩ := hC.bound hvalid hadm hΦ hpos
      have hnone : (tr.any fun ev => N.commits ev.1) = false := by simpa using hno
      unfold charge
      rw [hany, hnone]
      simp only [emitted_append, emitted_cons, emitted_nil, Bool.false_and, Bool.false_eq_true,
        if_false, hc, false_and, Nat.add_zero]
      exact ⟨trivial, hbound⟩
    · have hzero : (N.published e).countP κ = 0 := Nat.eq_zero_of_not_pos hpos
      have hemit : N.emitted κ (tr ++ [⟨e, r⟩]) = N.emitted κ tr := by simp [hzero]
      have hsame : N.charge κ ω m (tr ++ [⟨e, r⟩]) = N.charge κ ω m tr := by
        unfold charge
        rw [hany, hemit]
      rw [hsame, hzero]
      exact ⟨by simp [hc], hle⟩

/-- What process `i` has published or ended, against what it has read. -/
structure Paid (N : Network ι T M σ E R ε) (κ : T × M → Bool) (ω : M → Bool)
    (s : NetState ι T M σ E R ε) (i : ι) : Prop where
  idle : ∀ {n}, s.phase i = .idle n → n ≤ (s.log (N.source i)).length ∧
    N.emittedBy κ s (fun x => decide (x = i)) + N.endedBy κ ω s i ≤
      ((s.log (N.source i)).take n).countP ω
  running : ∀ {o m tr p}, s.phase i = .running o m tr p →
    N.emittedBy κ s (fun x => decide (x = i)) + N.endedBy κ ω s i ≤
      ((s.log (N.source i)).take o).countP ω + N.charge κ ω m tr ∧
    N.charge κ ω m tr ≤ if ω m then 1 else 0

theorem take_deliver {log : T → List M} (pubs : List (T × M)) {t : T} {n : Nat}
    (h : n ≤ (log t).length) : (deliver log pubs t).take n = (log t).take n := by
  rw [deliver, List.take_append_of_le_length h]

theorem paid_reachable (hC : C.Charged i κ ω) (hcrash : ¬ N.mayCrash) (h : Reachable N s) :
    Paid N κ ω s i := by
  induction h with
  | init _ =>
    refine ⟨fun hph => ?_, fun hph => by simp [initial] at hph⟩
    cases hph
    exact ⟨Nat.le_refl _, Nat.le_refl _⟩
  | @step s _ hs hst ih =>
    have hinv := C.inv_reachable hs
    -- the message of a running body is on the log
    have hlen : ∀ {o m tr p}, s.phase i = .running o m tr p →
        o < (s.log (N.source i)).length := fun hph =>
      (List.getElem?_eq_some_iff.mp (hinv.running hph).1).1
    cases hst with
    | env hw =>
      refine ⟨fun hph => ?_, fun hph => ?_⟩
      · obtain ⟨hn, hle⟩ := ih.idle hph
        refine ⟨Nat.le_trans hn (length_le_deliver _ _ _), ?_⟩
        rw [take_deliver _ hn]
        exact hle
      · rw [take_deliver _ (Nat.le_of_lt (hlen hph))]
        exact ih.running hph
    | @read j n m hph hm =>
      refine ⟨fun hph' => ?_, fun hph' => ?_⟩
      · rcases update_cases hph' with ⟨-, heq⟩ | ⟨-, hph'⟩
        · cases heq
        · exact ih.idle hph'
      · rcases update_cases hph' with ⟨rfl, heq⟩ | ⟨-, hph'⟩
        · cases heq
          obtain ⟨-, hle⟩ := ih.idle hph
          exact ⟨Nat.le_trans hle (Nat.le_add_right _ _), by simp [charge]⟩
        · exact ih.running hph'
    | @perform j o m tr e k r w hph hans =>
      by_cases hj : j = i
      · subst hj
        refine ⟨fun hph' => by simp [performed_phase] at hph', fun hph' => ?_⟩
        rw [performed_phase, Function.update_self] at hph'
        cases hph'
        obtain ⟨hadm, hΦ⟩ := C.effect_reachable hs hph
        have hvalid := hinv.valid _ _ (List.mem_of_getElem? (hinv.running hph).1)
        obtain ⟨hle, hcharge⟩ := ih.running hph
        obtain ⟨hstep, hnew⟩ := charge_step (r := r) hC hvalid hadm hΦ hcharge
        refine ⟨?_, hnew⟩
        rw [emittedBy_performed, endedBy_performed, hstep]
        have htake : ((N.performed s j o m tr e k r w).log (N.source j)).take o =
            (s.log (N.source j)).take o := take_deliver _ (Nat.le_of_lt (hlen hph))
        rw [htake]
        simp only [if_true, true_and]
        omega
      · -- another process moves: only the log may grow
        have hbase : N.emittedBy κ (N.performed s j o m tr e k r w) (fun x => decide (x = i)) +
            N.endedBy κ ω (N.performed s j o m tr e k r w) i =
            N.emittedBy κ s (fun x => decide (x = i)) + N.endedBy κ ω s i := by
          rw [emittedBy_performed, endedBy_performed]
          simp [hj]
        have hpi : (N.performed s j o m tr e k r w).phase i = s.phase i := by
          rw [performed_phase, Function.update_of_ne (Ne.symm hj)]
        refine ⟨fun hph' => ?_, fun hph' => ?_⟩
        · rw [hpi] at hph'
          obtain ⟨hn, hle⟩ := ih.idle hph'
          refine ⟨Nat.le_trans hn (length_le_deliver _ _ _), ?_⟩
          rw [hbase]
          exact Nat.le_trans hle (Nat.le_of_eq (by rw [← take_deliver _ hn]; rfl))
        · rw [hpi] at hph'
          obtain ⟨hle, hcharge⟩ := ih.running hph'
          refine ⟨?_, hcharge⟩
          rw [hbase]
          refine Nat.le_trans hle (Nat.le_of_eq ?_)
          rw [← take_deliver (N.published e) (Nat.le_of_lt (hlen hph'))]
          rfl
    | @finish j o m tr hph =>
      refine ⟨fun hph' => ?_, fun hph' => ?_⟩
      · rcases update_cases hph' with ⟨rfl, heq⟩ | ⟨-, hph'⟩
        · cases heq
          obtain ⟨hle, hcharge⟩ := ih.running hph
          have hm := (hinv.running hph).1
          refine ⟨hlen hph, ?_⟩
          rw [List.take_add_one, hm, List.countP_append]
          refine Nat.le_trans hle (Nat.add_le_add_left ?_ _)
          refine Nat.le_trans hcharge (Nat.le_of_eq ?_)
          simp [List.countP_cons]
        · exact ih.idle hph'
      · rcases update_cases hph' with ⟨-, heq⟩ | ⟨-, hph'⟩
        · cases heq
        · exact ih.running hph'
    | crash hmay => exact absurd hmay hcrash

/-- **A process publishes no more than it has read.** -/
theorem charged (hC : C.Charged i κ ω) (hcrash : ¬ N.mayCrash) (h : Reachable N s) :
    N.emittedBy κ s (fun x => decide (x = i)) + N.endedBy κ ω s i ≤
      ((s.log (N.source i)).take (readPos s i)).countP ω := by
  have hpaid := paid_reachable hC hcrash h
  unfold readPos
  cases hph : s.phase i with
  | idle n => exact (hpaid.idle hph).2
  | running o m tr p =>
    obtain ⟨hle, hcharge⟩ := hpaid.running hph
    have hm := ((C.inv_reachable h).running hph).1
    rw [List.take_add_one, hm, List.countP_append]
    refine Nat.le_trans hle (Nat.add_le_add_left ?_ _)
    refine Nat.le_trans hcharge (Nat.le_of_eq ?_)
    simp [List.countP_cons]

/--
**Conservation.** When a process passes messages of a class on along its own topic, what it has
not read yet and what has ended with it is no more than what the others have put in.
-/
theorem unread_add_ended_le {f : M → Bool}
    (hC : C.Charged i (fun p => decide (p.1 = N.source i) && f p.2) f) (hcrash : ¬ N.mayCrash)
    (henv : ∀ {w pubs w'}, N.env w pubs w' → ∀ p ∈ pubs, p.1 ≠ N.source i)
    (h : Reachable N s) :
    ((s.log (N.source i)).drop (readPos s i)).countP f +
        N.endedBy (fun p => decide (p.1 = N.source i) && f p.2) f s i ≤
      N.emittedBy (fun p => decide (p.1 = N.source i) && f p.2) s (fun x => !decide (x = i)) := by
  have hread := charged hC hcrash h
  have hlog := countP_log (f := f) h henv
  have hsplit := emittedBy_add_not (N := N) (s := s)
    (κ := fun p => decide (p.1 = N.source i) && f p.2) (fun x => decide (x = i))
  have hcut : (s.log (N.source i)).countP f =
      ((s.log (N.source i)).take (readPos s i)).countP f +
        ((s.log (N.source i)).drop (readPos s i)).countP f := by
    rw [← List.countP_append, List.take_append_drop]
  omega

end Charge

end Infra.Network
