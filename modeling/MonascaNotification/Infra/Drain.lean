import Mathlib.Algebra.BigOperators.Group.Finset.Basic
import Mathlib.Logic.Hydra
import Mathlib.Tactic.Abel
import MonascaNotification.Infra.Conservation
import MonascaNotification.Infra.Run

/-!
# When the work runs out

Processes `Q` whose messages have a rank: the body of a message publishes, on the topics of `Q`,
only messages of a smaller rank. It may publish any number of them, so no count of the messages goes
down. But what is left to do is a finite multiset of tasks, one for each message that waits and each
body in work, and every step of a process in `Q` replaces one task by smaller ones
(`Labelled.cutExpand`). Such a game ends in whatever order it is played. So in every infinite run in
which nobody else puts messages on these topics, the processes of `Q` come to rest (`exists_rest`),
and in a fair one they do so with nothing left to do (`exists_unable`).
-/

namespace Infra.Network

open Prog Relation

/-! ## Tasks -/

/-- A message that waits, or the rest of the body of one. -/
inductive Task (ρ E : Type) (R : E → Type) (ε : Type) where
  | waiting (rank : ρ)
  | working (rank : ρ) (rest : Prog E R ε Unit)

namespace Task

variable {ρ E : Type} {R : E → Type} {ε : Type}

def rank : Task ρ E R ε → ρ
  | .waiting r => r
  | .working r _ => r

/-- A task of smaller rank, or the same task one step further. -/
inductive Below [LT ρ] : Task ρ E R ε → Task ρ E R ε → Prop where
  | rank {t t' : Task ρ E R ε} : t.rank < t'.rank → Below t t'
  | start {r p} : Below (.working r p) (.waiting r)
  | answer {r e k a} : Below (.working r (k a)) (.working r (.perform e k))

theorem wellFounded_below [LT ρ] [WellFoundedLT ρ] :
    WellFounded (Below : Task ρ E R ε → Task ρ E R ε → Prop) := by
  have hrank : ∀ r : ρ, ∀ t : Task ρ E R ε, t.rank = r → Acc Below t := by
    intro r
    induction r using WellFoundedLT.induction with
    | ind r ih =>
      have hsmaller : ∀ t : Task ρ E R ε, t.rank < r → Acc Below t := fun t ht => ih _ ht t rfl
      -- the body in work goes on to its parts
      have hworking : ∀ p : Prog E R ε Unit, Acc Below (.working r p) := by
        intro p
        induction p with
        | perform e k ihk =>
          refine Acc.intro _ fun t ht => ?_
          cases ht with
          | rank ht => exact hsmaller t ht
          | answer => exact ihk _
        | _ =>
          refine Acc.intro _ fun t ht => ?_
          cases ht with
          | rank ht => exact hsmaller t ht
      rintro (r' | ⟨r', p⟩) rfl
      · refine Acc.intro _ fun t ht => ?_
        cases ht with
        | rank ht => exact hsmaller t ht
        | start => exact hworking _
      · exact hworking p
  exact ⟨fun t => hrank _ t rfl⟩

end Task

/-! ## What is left to do -/

variable {ι T M σ E : Type} {R : E → Type} {ε ρ : Type} [DecidableEq ι] [DecidableEq T]
  {N : Network ι T M σ E R ε} {s s' : NetState ι T M σ E R ε}

/-- The body in work. -/
def inHand (N : Network ι T M σ E R ε) (rank : T → M → ρ) (s : NetState ι T M σ E R ε) (i : ι) :
    Multiset (Task ρ E R ε) :=
  match s.phase i with
  | .idle _ => 0
  | .running _ m _ p => {.working (rank (N.source i) m) p}

/-- The messages that the process has not read. -/
def inWait (N : Network ι T M σ E R ε) (rank : T → M → ρ) (s : NetState ι T M σ E R ε) (i : ι) :
    Multiset (Task ρ E R ε) :=
  ↑(((s.log (N.source i)).drop (readPos s i)).map fun m =>
    (.waiting (rank (N.source i) m) : Task ρ E R ε))

/-- The messages of a publish, as tasks of a process. -/
def arriving (N : Network ι T M σ E R ε) (rank : T → M → ρ) (pubs : List (T × M)) (i : ι) :
    Multiset (Task ρ E R ε) :=
  ↑((pubs.filter fun p => decide (p.1 = N.source i)).map fun p =>
    (.waiting (rank (N.source i) p.2) : Task ρ E R ε))

/-- What the processes in `Q` have left to do. -/
def workload (N : Network ι T M σ E R ε) (Q : Finset ι) (rank : T → M → ρ)
    (s : NetState ι T M σ E R ε) : Multiset (Task ρ E R ε) :=
  ∑ i ∈ Q, (inHand N rank s i + inWait N rank s i)

/--
On the topics of `Q`, messages are published in the bodies of `Q` only, and with smaller ranks.
-/
structure Contract.Ranked [LT ρ] (C : Contract N) (Q : Finset ι) (rank : T → M → ρ) : Prop where
  smaller : ∀ {i o m tr e}, i ∈ Q → C.Valid (N.source i) m → Trace.Admits C.A tr → C.Φ i o m tr e →
    ∀ p ∈ N.published e, ∀ j ∈ Q, p.1 = N.source j → rank p.1 p.2 < rank (N.source i) m
  outside : ∀ {i o m tr e}, i ∉ Q → C.Φ i o m tr e →
    ∀ p ∈ N.published e, ∀ j ∈ Q, p.1 ≠ N.source j

omit [DecidableEq ι] [DecidableEq T] in
theorem readPos_of_phase {i : ι} (h : s'.phase i = s.phase i) : readPos s' i = readPos s i := by
  rw [readPos, readPos, h]

/-- A process has read messages of its topic only. -/
theorem readPos_le (C : Contract N) {i : ι} (hc : C.CommitsOnce i) (h : Reachable N s) :
    readPos s i ≤ (s.log (N.source i)).length := by
  unfold readPos
  cases hph : s.phase i with
  | idle n =>
    have hcursor := cursor_reachable C hc h
    rw [hcursor.idle hph]
    exact hcursor.bound
  | running o m tr p =>
    exact (List.getElem?_eq_some_iff.mp ((C.inv_reachable h).running hph).1).1

section

variable {rank : T → M → ρ} {Q : Finset ι} {i : ι}

omit [DecidableEq ι] [DecidableEq T] in
theorem inHand_of_idle {n : Nat} (h : s.phase i = .idle n) : inHand N rank s i = 0 := by
  rw [inHand, h]

omit [DecidableEq ι] [DecidableEq T] in
theorem inHand_of_running {o : Nat} {m : M} {tr : Trace E R} {p : Prog E R ε Unit}
    (h : s.phase i = .running o m tr p) :
    inHand N rank s i = {.working (rank (N.source i) m) p} := by
  rw [inHand, h]

omit [DecidableEq ι] [DecidableEq T] in
theorem inHand_of_phase (h : s'.phase i = s.phase i) : inHand N rank s' i = inHand N rank s i := by
  rw [inHand, inHand, h]

omit [DecidableEq ι] [DecidableEq T] in
theorem inWait_of_phase (h : s'.phase i = s.phase i)
    (hlog : s'.log (N.source i) = s.log (N.source i)) :
    inWait N rank s' i = inWait N rank s i := by
  rw [inWait, inWait, readPos_of_phase h, hlog]

omit [DecidableEq ι] in
/-- Published messages wait. -/
theorem inWait_of_deliver {pubs : List (T × M)} (hread : readPos s' i = readPos s i)
    (hlog : s'.log = deliver s.log pubs) (hle : readPos s i ≤ (s.log (N.source i)).length) :
    inWait N rank s' i = inWait N rank s i + arriving N rank pubs i := by
  rw [arriving, inWait, inWait, hread, hlog, deliver, List.drop_append_of_le_length hle,
    List.map_append, List.map_map, Multiset.coe_add]
  rfl

omit [DecidableEq T] in
/-- What is left to do is one process, and the rest. -/
theorem workload_eq (hi : i ∈ Q) (s : NetState ι T M σ E R ε) : workload N Q rank s =
    inHand N rank s i + inWait N rank s i +
      ∑ j ∈ Q.erase i, (inHand N rank s j + inWait N rank s j) :=
  (Finset.add_sum_erase Q _ hi).symm

end

/-! ## Every step makes it less -/

variable [LT ρ] {rank : T → M → ρ} {Q : Finset ι}

omit [LT ρ] in
/-- An effect replaces the body in hand by what is left of it and the messages that it publishes. -/
theorem workload_performed
    (hpos : ∀ i ∈ Q, readPos s i ≤ (s.log (N.source i)).length) {i : ι} (hi : i ∈ Q) {o : Nat}
    {m : M} {tr : Trace E R} {e : E} {k : R e → Prog E R ε Unit} {r : R e} {w : σ}
    (hph : s.phase i = .running o m tr (.perform e k)) :
    workload N Q rank (N.performed s i o m tr e k r w) +
        {.working (rank (N.source i) m) (.perform e k)} =
      workload N Q rank s + ({.working (rank (N.source i) m) (k r)} +
        ∑ j ∈ Q, arriving N rank (N.published e) j) := by
  have hread : ∀ j, readPos (N.performed s i o m tr e k r w) j = readPos s j := by
    intro j
    by_cases hj : j = i
    · subst hj
      rw [readPos, readPos, performed_phase, Function.update_self, hph]
    · exact readPos_of_phase (by rw [performed_phase, Function.update_of_ne hj])
  have hwait : ∀ j ∈ Q, inWait N rank (N.performed s i o m tr e k r w) j =
      inWait N rank s j + arriving N rank (N.published e) j := fun j hj =>
    inWait_of_deliver (hread j) rfl (hpos j hj)
  have hhand : ∑ j ∈ Q.erase i, inHand N rank (N.performed s i o m tr e k r w) j =
      ∑ j ∈ Q.erase i, inHand N rank s j := by
    refine Finset.sum_congr rfl fun j hj => inHand_of_phase ?_
    rw [performed_phase, Function.update_of_ne (Finset.mem_erase.mp hj).1]
  have hafter : inHand N rank (N.performed s i o m tr e k r w) i =
      {.working (rank (N.source i) m) (k r)} :=
    inHand_of_running (by rw [performed_phase, Function.update_self])
  unfold workload
  rw [Finset.sum_add_distrib, Finset.sum_add_distrib, Finset.sum_congr rfl hwait,
    Finset.sum_add_distrib, ← Finset.add_sum_erase Q _ hi, hhand, hafter,
    ← Finset.add_sum_erase Q (inHand N rank s) hi, inHand_of_running hph]
  abel

theorem Labelled.cutExpand {C : Contract N} (hC : C.Ranked Q rank)
    (hpos : ∀ i ∈ Q, readPos s i ≤ (s.log (N.source i)).length) (hs : Reachable N s)
    {l : Label ι E R} (h : Labelled N s l s') {i : ι} (hi : i ∈ Q) (hl : l.proc? = some i)
    (hno : ∀ o, l ≠ .crash i o) :
    CutExpand Task.Below (workload N Q rank s') (workload N Q rank s) := by
  have hrest : (∀ t, s'.log t = s.log t) →
      ∑ j ∈ Q.erase i, (inHand N rank s' j + inWait N rank s' j) =
      ∑ j ∈ Q.erase i, (inHand N rank s j + inWait N rank s j) := by
    intro hlog
    refine Finset.sum_congr rfl fun j hj => ?_
    have hji : l.proc? ≠ some j := by
      rw [hl]
      exact fun h => (Finset.mem_erase.mp hj).1 (Option.some.inj h).symm
    rw [inHand_of_phase (h.of_other hji).1, inWait_of_phase (h.of_other hji).1 (hlog _)]
  cases h with
  | env _ => cases hl
  | @read j n m hph hm =>
    obtain rfl : j = i := by simpa [Label.proc?] using hl
    rw [workload_eq hi, workload_eq hi, hrest fun _ => rfl]
    refine (cutExpand_add_right _).mpr ?_
    have hfirst : inWait N rank s j = {.waiting (rank (N.source j) m)} + inWait N rank
        { s with phase := Function.update s.phase j (.running n m [] (N.handler j n m)) } j := by
      obtain ⟨hn, hget⟩ := List.getElem?_eq_some_iff.mp hm
      simp only [inWait, readPos, hph, Function.update_self]
      rw [List.drop_eq_getElem_cons hn, hget, List.map_cons, ← Multiset.cons_coe,
        Multiset.singleton_add]
    rw [hfirst, inHand_of_idle hph, inHand_of_running (Function.update_self _ _ _), zero_add]
    exact (cutExpand_add_right _).mpr (cutExpand_singleton_singleton .start)
  | @finish j o m tr hph =>
    obtain rfl : j = i := by simpa [Label.proc?] using hl
    rw [workload_eq hi, workload_eq hi, hrest fun _ => rfl]
    refine (cutExpand_add_right _).mpr ?_
    have hsame : inWait N rank { s with phase := Function.update s.phase j (.idle (o + 1)) } j =
        inWait N rank s j := by
      simp only [inWait, readPos, hph, Function.update_self]
    rw [hsame, inHand_of_running hph, inHand_of_idle (Function.update_self _ _ _)]
    exact (cutExpand_add_right _).mpr cutExpand_zero
  | @perform j o m tr e k r w hph hans =>
    obtain rfl : j = i := by simpa [Label.proc?] using hl
    refine ⟨_, _, fun t ht => ?_, workload_performed hpos hi hph⟩
    have hinv := C.inv_reachable hs
    obtain ⟨hm, -, -⟩ := hinv.running hph
    obtain ⟨hadm, hΦ⟩ := C.effect_reachable hs hph
    have hvalid := hinv.valid _ _ (List.mem_of_getElem? hm)
    rcases Multiset.mem_add.mp ht with ht | ht
    · rw [Multiset.mem_singleton.mp ht]
      exact .answer
    · obtain ⟨q, hq, ht⟩ := Multiset.mem_sum.mp ht
      obtain ⟨p, hp, rfl⟩ := List.mem_map.mp (Multiset.mem_coe.mp ht)
      obtain ⟨hp, htopic⟩ := List.mem_filter.mp hp
      have htopic : p.1 = N.source q := of_decide_eq_true htopic
      refine .rank ?_
      rw [← htopic]
      exact hC.smaller hi hvalid hadm hΦ p hp q hq htopic
  | crash _ => exact absurd rfl (by obtain rfl := Option.some.inj hl; exact hno _)

/-- The other processes leave the topics of `Q` alone. -/
theorem Labelled.log_of_outside {C : Contract N} (hC : C.Ranked Q rank) (hs : Reachable N s)
    {l : Label ι E R} (h : Labelled N s l s') (hl : ∀ i ∈ Q, l.proc? ≠ some i) (henv : l ≠ .env)
    {i : ι} (hi : i ∈ Q) : s'.log (N.source i) = s.log (N.source i) := by
  cases h with
  | env _ => exact absurd rfl henv
  | @perform j o m tr e k r w hph hans =>
    have hj : j ∉ Q := fun hj => hl j hj rfl
    obtain ⟨-, hΦ⟩ := C.effect_reachable hs hph
    have hnone : (N.published e).filter (fun p => decide (p.1 = N.source i)) = [] := by
      refine List.filter_eq_nil_iff.mpr fun p hp => ?_
      simpa using hC.outside hj hΦ p hp i hi
    simp [performed, deliver, hnone]
  | _ => rfl

omit [LT ρ] in
theorem Labelled.workload_of_other {l : Label ι E R} (h : Labelled N s l s')
    (hl : ∀ i ∈ Q, l.proc? ≠ some i) (hlog : ∀ i ∈ Q, s'.log (N.source i) = s.log (N.source i)) :
    workload N Q rank s' = workload N Q rank s := by
  refine Finset.sum_congr rfl fun i hi => ?_
  have hphase := (h.of_other (hl i hi)).1
  rw [inHand_of_phase hphase, inWait_of_phase hphase (hlog i hi)]

/-! ## Infinite runs -/

/-- What goes down in some steps and stays in the others goes down only finitely often. -/
theorem exists_forall_ge_not {α : Type} {r : α → α → Prop} (hr : WellFounded r) {f : Nat → α}
    {p : Nat → Prop} (hdown : ∀ k, p k → r (f (k + 1)) (f k))
    (hsame : ∀ k, ¬ p k → f (k + 1) = f k) : ∃ K, ∀ k ≥ K, ¬ p k := by
  classical
  have hfrom : ∀ a k, f k = a → ∃ K, ∀ k ≥ K, ¬ p k := by
    intro a
    induction a using hr.induction with
    | h a ih =>
      rintro k rfl
      by_cases hex : ∃ d, p (k + d)
      · -- up to the first step that goes down, nothing changes
        have hfirst := Nat.find_spec hex
        have hconst : ∀ d ≤ Nat.find hex, f (k + d) = f k := by
          intro d
          induction d with
          | zero => exact fun _ => rfl
          | succ d ihd =>
            intro hd
            rw [← ihd (Nat.le_of_succ_le hd)]
            exact hsame _ (Nat.find_min hex hd)
        refine ih _ ?_ (k + Nat.find hex + 1) rfl
        rw [← hconst _ (Nat.le_refl _)]
        exact hdown _ hfirst
      · refine ⟨k, fun j hj hp => hex ⟨j - k, ?_⟩⟩
        rwa [Nat.add_sub_cancel' hj]
  exact hfrom _ 0 rfl

omit [LT ρ] in
theorem reachable_run {run : Nat → NetState ι T M σ E R ε} {label : Nat → Label ι E R}
    (hstart : Reachable N (run 0))
    (hstep : ∀ k, Labelled N (run k) (label k) (run (k + 1))) (k : Nat) : Reachable N (run k) := by
  induction k with
  | zero => exact hstart
  | succ k ih => exact ih.step (hstep k).step

/--
**The processes of `Q` come to rest.** In an infinite run in which nobody else puts messages on
their topics and none of them is stopped, they take finitely many steps.
-/
theorem exists_rest [WellFoundedLT ρ] {C D : Contract N} (hC : C.Ranked Q rank)
    (hc : ∀ i ∈ Q, D.CommitsOnce i) {run : Nat → NetState ι T M σ E R ε}
    {label : Nat → Label ι E R} (hstart : Reachable N (run 0))
    (hstep : ∀ k, Labelled N (run k) (label k) (run (k + 1)))
    (hquiet : ∀ k, label k = .env → ∀ i ∈ Q,
      (run (k + 1)).log (N.source i) = (run k).log (N.source i))
    (hno : ∀ k, ∀ i ∈ Q, ∀ o, label k ≠ .crash i o) :
    ∃ K, ∀ k ≥ K, ∀ i ∈ Q, (label k).proc? ≠ some i := by
  have hreach : ∀ k, Reachable N (run k) := reachable_run hstart hstep
  have hrest := exists_forall_ge_not (f := fun k => workload N Q rank (run k))
    (p := fun k => ∃ i ∈ Q, (label k).proc? = some i) Task.wellFounded_below.cutExpand ?_ ?_
  · obtain ⟨K, hK⟩ := hrest
    exact ⟨K, fun k hk i hi hl => hK k hk ⟨i, hi, hl⟩⟩
  · rintro k ⟨i, hi, hl⟩
    exact (hstep k).cutExpand hC (fun j hj => readPos_le D (hc j hj) (hreach k)) (hreach k) hi hl
      (hno k i hi)
  · intro k hk
    have hl : ∀ i ∈ Q, (label k).proc? ≠ some i := fun i hi hl => hk ⟨i, hi, hl⟩
    refine (hstep k).workload_of_other hl fun i hi => ?_
    by_cases henv : label k = .env
    · exact hquiet k henv i hi
    · exact (hstep k).log_of_outside hC (hreach k) hl henv hi

/-! ## At rest -/

omit [LT ρ] in
/-- A process that cannot go on has read its whole topic, or died in a body. -/
theorem idle_or_raised_of_stuck {i : ι} (htotal : ∀ w e, ∃ r w', N.answer w e r w')
    (hstuck : ∀ l s', Labelled N s l s' → l.proc? = some i → ∃ o, l = .crash i o) :
    (∃ n, s.phase i = .idle n ∧ (s.log (N.source i)).length ≤ n) ∨
      ∃ o m tr x, s.phase i = .running o m tr (.raise x) := by
  cases hph : s.phase i with
  | idle n =>
    refine Or.inl ⟨n, rfl, ?_⟩
    by_contra hlt
    have hget := List.getElem?_eq_getElem (Nat.lt_of_not_le hlt)
    obtain ⟨o, ho⟩ := hstuck _ _ (.read hph hget) rfl
    cases ho
  | running o m tr p =>
    cases p with
    | ret u =>
      obtain ⟨o', ho'⟩ := hstuck _ _ (.finish hph) rfl
      cases ho'
    | raise x => exact Or.inr ⟨o, m, tr, x, rfl⟩
    | perform e k =>
      obtain ⟨r, w, hans⟩ := htotal s.world e
      obtain ⟨o', ho'⟩ := hstuck _ _ (.perform hph hans) rfl
      cases ho'

omit [LT ρ] in
theorem stuck_of_idle {i : ι} {n : Nat} (hph : s.phase i = .idle n)
    (hn : (s.log (N.source i)).length ≤ n) {l : Label ι E R} (h : Labelled N s l s')
    (hl : l.proc? = some i) : ∃ o, l = .crash i o := by
  cases h with
  | env _ => cases hl
  | @read j n' m hph' hm =>
    obtain rfl := Option.some.inj hl
    rw [hph] at hph'
    cases hph'
    rw [List.getElem?_eq_none hn] at hm
    cases hm
  | perform hph' _ =>
    obtain rfl := Option.some.inj hl
    rw [hph] at hph'
    cases hph'
  | finish hph' =>
    obtain rfl := Option.some.inj hl
    rw [hph] at hph'
    cases hph'
  | crash _ =>
    obtain rfl := Option.some.inj hl
    exact ⟨_, rfl⟩

/-! ## Fair runs -/

/-- A process that can take a step which is no crash. -/
def Able (N : Network ι T M σ E R ε) (s : NetState ι T M σ E R ε) (i : ι) : Prop :=
  ∃ l s', Labelled N s l s' ∧ l.proc? = some i ∧ ∀ o, l ≠ .crash i o

/-- A process that stays able to take a step takes one. -/
def Fair (N : Network ι T M σ E R ε) (run : Nat → NetState ι T M σ E R ε)
    (label : Nat → Label ι E R) (i : ι) : Prop :=
  ∀ K, (∀ k ≥ K, Able N (run k) i) → ∃ k ≥ K, (label k).proc? = some i

omit [LT ρ] in
theorem stuck_of_not_able {i : ι} (h : ¬ Able N s i) {l : Label ι E R} (hl : Labelled N s l s')
    (hproc : l.proc? = some i) : ∃ o, l = .crash i o := by
  by_contra hno
  exact h ⟨l, s', hl, hproc, fun o ho => hno ⟨o, ho⟩⟩

omit [LT ρ] in
theorem Labelled.getElem?_log {l : Label ι E R} (h : Labelled N s l s') {t : T} {j : Nat} {m : M}
    (hm : (s.log t)[j]? = some m) : (s'.log t)[j]? = some m := by
  cases h with
  | env _ => exact getElem?_deliver hm
  | perform _ _ => exact getElem?_deliver hm
  | _ => exact hm

omit [LT ρ] in
theorem able_of_idle {i : ι} {n : Nat} {m : M} (hph : s.phase i = .idle n)
    (hm : (s.log (N.source i))[n]? = some m) : Able N s i :=
  ⟨_, _, .read hph hm, rfl, nofun⟩

omit [LT ρ] in
theorem able_of_perform (htotal : ∀ w e, ∃ r w', N.answer w e r w') {i : ι} {o : Nat}
    {m : M} {tr : Trace E R} {e : E} {k : R e → Prog E R ε Unit}
    (hph : s.phase i = .running o m tr (.perform e k)) : Able N s i := by
  obtain ⟨r, w, hans⟩ := htotal s.world e
  exact ⟨_, _, .perform hph hans, rfl, nofun⟩

omit [LT ρ] in
theorem able_of_ret {i : ι} {o : Nat} {m : M} {tr : Trace E R}
    (hph : s.phase i = .running o m tr (.ret ())) : Able N s i :=
  ⟨_, _, .finish hph, rfl, nofun⟩

omit [LT ρ] in
/-- What others do does not stop a process. -/
theorem Able.of_other {i : ι} (htotal : ∀ w e, ∃ r w', N.answer w e r w') (h : Able N s i)
    {l : Label ι E R} (hl : Labelled N s l s') (hother : l.proc? ≠ some i) : Able N s' i := by
  obtain ⟨hphase, -⟩ := hl.of_other hother
  obtain ⟨l', s'', hl', hproc, hno⟩ := h
  cases hl' with
  | env _ => cases hproc
  | read hph hm =>
    obtain rfl := Option.some.inj hproc
    exact able_of_idle (hphase.trans hph) (hl.getElem?_log hm)
  | perform hph _ =>
    obtain rfl := Option.some.inj hproc
    exact able_of_perform htotal (hphase.trans hph)
  | finish hph =>
    obtain rfl := Option.some.inj hproc
    exact able_of_ret (hphase.trans hph)
  | crash _ =>
    obtain rfl := Option.some.inj hproc
    exact absurd rfl (hno _)

omit [LT ρ] in
/-- A process that can go on goes on at some time, from the phase in which it is. -/
theorem exists_move (htotal : ∀ w e, ∃ r w', N.answer w e r w')
    {run : Nat → NetState ι T M σ E R ε} {label : Nat → Label ι E R}
    (hstep : ∀ k, Labelled N (run k) (label k) (run (k + 1))) {i : ι}
    (hfair : Fair N run label i) {k : Nat} (hable : Able N (run k) i) :
    ∃ k' ≥ k, (label k').proc? = some i ∧ (run k').phase i = (run k).phase i := by
  classical
  have hmoves : ∃ d, (label (k + d)).proc? = some i := by
    by_contra hnone
    have hnone : ∀ d, (label (k + d)).proc? ≠ some i := fun d hd => hnone ⟨d, hd⟩
    -- nobody else stops the process, so it stays able, and then it moves
    have hstays : ∀ d, Able N (run (k + d)) i := by
      intro d
      induction d with
      | zero => exact hable
      | succ d ih => exact ih.of_other htotal (hstep _) (hnone d)
    obtain ⟨k', hk', hmove⟩ := hfair k fun j hj => by
      rw [← Nat.add_sub_cancel' hj]
      exact hstays _
    refine hnone (k' - k) ?_
    rwa [Nat.add_sub_cancel' hk']
  refine ⟨k + Nat.find hmoves, Nat.le_add_right _ _, Nat.find_spec hmoves, ?_⟩
  -- up to its first move, the others leave its phase alone
  have hsame : ∀ d ≤ Nat.find hmoves, (run (k + d)).phase i = (run k).phase i := by
    intro d
    induction d with
    | zero => exact fun _ => rfl
    | succ d ih =>
      intro hd
      rw [← ih (Nat.le_of_succ_le hd)]
      exact ((hstep _).of_other (Nat.find_min hmoves hd)).1
  exact hsame _ (Nat.le_refl _)

/-- **In a fair run, processes that come to rest have nothing more to do.** -/
theorem exists_unable [WellFoundedLT ρ] {C D : Contract N} (hC : C.Ranked Q rank)
    (hc : ∀ i ∈ Q, D.CommitsOnce i) (htotal : ∀ w e, ∃ r w', N.answer w e r w')
    {run : Nat → NetState ι T M σ E R ε} {label : Nat → Label ι E R} (hstart : Reachable N (run 0))
    (hstep : ∀ k, Labelled N (run k) (label k) (run (k + 1)))
    (hquiet : ∀ k, label k = .env → ∀ i ∈ Q,
      (run (k + 1)).log (N.source i) = (run k).log (N.source i))
    (hno : ∀ k, ∀ i ∈ Q, ∀ o, label k ≠ .crash i o) (hfair : ∀ i ∈ Q, Fair N run label i) :
    ∃ K, ∀ k ≥ K, ∀ i ∈ Q, ¬ Able N (run k) i := by
  obtain ⟨K, hK⟩ := exists_rest hC hc hstart hstep hquiet hno
  refine ⟨K, fun k hk i hi hable => ?_⟩
  obtain ⟨k', hk', hmoves, -⟩ := exists_move htotal hstep (hfair i hi) hable
  exact hK k' (by omega) i hi hmoves

end Infra.Network
