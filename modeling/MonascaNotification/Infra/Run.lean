import Mathlib.Data.List.Count
import Mathlib.Data.List.Induction
import MonascaNotification.Infra.Relay

/-!
# Runs, step by step

A reachable state forgets at which offset an effect was performed and how often a process was
stopped. A `Run` keeps both: it is the list of the steps, each with its process and its offset.

For a process that commits each message once in its loop body:

* its offsets never go back, crashes or not (`Run.pairwise_le`)
* its committed steps are on the messages of its topic, one for each and in their order
  (`map_offset_steps`, `map_msg_steps`)
* it reads a message at most once more than it crashed on it (`Run.reads_le`), so whatever one body
  does at most `b` times is done at most `b` times for each of these reads (`Run.effects_le`)
-/

namespace Infra.Network

open Prog

variable {ι T M σ E : Type} {R : E → Type} {ε : Type}

/-- A step. A crash has the offset at which its process starts again. -/
inductive Label (ι E : Type) (R : E → Type) where
  | env
  | read (i : ι) (o : Nat)
  | effect (i : ι) (o : Nat) (ev : Event E R)
  | finish (i : ι) (o : Nat)
  | crash (i : ι) (o : Nat)

variable [DecidableEq ι] [DecidableEq T] {N : Network ι T M σ E R ε}
  {s s' : NetState ι T M σ E R ε}

inductive Labelled (N : Network ι T M σ E R ε) :
    NetState ι T M σ E R ε → Label ι E R → NetState ι T M σ E R ε → Prop where
  | env {s pubs w} : N.env s.world pubs w →
      Labelled N s .env { s with world := w, log := deliver s.log pubs }
  | read {s i n m} : s.phase i = .idle n → (s.log (N.source i))[n]? = some m →
      Labelled N s (.read i n)
        { s with phase := Function.update s.phase i (.running n m [] (N.handler i n m)) }
  | perform {s i o m tr e k r w} : s.phase i = .running o m tr (.perform e k) →
      N.answer s.world e r w → Labelled N s (.effect i o ⟨e, r⟩) (N.performed s i o m tr e k r w)
  | finish {s i o m tr} : s.phase i = .running o m tr (.ret ()) →
      Labelled N s (.finish i o) { s with phase := Function.update s.phase i (.idle (o + 1)) }
  | crash {s i} : N.mayCrash →
      Labelled N s (.crash i (s.committed i))
        { s with phase := Function.update s.phase i (.idle (s.committed i)) }

theorem Labelled.step {l : Label ι E R} (h : Labelled N s l s') : Step N s s' := by
  cases h with
  | env henv => exact .env henv
  | read hph hm => exact .read hph hm
  | perform hph hans => exact .perform hph hans
  | finish hph => exact .finish hph
  | crash hcrash => exact .crash hcrash

theorem Step.exists_label (h : Step N s s') : ∃ l, Labelled N s l s' := by
  cases h with
  | env henv => exact ⟨_, .env henv⟩
  | read hph hm => exact ⟨_, .read hph hm⟩
  | perform hph hans => exact ⟨_, .perform hph hans⟩
  | finish hph => exact ⟨_, .finish hph⟩
  | crash hcrash => exact ⟨_, .crash hcrash⟩

/-- The steps from an initial state to `s`, in their order. -/
inductive Run (N : Network ι T M σ E R ε) : List (Label ι E R) → NetState ι T M σ E R ε → Prop where
  | init {w} : N.init w → Run N [] (initial w)
  | step {ls s l s'} : Run N ls s → Labelled N s l s' → Run N (ls ++ [l]) s'

theorem Run.reachable {ls : List (Label ι E R)} (h : Run N ls s) : Reachable N s := by
  induction h with
  | init hw => exact .init hw
  | step _ hl ih => exact ih.step hl.step

theorem reachable_iff_exists_run : Reachable N s ↔ ∃ ls, Run N ls s := by
  constructor
  · intro h
    induction h with
    | init hw => exact ⟨[], .init hw⟩
    | step _ hst ih =>
      obtain ⟨ls, hrun⟩ := ih
      obtain ⟨l, hl⟩ := hst.exists_label
      exact ⟨_, hrun.step hl⟩
  · rintro ⟨ls, hrun⟩
    exact hrun.reachable

namespace Label

/-- The effect of a step, with its process. -/
def performed? : Label ι E R → Option (ι × Event E R)
  | .effect i _ ev => some (i, ev)
  | _ => none

/-- The process of a step. -/
def proc? : Label ι E R → Option ι
  | .env => none
  | .read i _ => some i
  | .effect i _ _ => some i
  | .finish i _ => some i
  | .crash i _ => some i

/-- The offset of a step of `c`. -/
def offset? (c : ι) : Label ι E R → Option Nat
  | .env => none
  | .read i o => if i = c then some o else none
  | .effect i o _ => if i = c then some o else none
  | .finish i o => if i = c then some o else none
  | .crash i o => if i = c then some o else none

def isRead (c : ι) (o : Nat) : Label ι E R → Bool
  | .read i o' => decide (i = c ∧ o' = o)
  | _ => false

def isCrash (c : ι) (o : Nat) : Label ι E R → Bool
  | .crash i o' => decide (i = c ∧ o' = o)
  | _ => false

/-- An effect of the class `κ` in the loop body of `c` for the message at `o`. -/
def isEffect (c : ι) (o : Nat) (κ : Event E R → Bool) : Label ι E R → Bool
  | .effect i o' ev => decide (i = c ∧ o' = o) && κ ev
  | _ => false

/-- A step of another process is none of these. -/
theorem of_other {c : ι} {l : Label ι E R} (h : l.proc? ≠ some c) :
    l.offset? c = none ∧ ∀ o, l.isRead c o = false ∧ l.isCrash c o = false ∧
      ∀ κ, l.isEffect c o κ = false := by
  cases l with
  | env => exact ⟨rfl, fun _ => ⟨rfl, rfl, fun _ => rfl⟩⟩
  | _ =>
    simp only [proc?, ne_eq, Option.some.injEq] at h
    simp [offset?, isRead, isCrash, isEffect, h]

end Label

/-- A step of another process leaves `c` where it is. -/
theorem Labelled.of_other {c : ι} {l : Label ι E R} (h : Labelled N s l s')
    (hl : l.proc? ≠ some c) : s'.phase c = s.phase c ∧ s'.committed c = s.committed c := by
  cases h with
  | env _ => exact ⟨rfl, rfl⟩
  | @perform i o m tr e k r w _ _ =>
    have hi : i ≠ c := fun hi => hl (congrArg some hi)
    refine ⟨?_, performed_committed_of_not N s fun hic => hi hic.1⟩
    rw [performed_phase, Function.update_of_ne (Ne.symm hi)]
  | _ =>
    have hi : _ ≠ c := fun hi => hl (congrArg some hi)
    exact ⟨Function.update_of_ne (Ne.symm hi) _ _, rfl⟩

/-- The history is the list of the effects. -/
theorem Run.history {ls : List (Label ι E R)} (h : Run N ls s) :
    s.history = ls.filterMap Label.performed? := by
  induction h with
  | init _ => rfl
  | step _ hl ih =>
    rw [List.filterMap_append, ← ih]
    cases hl with
    | perform _ _ => rfl
    | _ => exact (List.append_nil _).symm

omit [DecidableEq ι] in
/-- Effects of the history, in their order, are effects of steps in this order. -/
theorem exists_sublist_of_history {xs : List (ι × Event E R)} {ls : List (Label ι E R)}
    (h : xs.Sublist (ls.filterMap Label.performed?)) : ∃ ls', ls'.Sublist ls ∧
      List.Forall₂ (fun x l => ∃ o, l = .effect x.1 o x.2) xs ls' := by
  induction ls generalizing xs with
  | nil =>
    obtain rfl : xs = [] := by simpa using h
    exact ⟨[], List.Sublist.refl _, .nil⟩
  | cons l ls ih =>
    cases l with
    | effect i o ev =>
      cases h with
      | cons _ h =>
        obtain ⟨ls', hsub, hall⟩ := ih h
        exact ⟨ls', hsub.cons _, hall⟩
      | cons_cons _ h =>
        obtain ⟨ls', hsub, hall⟩ := ih h
        exact ⟨_ :: ls', hsub.cons_cons _, .cons ⟨o, rfl⟩ hall⟩
    | _ =>
      obtain ⟨ls', hsub, hall⟩ := ih h
      exact ⟨ls', hsub.cons _, hall⟩

/-! ## Inside a loop body -/

/-- The state in which process `i` has gone on along `tr` and has `q` left to do. -/
def during (N : Network ι T M σ E R ε) (s : NetState ι T M σ E R ε) (i : ι) (o : Nat) (m : M)
    (before tr : Trace E R) (q : Prog E R ε Unit) (w : σ) : NetState ι T M σ E R ε :=
  { N.after s i o m before tr w with
    phase := Function.update s.phase i (.running o m (before ++ tr) q) }

theorem during_nil {i : ι} {o : Nat} {m : M} {before : Trace E R} {q : Prog E R ε Unit}
    (hph : s.phase i = .running o m before q) : N.during s i o m before [] q s.world = s := by
  have hphase : Function.update s.phase i (.running o m before q) = s.phase := by
    rw [← hph, Function.update_eq_self]
  simp [during, after, commitSteps, hphase]

theorem during_performed (i : ι) (o : Nat) (m : M) (before tr : Trace E R) (e : E)
    (k : R e → Prog E R ε Unit) (r : R e) (q : Prog E R ε Unit) (w₁ w : σ) :
    N.during (N.performed s i o m before e k r w₁) i o m (before ++ [⟨e, r⟩]) tr q w =
      N.during s i o m before (⟨e, r⟩ :: tr) q w := by
  unfold during
  rw [after_performed, performed_phase, Function.update_idem, List.append_assoc]
  rfl

/-- A process goes on with the body of its message. -/
theorem Run.go_on {ls : List (Label ι E R)} (h : Run N ls s) {i : ι} {o : Nat} {m : M}
    {before tr : Trace E R} {p q : Prog E R ε Unit} {w : σ}
    (hph : s.phase i = .running o m before p) (hreach : Reaches p tr q)
    (hans : Answers N s.world tr w) :
    Run N (ls ++ tr.map (.effect i o)) (N.during s i o m before tr q w) := by
  induction hreach generalizing ls s before with
  | refl p =>
    cases hans
    rw [during_nil hph, List.map_nil, List.append_nil]
    exact h
  | @step e k r tr q _ ih =>
    cases hans with
    | @cons _ _ _ w₁ _ _ hone hrest =>
      have hs := h.step (.perform hph hone)
      have hnext := ih hs (by rw [performed_phase, Function.update_self]) hrest
      rwa [during_performed, List.append_assoc, List.singleton_append] at hnext

/-- A process reads its next message and goes on with its body. -/
theorem Run.read_on {ls : List (Label ι E R)} (h : Run N ls s) {i : ι} {o : Nat} {m : M}
    {tr : Trace E R} {q : Prog E R ε Unit} {w : σ} (hph : s.phase i = .idle o)
    (hm : (s.log (N.source i))[o]? = some m) (hreach : Reaches (N.handler i o m) tr q)
    (hans : Answers N s.world tr w) :
    Run N (ls ++ .read i o :: tr.map (.effect i o)) (N.during s i o m [] tr q w) := by
  have hon := (h.step (.read hph hm)).go_on (Function.update_self _ _ _) hreach hans
  rw [List.append_assoc, List.singleton_append] at hon
  simpa only [during, after, Function.update_idem] using hon

/-- It crashes before it commits, and is before the same message again. -/
theorem Run.crash_body {ls : List (Label ι E R)} (h : Run N ls s) (hcrash : N.mayCrash) {i : ι}
    {o : Nat} {m : M} {tr : Trace E R} {q : Prog E R ε Unit} {w : σ} (hph : s.phase i = .idle o)
    (hcommitted : s.committed i = o) (hm : (s.log (N.source i))[o]? = some m)
    (hreach : Reaches (N.handler i o m) tr q) (hans : Answers N s.world tr w)
    (hno : (tr.any fun ev => N.commits ev.1) = false) :
    ∃ s', Run N (ls ++ .read i o :: (tr.map (.effect i o) ++ [.crash i o])) s' ∧ s'.world = w ∧
      s'.phase i = .idle o ∧ (s'.log (N.source i))[o]? = some m := by
  have hon := h.read_on hph hm hreach hans
  have hsame : (N.during s i o m [] tr q w).committed i = o := by
    simp [during, after, hno, hcommitted]
  have hstop := hon.step (.crash (i := i) hcrash)
  rw [hsame, List.append_assoc, List.cons_append] at hstop
  exact ⟨_, hstop, rfl, Function.update_self _ _ _, getElem?_deliver hm⟩

/-- It finishes the body, with a commit. -/
theorem Run.finish_body {ls : List (Label ι E R)} (h : Run N ls s) {i : ι} {o : Nat} {m : M}
    {tr : Trace E R} {w : σ} (hph : s.phase i = .idle o)
    (hm : (s.log (N.source i))[o]? = some m) (hruns : Runs (N.handler i o m) tr (.ok ()))
    (hans : Answers N s.world tr w) (hcommits : (tr.any fun ev => N.commits ev.1) = true) :
    ∃ s', Run N (ls ++ .read i o :: (tr.map (.effect i o) ++ [.finish i o])) s' ∧
      s'.committed i = o + 1 := by
  rw [← List.append_nil tr] at hruns
  obtain ⟨q, hreach, hq⟩ := Runs.exists_reaches hruns
  obtain rfl : q = .ret () := by
    cases q with
    | ret u => rfl
    | raise x => cases hq.2
    | perform e k =>
      obtain ⟨_, _, hnil, -⟩ := hq
      cases hnil
  have hend := (h.read_on hph hm hreach hans).step (.finish (Function.update_self _ _ _))
  rw [List.append_assoc, List.cons_append] at hend
  refine ⟨_, hend, ?_⟩
  simp [during, after, hcommits]

namespace Label

variable {i : ι} {o : Nat} (tr : Trace E R)

theorem countP_isEffect_map (κ : Event E R → Bool) :
    (tr.map (Label.effect i o)).countP (isEffect i o κ) = tr.countP κ := by
  rw [List.countP_map]
  exact List.countP_congr fun ev _ => by simp [isEffect]

theorem countP_isCrash_map (c : ι) (o' : Nat) :
    (tr.map (Label.effect i o)).countP (isCrash c o') = 0 := by
  rw [List.countP_map]
  exact List.countP_eq_zero.mpr fun ev _ => by simp [isCrash]

end Label

/-! ## Offsets never go back -/

/-- The offset that a process is at. -/
def position (s : NetState ι T M σ E R ε) (i : ι) : Nat :=
  match s.phase i with
  | .idle n => n
  | .running o _ _ _ => o

omit [DecidableEq ι] [DecidableEq T] in
theorem position_of_idle {i : ι} {n : Nat} (h : s.phase i = .idle n) : position s i = n := by
  simp [position, h]

omit [DecidableEq ι] [DecidableEq T] in
theorem position_of_running {i : ι} {o : Nat} {m : M} {tr : Trace E R} {p : Prog E R ε Unit}
    (h : s.phase i = .running o m tr p) : position s i = o := by
  simp [position, h]

omit [DecidableEq ι] [DecidableEq T] in
theorem Cursor.position_le {c : ι} (h : Cursor N s c) : position s c ≤ s.committed c := by
  cases hph : s.phase c with
  | idle n =>
    rw [position_of_idle hph]
    exact Nat.le_of_eq (h.idle hph)
  | running o m tr p =>
    rw [position_of_running hph]
    by_cases hev : ∃ ev ∈ tr, N.commits ev.1 = true
    · rw [h.after hph hev]
      exact Nat.le_succ o
    · have hno : ∀ ev ∈ tr, N.commits ev.1 = false :=
        fun ev hmem => Bool.eq_false_iff.mpr fun hcommit => hev ⟨ev, hmem, hcommit⟩
      exact Nat.le_of_eq (h.before hph hno).symm

/-- A step of `c` is at the offset of `c` or behind it, and leaves `c` no further back. -/
theorem Labelled.position_le (C : Contract N) {c : ι} (hc : C.CommitsOnce c) {l : Label ι E R}
    (hs : Reachable N s) (hl : Labelled N s l s') :
    position s c ≤ position s' c ∧
      ∀ o, l.offset? c = some o → position s c ≤ o ∧ o ≤ position s' c := by
  by_cases hproc : l.proc? = some c
  · cases hl with
    | env _ => cases hproc
    | @read i n m hph hm =>
      obtain rfl : i = c := by simpa [Label.proc?] using hproc
      have hafter : position { s with
          phase := Function.update s.phase i (.running n m [] (N.handler i n m)) } i = n :=
        position_of_running (Function.update_self _ _ _)
      rw [position_of_idle hph, hafter]
      exact ⟨Nat.le_refl _, by simp [Label.offset?]⟩
    | @perform i o m tr e k r w hph hans =>
      obtain rfl : i = c := by simpa [Label.proc?] using hproc
      have hafter : position (N.performed s i o m tr e k r w) i = o :=
        position_of_running (by rw [performed_phase, Function.update_self])
      rw [position_of_running hph, hafter]
      exact ⟨Nat.le_refl _, by simp [Label.offset?]⟩
    | @finish i o m tr hph =>
      obtain rfl : i = c := by simpa [Label.proc?] using hproc
      have hafter : position { s with phase := Function.update s.phase i (.idle (o + 1)) } i =
          o + 1 := position_of_idle (Function.update_self _ _ _)
      rw [position_of_running hph, hafter]
      exact ⟨Nat.le_succ _, by simp [Label.offset?]⟩
    | @crash i _ =>
      obtain rfl : i = c := by simpa [Label.proc?] using hproc
      have hafter : position { s with
          phase := Function.update s.phase i (.idle (s.committed i)) } i = s.committed i :=
        position_of_idle (Function.update_self _ _ _)
      have hle := (cursor_reachable C hc hs).position_le
      rw [hafter]
      exact ⟨hle, by simp [Label.offset?, hle]⟩
  · have hpos : position s' c = position s c := by
      simp only [position, (hl.of_other hproc).1]
    rw [hpos, (Label.of_other hproc).1]
    exact ⟨Nat.le_refl _, by simp⟩

/-- **A process never goes back.** The offsets of its steps do not decrease, crashes or not. -/
theorem Run.pairwise_le (C : Contract N) {c : ι} (hc : C.CommitsOnce c) {ls : List (Label ι E R)}
    (h : Run N ls s) : (ls.filterMap (Label.offset? c)).Pairwise (· ≤ ·) ∧
      ∀ o ∈ ls.filterMap (Label.offset? c), o ≤ position s c := by
  induction h with
  | init _ => exact ⟨.nil, by simp⟩
  | @step ls s l s' hrun hl ih =>
    obtain ⟨hsorted, hbelow⟩ := ih
    obtain ⟨hmono, hat⟩ := hl.position_le C hc hrun.reachable
    rw [List.filterMap_append]
    refine ⟨List.pairwise_append.mpr ⟨hsorted, ?_, ?_⟩, ?_⟩
    · cases ho : l.offset? c <;> simp [ho]
    · intro a ha b hb
      simp only [List.filterMap_cons, List.filterMap_nil] at hb
      cases ho : l.offset? c with
      | none => simp [ho] at hb
      | some o =>
        simp only [ho, List.mem_singleton] at hb
        subst hb
        exact Nat.le_trans (hbelow a ha) (hat b ho).1
    · intro a ha
      rcases List.mem_append.mp ha with ha | ha
      · exact Nat.le_trans (hbelow a ha) hmono
      · simp only [List.filterMap_cons, List.filterMap_nil] at ha
        cases ho : l.offset? c with
        | none => simp [ho] at ha
        | some o =>
          simp only [ho, List.mem_singleton] at ha
          subst ha
          exact (hat a ho).2

/-- An effect was performed on the message at its offset, as the contract says. -/
theorem Run.effect (C : Contract N) {ls : List (Label ι E R)} (h : Run N ls s) {i : ι} {o : Nat}
    {ev : Event E R} (hmem : .effect i o ev ∈ ls) : ∃ m tr, (s.log (N.source i))[o]? = some m ∧
      Trace.Admits C.A tr ∧ C.Φ i o m tr ev.1 := by
  induction h with
  | init _ => cases hmem
  | @step ls s l s' hrun hl ih =>
    have hlog : ∀ {t : T} {j : Nat} {m : M}, (s.log t)[j]? = some m →
        (s'.log t)[j]? = some m := by
      intro t j m hm
      cases hl with
      | env _ => exact getElem?_deliver hm
      | perform _ _ => exact getElem?_deliver hm
      | _ => exact hm
    rcases List.mem_append.mp hmem with hmem | hmem
    · obtain ⟨m, tr, hm, hrest⟩ := ih hmem
      exact ⟨m, tr, hlog hm, hrest⟩
    · rw [List.mem_singleton] at hmem
      subst hmem
      cases hl with
      | @perform _ _ m tr e k r w hph _ =>
        obtain ⟨hm, -, -⟩ := (C.inv_reachable hrun.reachable).running hph
        obtain ⟨hadm, hΦ⟩ := C.effect_reachable hrun.reachable hph
        exact ⟨m, tr, getElem?_deliver hm, hadm, hΦ⟩

/-- **Each message is committed once, and in its turn**, crashes or not. -/
theorem map_offset_steps (C : Contract N) {c : ι} (hc : C.CommitsOnce c) (h : Reachable N s) :
    (s.steps.filter fun st => decide (st.proc = c)).map (·.offset) =
      List.range (s.committed c) := by
  induction h with
  | init _ => rfl
  | @step s _ hs hst ih =>
    cases hst with
    | @perform i o m tr e k r w hph hans =>
      by_cases hic : i = c ∧ N.commits e = true
      · obtain ⟨rfl, he⟩ := hic
        have hΦ := (C.effect_reachable hs hph).2
        have hcur : s.committed i = o := (cursor_reachable C hc hs).before hph (hc.once hΦ he)
        simp only [performed, he, if_true, Function.update_self, List.range_succ,
          List.filter_append, List.map_append]
        rw [ih, hcur]
        simp
      · rw [performed_committed_of_not N s hic, ← ih]
        by_cases he : N.commits e = true
        · have hi : i ≠ c := fun hi => hic ⟨hi, he⟩
          simp [performed, he, hi]
        · simp [performed, he]
    | _ => exact ih

/-- The messages of the committed steps are those of the topic up to the committed offset. -/
theorem map_msg_steps (C : Contract N) {c : ι} (hc : C.CommitsOnce c) (h : Reachable N s) :
    (s.steps.filter fun st => decide (st.proc = c)).map (·.msg) =
      (s.log (N.source c)).take (s.committed c) := by
  have hoffsets := map_offset_steps C hc h
  refine List.ext_getElem? fun k => ?_
  by_cases hk : k < s.committed c
  · have hoff : ((s.steps.filter fun st => decide (st.proc = c)).map (·.offset))[k]? = some k := by
      rw [hoffsets, List.getElem?_range hk]
    obtain ⟨st, hst, hst'⟩ := Option.map_eq_some_iff.mp (by rwa [List.getElem?_map] at hoff)
    have hmem := List.mem_filter.mp (List.mem_of_getElem? hst)
    obtain ⟨hlog, -⟩ := C.step_reachable h st hmem.1
    have hproc : st.proc = c := by simpa using hmem.2
    rw [hproc, hst'] at hlog
    rw [List.getElem?_map, hst, List.getElem?_take, if_pos hk, hlog]
    rfl
  · have hlen := congrArg List.length hoffsets
    rw [List.length_map, List.length_range] at hlen
    rw [List.getElem?_take, if_neg hk, List.getElem?_eq_none]
    rw [List.length_map, hlen]
    exact Nat.le_of_not_lt hk

/-! ## How often a message is read -/

/-- `c` is in the loop body of the message at `o`. -/
def isAt (s : NetState ι T M σ E R ε) (c : ι) (o : Nat) : Bool :=
  match s.phase c with
  | .idle _ => false
  | .running o' _ _ _ => decide (o' = o)

omit [DecidableEq ι] [DecidableEq T] in
theorem isAt_of_running {c : ι} {o o' : Nat} {m : M} {tr : Trace E R} {p : Prog E R ε Unit}
    (h : s.phase c = .running o m tr p) : isAt s c o' = decide (o = o') := by
  simp [isAt, h]

omit [DecidableEq ι] [DecidableEq T] in
theorem isAt_of_idle {c : ι} {n o' : Nat} (h : s.phase c = .idle n) : isAt s c o' = false := by
  simp [isAt, h]

omit [DecidableEq ι] [DecidableEq T] in
theorem Cursor.committed_le_succ {c : ι} (h : Cursor N s c) {o : Nat} {m : M} {tr : Trace E R}
    {p : Prog E R ε Unit} (hph : s.phase c = .running o m tr p) : s.committed c ≤ o + 1 := by
  by_cases hev : ∃ ev ∈ tr, N.commits ev.1 = true
  · exact Nat.le_of_eq (h.after hph hev)
  · have hno : ∀ ev ∈ tr, N.commits ev.1 = false :=
      fun ev hmem => Bool.eq_false_iff.mpr fun hcommit => hev ⟨ev, hmem, hcommit⟩
    rw [h.before hph hno]
    exact Nat.le_succ o

/--
**A message is read once, and once more for each crash on it.** As long as it is neither committed
nor in work, the one read that was not ended by a crash is still to come.
-/
theorem Run.reads_le (C : Contract N) {c : ι} (hc : C.CommitsOnce c) {ls : List (Label ι E R)}
    (h : Run N ls s) (o : Nat) :
    ls.countP (Label.isRead c o) ≤ ls.countP (Label.isCrash c o) + 1 ∧
      (isAt s c o = false → s.committed c ≤ o →
        ls.countP (Label.isRead c o) ≤ ls.countP (Label.isCrash c o)) := by
  induction h with
  | init _ => simp
  | @step ls s l s' hrun hl ih =>
    obtain ⟨hall, hwaiting⟩ := ih
    rw [List.countP_append, List.countP_append]
    have hcursor := cursor_reachable C hc hrun.reachable
    by_cases hproc : l.proc? = some c
    · cases hl with
      | env _ => cases hproc
      | @read i n m hph hm =>
        obtain rfl : i = c := by simpa [Label.proc?] using hproc
        have hn : n = s.committed i := hcursor.idle hph
        have hwaiting := hwaiting (isAt_of_idle hph)
        rw [isAt_of_running (Function.update_self _ _ _)]
        by_cases ho : n = o
        · have hle := hwaiting (by omega)
          simp [Label.isRead, Label.isCrash, ho]
          omega
        · simp only [List.countP_singleton, Label.isRead, Label.isCrash, ho, and_false,
            decide_false, Bool.false_eq_true, if_false, Nat.add_zero]
          exact ⟨hall, fun _ => hwaiting⟩
      | @perform i o' m tr e k r w hph hans =>
        obtain rfl : i = c := by simpa [Label.proc?] using hproc
        have hat : isAt (N.performed s i o' m tr e k r w) i o = isAt s i o := by
          rw [isAt_of_running hph,
            isAt_of_running (by rw [performed_phase, Function.update_self])]
        have hcom : s.committed i ≤ (N.performed s i o' m tr e k r w).committed i := by
          by_cases he : N.commits e = true
          · simpa [performed, he] using hcursor.committed_le_succ hph
          · simp [performed, he]
        simp only [List.countP_singleton, Label.isRead, Label.isCrash, Bool.false_eq_true,
          if_false, Nat.add_zero]
        refine ⟨hall, fun hno hle => hwaiting (hat ▸ hno) (Nat.le_trans hcom hle)⟩
      | @finish i o' m tr hph =>
        obtain rfl : i = c := by simpa [Label.proc?] using hproc
        have hcom : s.committed i = o' + 1 :=
          hcursor.after hph (hc.before_end (C.return_reachable hrun.reachable hph))
        simp only [List.countP_singleton, Label.isRead, Label.isCrash, Bool.false_eq_true,
          if_false, Nat.add_zero]
        refine ⟨hall, fun _ hle => hwaiting ?_ hle⟩
        have hle : s.committed i ≤ o := hle
        rw [isAt_of_running hph]
        exact decide_eq_false (by omega)
      | @crash i _ =>
        obtain rfl : i = c := by simpa [Label.proc?] using hproc
        by_cases ho : s.committed i = o
        · simp only [List.countP_singleton, Label.isRead, Label.isCrash, ho, and_self, decide_true,
            Bool.false_eq_true, if_false, if_true]
          exact ⟨by omega, fun _ _ => by omega⟩
        · simp only [List.countP_singleton, Label.isRead, Label.isCrash, ho, and_false,
            decide_false, Bool.false_eq_true, if_false, Nat.add_zero]
          refine ⟨hall, fun _ hle => hwaiting ?_ hle⟩
          have hle : s.committed i ≤ o := hle
          have hpos := hcursor.position_le
          cases hph : s.phase i with
          | idle n => exact isAt_of_idle hph
          | running o' m tr p =>
            rw [position_of_running hph] at hpos
            rw [isAt_of_running hph]
            exact decide_eq_false (by omega)
    · obtain ⟨hphase, hcom⟩ := hl.of_other hproc
      obtain ⟨-, hother⟩ := Label.of_other hproc
      have hat : isAt s' c o = isAt s c o := by simp only [isAt, hphase]
      rw [hat, hcom]
      simp only [List.countP_singleton, (hother o).1, (hother o).2.1, Bool.false_eq_true, if_false,
        Nat.add_zero]
      exact ⟨hall, hwaiting⟩

/-! ## How often the effects of a body are performed -/

section Effects

variable {κ : Event E R → Bool} {b : Nat} {c : ι} {ls : List (Label ι E R)}

/--
What one body of `c` does at most `b` times is done at most `b` times for each read of the message.
A body that is still in work may go on.
-/
theorem Run.effects_le_reads
    (hb : ∀ {s : NetState ι T M σ E R ε}, Reachable N s → ∀ {o m tr p},
      s.phase c = .running o m tr p → tr.countP κ ≤ b) (h : Run N ls s) (o : Nat) :
    ls.countP (Label.isEffect c o κ) ≤ b * ls.countP (Label.isRead c o) ∧
      ∀ {m tr p}, s.phase c = .running o m tr p →
        ls.countP (Label.isEffect c o κ) + b ≤
          b * ls.countP (Label.isRead c o) + tr.countP κ := by
  induction h with
  | init _ => simp [initial]
  | @step ls s l s' hrun hl ih =>
    obtain ⟨hall, hrunning⟩ := ih
    have hs' := (hrun.step hl).reachable
    rw [List.countP_append, List.countP_append]
    by_cases hproc : l.proc? = some c
    · cases hl with
      | env _ => cases hproc
      | @read i n m hph hm =>
        obtain rfl : i = c := by simpa [Label.proc?] using hproc
        by_cases ho : n = o
        · simp only [List.countP_singleton, Label.isRead, Label.isEffect, ho, and_self,
            decide_true, Bool.false_eq_true, if_false, if_true, Nat.add_zero, Nat.mul_add,
            Nat.mul_one]
          refine ⟨by omega, fun _ => by omega⟩
        · simp only [List.countP_singleton, Label.isRead, Label.isEffect, ho, and_false,
            decide_false, Bool.false_eq_true, if_false, Nat.add_zero]
          refine ⟨hall, fun hph' => ?_⟩
          rw [Function.update_self] at hph'
          cases hph'
          exact absurd rfl ho
      | @perform i o' m tr e k r w hph hans =>
        obtain rfl : i = c := by simpa [Label.proc?] using hproc
        have hph' : (N.performed s i o' m tr e k r w).phase i =
            .running o' m (tr ++ [⟨e, r⟩]) (k r) := by
          rw [performed_phase, Function.update_self]
        by_cases ho : o' = o
        · subst ho
          have hle := hrunning hph
          have hin := hb hs' hph'
          rw [List.countP_append, List.countP_singleton] at hin
          simp only [List.countP_singleton, Label.isRead, Label.isEffect, and_self, decide_true,
            Bool.true_and, Bool.false_eq_true, if_false, Nat.add_zero]
          refine ⟨by omega, fun hph'' => ?_⟩
          rw [hph'] at hph''
          cases hph''
          rw [List.countP_append, List.countP_singleton]
          omega
        · simp only [List.countP_singleton, Label.isRead, Label.isEffect, ho, and_false,
            decide_false, Bool.false_and, Bool.false_eq_true, if_false, Nat.add_zero]
          refine ⟨hall, fun hph'' => ?_⟩
          rw [hph'] at hph''
          cases hph''
          exact absurd rfl ho
      | @finish i o' m tr hph =>
        obtain rfl : i = c := by simpa [Label.proc?] using hproc
        simp only [List.countP_singleton, Label.isRead, Label.isEffect, Bool.false_eq_true,
          if_false, Nat.add_zero]
        refine ⟨hall, fun hph' => ?_⟩
        rw [Function.update_self] at hph'
        cases hph'
      | @crash i _ =>
        obtain rfl : i = c := by simpa [Label.proc?] using hproc
        simp only [List.countP_singleton, Label.isRead, Label.isEffect, Bool.false_eq_true,
          if_false, Nat.add_zero]
        refine ⟨hall, fun hph' => ?_⟩
        rw [Function.update_self] at hph'
        cases hph'
    · obtain ⟨hphase, -⟩ := hl.of_other hproc
      obtain ⟨-, hother⟩ := Label.of_other hproc
      rw [hphase]
      simp only [List.countP_singleton, (hother o).1, (hother o).2.2 κ, Bool.false_eq_true,
        if_false, Nat.add_zero]
      exact ⟨hall, hrunning⟩

omit [DecidableEq ι] [DecidableEq T] in
/-- An effect that is performed only when none of its class came before it comes at most once. -/
theorem countP_le_one {tr : Trace E R}
    (h : ∀ tr₁ ev tr₂, tr = tr₁ ++ ev :: tr₂ → κ ev = true → tr₁.countP κ = 0) :
    tr.countP κ ≤ 1 := by
  induction tr using List.reverseRecOn with
  | nil => exact Nat.zero_le _
  | append_singleton tr ev ih =>
    have hinit : tr.countP κ ≤ 1 := by
      refine ih fun tr₁ ev' tr₂ htr hev => h tr₁ ev' (tr₂ ++ [ev]) ?_ hev
      rw [htr, List.append_assoc, List.cons_append]
    rw [List.countP_append, List.countP_singleton]
    split
    · next hev =>
      exact Nat.le_of_eq (by rw [h tr ev [] rfl hev])
    · exact hinit

/-- In a body, as the contract says, an effect comes at most once. -/
theorem Contract.countP_running (C : Contract N)
    (honce : ∀ {o m tr e r}, C.Φ c o m tr e → Trace.Admits C.A tr → κ ⟨e, r⟩ = true →
      tr.countP κ = 0)
    (h : Reachable N s) {o : Nat} {m : M} {tr : Trace E R} {p : Prog E R ε Unit}
    (hph : s.phase c = .running o m tr p) : tr.countP κ ≤ 1 := by
  have hinv := C.inv_reachable h
  obtain ⟨hlog, hadm, hreach⟩ := hinv.running hph
  have hvalid := hinv.valid _ _ (List.mem_of_getElem? hlog)
  refine countP_le_one fun tr₁ ev tr₂ htr hev => ?_
  subst htr
  have hadm₁ : Trace.Admits C.A tr₁ := fun ev' hev' => hadm ev' (by simp [hev'])
  exact honce (C.handler_performs hvalid hadm₁ hreach.of_append) hadm₁ hev

/-- **Only crashes repeat.** One body's bound, once and once more for each crash on the message. -/
theorem Run.effects_le (C : Contract N) (hc : C.CommitsOnce c)
    (hb : ∀ {s : NetState ι T M σ E R ε}, Reachable N s → ∀ {o m tr p},
      s.phase c = .running o m tr p → tr.countP κ ≤ b) (h : Run N ls s) (o : Nat) :
    ls.countP (Label.isEffect c o κ) ≤ b * (ls.countP (Label.isCrash c o) + 1) :=
  Nat.le_trans (h.effects_le_reads hb o).1 (Nat.mul_le_mul_left b (h.reads_le C hc o).1)

end Effects

end Infra.Network
