import Mathlib.Algebra.BigOperators.Group.List.Basic
import Mathlib.Algebra.Ring.Nat
import MonascaNotification.Infra.Run

/-!
# Bodies, one after the other

In a run without crashes a process goes through its topic body by body. What it has performed is
then the traces of these bodies in their order, and of the one in work (`Serial`). Quantities that
add up along a trace (`Meter`) add up over the bodies, so a balance that holds for each body holds
for the whole run, as soon as no body is in work (`Serial.balance`).
-/

namespace Infra.Network

open Prog

variable {ι T M σ E : Type} {R : E → Type} {ε : Type}

/-! ## Quantities that add up -/

/-- A number for each trace that adds up when traces are joined. -/
structure Meter (E : Type) (R : E → Type) where
  of : Trace E R → Nat
  of_nil : of [] = 0
  of_append : ∀ tr₁ tr₂, of (tr₁ ++ tr₂) = of tr₁ + of tr₂

namespace Meter

attribute [simp] of_nil of_append

instance : Add (Meter E R) where
  add f g :=
    { of := fun tr => f.of tr + g.of tr
      of_nil := by simp
      of_append := fun tr₁ tr₂ => by simp only [of_append]; omega }

@[simp] theorem of_add (f g : Meter E R) (tr : Trace E R) : (f + g).of tr = f.of tr + g.of tr := rfl

/-- The number of events of a class. -/
def count (κ : Event E R → Bool) : Meter E R where
  of := fun tr => tr.countP κ
  of_nil := rfl
  of_append := fun _ _ => List.countP_append

@[simp] theorem of_count (κ : Event E R → Bool) (tr : Trace E R) : (count κ).of tr = tr.countP κ :=
  rfl

theorem of_flatten (f : Meter E R) (trs : List (Trace E R)) :
    f.of trs.flatten = (trs.map f.of).sum := by
  induction trs with
  | nil => simp
  | cons tr trs ih => simp [ih]

end Meter

/-! ## The bodies of a process -/

variable [DecidableEq ι] [DecidableEq T] {N : Network ι T M σ E R ε}
  {s s' : NetState ι T M σ E R ε} {i : ι} {done : List (Trace E R)}

/-- What a process has performed. -/
def eventsOf (s : NetState ι T M σ E R ε) (i : ι) : Trace E R :=
  (s.history.filter fun x => decide (x.1 = i)).map Prod.snd

/-- The traces of its committed steps. -/
def tracesOf (s : NetState ι T M σ E R ε) (i : ι) : List (Trace E R) :=
  (s.steps.filter fun st => decide (st.proc = i)).map (·.trace)

/-- The trace of the body in work, if any. -/
def inWork (s : NetState ι T M σ E R ε) (i : ι) : List (Trace E R) :=
  match s.phase i with
  | .idle _ => []
  | .running _ _ tr _ => [tr]

omit [DecidableEq ι] [DecidableEq T] in
theorem inWork_of_idle {n : Nat} (h : s.phase i = .idle n) : inWork s i = [] := by
  simp [inWork, h]

omit [DecidableEq ι] [DecidableEq T] in
theorem inWork_of_running {o : Nat} {m : M} {tr : Trace E R} {p : Prog E R ε Unit}
    (h : s.phase i = .running o m tr p) : inWork s i = [tr] := by
  simp [inWork, h]

/-- Whether a trace has a commit. -/
def hasCommit (N : Network ι T M σ E R ε) (tr : Trace E R) : Bool := tr.any fun ev => N.commits ev.1

/-- The part of a trace in front of its first commit. -/
def beforeCommit (N : Network ι T M σ E R ε) (tr : Trace E R) : Trace E R :=
  tr.takeWhile fun ev => !N.commits ev.1

omit [DecidableEq ι] [DecidableEq T] in
theorem beforeCommit_of_not {tr : Trace E R} (h : ∀ ev ∈ tr, N.commits ev.1 = false)
    {ev : Event E R} (hev : N.commits ev.1 = true) (rest : Trace E R) :
    N.beforeCommit (tr ++ ev :: rest) = tr := by
  rw [beforeCommit, List.takeWhile_append_of_pos fun ev hmem => by simp [h ev hmem]]
  simp [hev]

omit [DecidableEq ι] [DecidableEq T] in
theorem beforeCommit_append {tr : Trace E R} (h : N.hasCommit tr = true) (rest : Trace E R) :
    N.beforeCommit (tr ++ rest) = N.beforeCommit tr := by
  induction tr with
  | nil => cases h
  | cons ev tr ih =>
    unfold beforeCommit at ih ⊢
    rw [List.cons_append, List.takeWhile_cons, List.takeWhile_cons]
    by_cases hev : N.commits ev.1 = true
    · simp [hev]
    · have htail : N.hasCommit tr = true := by simpa [hasCommit, hev] using h
      simp [hev, ih htail]

/--
The process has finished the bodies with the traces `done`, one for each message up to its offset.
What it has performed and committed is in these and in the body in work.
-/
structure Serial (C : Contract N) (s : NetState ι T M σ E R ε) (i : ι)
    (done : List (Trace E R)) : Prop where
  position : position s i = done.length
  events : eventsOf s i = (done ++ inWork s i).flatten
  traces : tracesOf s i = ((done ++ inWork s i).filter N.hasCommit).map N.beforeCommit
  body : ∀ {k tr}, done[k]? = some tr → ∃ m, (s.log (N.source i))[k]? = some m ∧
    C.Valid (N.source i) m ∧ Trace.Admits C.A tr ∧ Runs (N.handler i k m) tr (.ok ())

/-- A step of another process adds nothing to what `i` has performed and committed. -/
theorem Labelled.eventsOf_of_other {l : Label ι E R} (h : Labelled N s l s')
    (hl : l.proc? ≠ some i) : eventsOf s' i = eventsOf s i ∧ tracesOf s' i = tracesOf s i := by
  cases h with
  | @perform j o m tr e k r w _ _ =>
    have hj : j ≠ i := fun hj => hl (congrArg some hj)
    refine ⟨by simp [eventsOf, performed, hj], ?_⟩
    by_cases he : N.commits e = true <;> simp [tracesOf, performed, he, hj]
  | _ => exact ⟨rfl, rfl⟩

theorem exists_serial (C : Contract N) (hc : C.CommitsOnce i) (hcrash : ¬ N.mayCrash)
    (h : Reachable N s) : ∃ done, Serial C s i done := by
  induction h with
  | init _ => exact ⟨[], rfl, rfl, rfl, by simp⟩
  | @step s s' hs hst ih =>
    obtain ⟨done, ih⟩ := ih
    obtain ⟨l, hl⟩ := hst.exists_label
    have hlog : ∀ {t : T} {k : Nat} {m : M}, (s.log t)[k]? = some m →
        (s'.log t)[k]? = some m := by
      intro t k m hm
      cases hst with
      | env _ => exact getElem?_deliver hm
      | perform _ _ => exact getElem?_deliver hm
      | _ => exact hm
    have hbody : ∀ {k tr}, done[k]? = some tr → ∃ m, (s'.log (N.source i))[k]? = some m ∧
        C.Valid (N.source i) m ∧ Trace.Admits C.A tr ∧ Runs (N.handler i k m) tr (.ok ()) := by
      intro k tr hk
      obtain ⟨m, hm, hrest⟩ := ih.body hk
      exact ⟨m, hlog hm, hrest⟩
    by_cases hproc : l.proc? = some i
    · cases hl with
      | env _ => cases hproc
      | @read j n m hph hm =>
        obtain rfl : j = i := by simpa [Label.proc?] using hproc
        have hpos := ih.position
        have hevents := ih.events
        have htraces := ih.traces
        rw [position_of_idle hph] at hpos
        rw [inWork_of_idle hph, List.append_nil] at hevents htraces
        refine ⟨done, ?_, ?_, ?_, hbody⟩
        · rw [position_of_running (Function.update_self _ _ _), hpos]
        · rw [inWork_of_running (Function.update_self _ _ _), List.flatten_append,
            List.flatten_singleton, List.append_nil]
          exact hevents
        · rw [inWork_of_running (Function.update_self _ _ _), List.filter_append]
          refine htraces.trans ?_
          simp [hasCommit]
      | @perform j o m tr e k r w hph hans =>
        obtain rfl : j = i := by simpa [Label.proc?] using hproc
        have hph' : (N.performed s j o m tr e k r w).phase j =
            .running o m (tr ++ [⟨e, r⟩]) (k r) := by
          rw [performed_phase, Function.update_self]
        have hpos := ih.position
        have hevents := ih.events
        have htraces := ih.traces
        rw [position_of_running hph] at hpos
        rw [inWork_of_running hph] at hevents htraces
        refine ⟨done, ?_, ?_, ?_, hbody⟩
        · rw [position_of_running hph', hpos]
        · rw [inWork_of_running hph']
          have hnew : eventsOf (N.performed s j o m tr e k r w) j = eventsOf s j ++ [⟨e, r⟩] := by
            simp [eventsOf, performed]
          rw [hnew, hevents]
          simp
        · rw [inWork_of_running hph', List.filter_append, List.map_append]
          rw [List.filter_append, List.map_append] at htraces
          by_cases he : N.commits e = true
          · have hno := hc.once (C.effect_reachable hs hph).2 he
            have hbefore : N.hasCommit tr = false := by simpa [hasCommit] using hno
            have hafter : N.hasCommit (tr ++ [⟨e, r⟩]) = true := by simp [hasCommit, he]
            rw [List.filter_cons_of_neg (by simp [hbefore]), List.filter_nil, List.map_nil,
              List.append_nil] at htraces
            rw [List.filter_cons_of_pos hafter, List.filter_nil, List.map_singleton,
              beforeCommit_of_not hno he, ← htraces]
            simp [tracesOf, performed, he]
          · have hsame : N.hasCommit (tr ++ [⟨e, r⟩]) = N.hasCommit tr := by simp [hasCommit, he]
            have hold : tracesOf (N.performed s j o m tr e k r w) j = tracesOf s j := by
              simp [tracesOf, performed, he]
            rw [hold, htraces]
            congr 1
            by_cases htr : N.hasCommit tr = true
            · rw [List.filter_cons_of_pos htr, List.filter_cons_of_pos (hsame.trans htr)]
              simp [beforeCommit_append htr]
            · rw [List.filter_cons_of_neg htr, List.filter_cons_of_neg (by rwa [hsame])]
      | @finish j o m tr hph =>
        obtain rfl : j = i := by simpa [Label.proc?] using hproc
        have hpos := ih.position
        have hevents := ih.events
        have htraces := ih.traces
        rw [position_of_running hph] at hpos
        rw [inWork_of_running hph] at hevents htraces
        refine ⟨done ++ [tr], ?_, ?_, ?_, ?_⟩
        · rw [position_of_idle (Function.update_self _ _ _), hpos, List.length_append,
            List.length_singleton]
        · rw [inWork_of_idle (Function.update_self _ _ _), List.append_nil]
          exact hevents
        · rw [inWork_of_idle (Function.update_self _ _ _), List.append_nil]
          exact htraces
        · intro k tr' hk
          rcases Nat.lt_or_ge k done.length with hlt | hge
          · rw [List.getElem?_append_left hlt] at hk
            exact hbody hk
          · rw [List.getElem?_append_right hge] at hk
            obtain ⟨hk0, htr⟩ := List.getElem?_eq_some_iff.mp hk
            have hinv := C.inv_reachable hs
            obtain ⟨hm, hadm, hreach⟩ := hinv.running hph
            have hko : k = o := by
              rw [List.length_singleton] at hk0
              omega
            subst hko
            have htr : tr = tr' := by simpa using htr
            subst htr
            exact ⟨m, hm, hinv.valid _ _ (List.mem_of_getElem? hm), hadm,
              by simpa using hreach.runs ⟨rfl, rfl⟩⟩
      | crash hc => exact absurd hc hcrash
    · obtain ⟨hphase, -⟩ := hl.of_other hproc
      obtain ⟨hev, htr⟩ := hl.eventsOf_of_other hproc
      have hpos : position s' i = position s i := by simp only [position, hphase]
      have hwork : inWork s' i = inWork s i := by simp only [inWork, hphase]
      exact ⟨done, by rw [hpos, ih.position], by rw [hev, hwork, ih.events],
        by rw [htr, hwork, ih.traces], hbody⟩

namespace Serial

variable {C : Contract N} {n : Nat}

omit [DecidableEq T]

/-- When no body is in work, what was performed is the finished bodies. -/
theorem events_of_idle (h : Serial C s i done) (hph : s.phase i = .idle n) :
    eventsOf s i = done.flatten := by
  rw [h.events, inWork_of_idle hph, List.append_nil]

theorem length_of_idle (h : Serial C s i done) (hph : s.phase i = .idle n) : done.length = n := by
  rw [← h.position, position_of_idle hph]

/-- When no body is in work, the committed steps are the finished bodies up to their commits. -/
theorem traces_of_idle (h : Serial C s i done) (hc : C.CommitsOnce i)
    (hph : s.phase i = .idle n) : tracesOf s i = done.map N.beforeCommit := by
  rw [h.traces, inWork_of_idle hph, List.append_nil, List.filter_eq_self.mpr]
  intro tr htr
  obtain ⟨k, hk⟩ := List.mem_iff_getElem?.mp htr
  obtain ⟨m, -, hvalid, hadm, hrun⟩ := h.body hk
  obtain ⟨ev, hev, hcom⟩ := hc.before_end (C.handler_returns hvalid hadm hrun)
  exact List.any_eq_true.mpr ⟨ev, hev, hcom⟩

/-- **A balance of every body is a balance of the run.** -/
theorem balance (h : Serial C s i done) (hph : s.phase i = .idle n) {f g : Meter E R}
    (hbody : ∀ {o m tr}, C.Valid (N.source i) m → Trace.Admits C.A tr →
      Runs (N.handler i o m) tr (.ok ()) → f.of tr = g.of tr) :
    f.of (eventsOf s i) = g.of (eventsOf s i) := by
  rw [h.events_of_idle hph, f.of_flatten, g.of_flatten]
  congr 1
  refine List.map_congr_left fun tr htr => ?_
  obtain ⟨k, hk⟩ := List.mem_iff_getElem?.mp htr
  obtain ⟨m, -, hvalid, hadm, hrun⟩ := h.body hk
  exact hbody hvalid hadm hrun

/-- What every body does once was done as often as messages were read. -/
theorem once_each (h : Serial C s i done) (hph : s.phase i = .idle n) {f : Meter E R}
    (hbody : ∀ {o m tr}, C.Valid (N.source i) m → Trace.Admits C.A tr →
      Runs (N.handler i o m) tr (.ok ()) → f.of tr = 1) :
    f.of (eventsOf s i) = n := by
  rw [h.events_of_idle hph, f.of_flatten, ← h.length_of_idle hph]
  have hone : done.map f.of = List.replicate done.length 1 := by
    refine List.eq_replicate_iff.mpr ⟨List.length_map _, fun k hk => ?_⟩
    obtain ⟨tr, htr, rfl⟩ := List.mem_map.mp hk
    obtain ⟨j, hj⟩ := List.mem_iff_getElem?.mp htr
    obtain ⟨m, -, hvalid, hadm, hrun⟩ := h.body hj
    exact hbody hvalid hadm hrun
  rw [hone, List.sum_replicate_nat, Nat.mul_one]

/-- Each body counts for `f`, or its committed step is of the class `q`. -/
theorem once_or_traced (h : Serial C s i done) (hc : C.CommitsOnce i) (hph : s.phase i = .idle n)
    {f : Meter E R} {q : Trace E R → Bool}
    (hbody : ∀ {o m tr}, C.Valid (N.source i) m → Trace.Admits C.A tr →
      Runs (N.handler i o m) tr (.ok ()) →
        f.of tr + [N.beforeCommit tr].countP q = 1) :
    f.of (eventsOf s i) + (tracesOf s i).countP q = n := by
  rw [h.events_of_idle hph, h.traces_of_idle hc hph, ← h.length_of_idle hph]
  have hall : ∀ tr ∈ done, f.of tr + [N.beforeCommit tr].countP q = 1 := by
    intro tr htr
    obtain ⟨j, hj⟩ := List.mem_iff_getElem?.mp htr
    obtain ⟨m, -, hvalid, hadm, hrun⟩ := h.body hj
    exact hbody hvalid hadm hrun
  clear h hbody
  induction done with
  | nil => simp
  | cons tr done ih =>
    have hrest := ih fun tr' htr' => hall tr' (List.mem_cons_of_mem _ htr')
    have hone := hall tr List.mem_cons_self
    rw [List.flatten_cons, f.of_append, List.map_cons, List.countP_cons, List.length_cons]
    rw [List.countP_singleton] at hone
    omega

end Serial

end Infra.Network
