import MonascaNotification.Infra.Network

/-!
# A consumer that passes its messages on

A process reads a topic and, for each message, either publishes a successor on the same topic
or records why there is none, before it commits. Whatever it once had to carry (`K`, for
example an identifier) is then never lost: it is on a message that is still uncommitted, or
some committed step settled it. Crashes between any two effects are allowed.

The order of publish and commit is what carries the proof: a successor is published while the
message itself is still uncommitted, so it lies behind the offset that the commit moves to.
-/

namespace Infra.Network

open Prog

variable {ι T M σ E : Type} {R : E → Type} {ε : Type} [DecidableEq ι] [DecidableEq T]
  {N : Network ι T M σ E R ε}

/-! ## The committed offset follows the reader -/

/-- Process `c` commits each message exactly once in its loop body. -/
structure Contract.CommitsOnce (C : Contract N) (c : ι) : Prop where
  once : ∀ {o m tr e}, C.Φ c o m tr e → N.commits e = true → ∀ ev ∈ tr, N.commits ev.1 = false
  before_end : ∀ {o m tr}, C.Q c o m tr → ∃ ev ∈ tr, N.commits ev.1 = true

/-- The committed offset of `c` is the offset of its message, or the one after its commit. -/
structure Cursor (N : Network ι T M σ E R ε) (s : NetState ι T M σ E R ε) (c : ι) : Prop where
  idle : ∀ {n}, s.phase c = .idle n → n = s.committed c
  before : ∀ {o m tr p}, s.phase c = .running o m tr p →
    (∀ ev ∈ tr, N.commits ev.1 = false) → s.committed c = o
  after : ∀ {o m tr p}, s.phase c = .running o m tr p →
    (∃ ev ∈ tr, N.commits ev.1 = true) → s.committed c = o + 1
  bound : s.committed c ≤ (s.log (N.source c)).length

theorem cursor_reachable (C : Contract N) {c : ι} (hc : C.CommitsOnce c)
    {s : NetState ι T M σ E R ε} (h : Reachable N s) : Cursor N s c := by
  induction h with
  | init _ => exact ⟨by simp [initial], by simp [initial], by simp [initial], by simp [initial]⟩
  | @step s _ hs hst ih =>
    cases hst with
    | env _ =>
      exact ⟨ih.idle, ih.before, ih.after, Nat.le_trans ih.bound (length_le_deliver _ _ _)⟩
    | @read i n m hph hm =>
      refine ⟨fun hj => ?_, fun hj _ => ?_, fun hj hev => ?_, ih.bound⟩
      · rcases update_cases hj with ⟨-, heq⟩ | ⟨-, hj⟩
        · cases heq
        · exact ih.idle hj
      · rcases update_cases hj with ⟨rfl, heq⟩ | ⟨-, hj⟩
        · cases heq
          exact (ih.idle hph).symm
        · exact ih.before hj ‹_›
      · rcases update_cases hj with ⟨-, heq⟩ | ⟨-, hj⟩
        · cases heq
          simp at hev
        · exact ih.after hj hev
    | @perform i o m tr e k r w hph hans =>
      have hlog : (s.log (N.source i))[o]? = some m := ((C.inv_reachable hs).running hph).1
      have hΦ := (C.effect_reachable hs hph).2
      by_cases hi : i = c
      · subst hi
        refine ⟨fun hj => ?_, fun hj hno => ?_, fun hj hev => ?_, ?_⟩
        · simp [performed_phase] at hj
        · rw [performed_phase, Function.update_self] at hj
          cases hj
          have he : N.commits e = false := hno ⟨e, r⟩ (by simp)
          simp only [performed, he, Bool.false_eq_true, if_false]
          exact ih.before hph fun ev hev => hno ev (by simp [hev])
        · rw [performed_phase, Function.update_self] at hj
          cases hj
          by_cases he : N.commits e = true
          · simp [performed, he]
          · simp only [performed, he, Bool.false_eq_true, if_false]
            obtain ⟨ev, hmem, hcom⟩ := hev
            rcases List.mem_append.mp hmem with hmem | hmem
            · exact ih.after hph ⟨ev, hmem, hcom⟩
            · rw [List.mem_singleton] at hmem
              subst hmem
              exact absurd hcom he
        · refine Nat.le_trans ?_ (length_le_deliver _ _ _)
          by_cases he : N.commits e = true
          · obtain ⟨ho, -⟩ := List.getElem?_eq_some_iff.mp hlog
            simp only [performed, he, if_true, Function.update_self]
            exact ho
          · simpa [performed, he] using ih.bound
      · have hcom : (N.performed s i o m tr e k r w).committed c = s.committed c :=
          performed_committed_of_not N s fun hic => hi hic.1
        have hpc : (N.performed s i o m tr e k r w).phase c = s.phase c := by
          rw [performed_phase, Function.update_of_ne (Ne.symm hi)]
        refine ⟨fun hj => ?_, fun hj hno => ?_, fun hj hev => ?_, ?_⟩
        · rw [hcom]; exact ih.idle (hpc ▸ hj)
        · rw [hcom]; exact ih.before (hpc ▸ hj) hno
        · rw [hcom]; exact ih.after (hpc ▸ hj) hev
        · rw [hcom]; exact Nat.le_trans ih.bound (length_le_deliver _ _ _)
    | @finish i o m tr hph =>
      refine ⟨fun hj => ?_, fun hj hno => ?_, fun hj hev => ?_, ih.bound⟩
      · rcases update_cases hj with ⟨rfl, heq⟩ | ⟨-, hj⟩
        · cases heq
          exact (ih.after hph (hc.before_end (C.return_reachable hs hph))).symm
        · exact ih.idle hj
      · rcases update_cases hj with ⟨-, heq⟩ | ⟨-, hj⟩
        · cases heq
        · exact ih.before hj hno
      · rcases update_cases hj with ⟨-, heq⟩ | ⟨-, hj⟩
        · cases heq
        · exact ih.after hj hev
    | @crash i _ =>
      refine ⟨fun hj => ?_, fun hj hno => ?_, fun hj hev => ?_, ih.bound⟩
      · rcases update_cases hj with ⟨rfl, heq⟩ | ⟨-, hj⟩
        · cases heq
          rfl
        · exact ih.idle hj
      · rcases update_cases hj with ⟨-, heq⟩ | ⟨-, hj⟩
        · cases heq
        · exact ih.before hj hno
      · rcases update_cases hj with ⟨-, heq⟩ | ⟨-, hj⟩
        · cases heq
        · exact ih.after hj hev

/-- What the body of a message has published on the topic it reads lies behind the message. -/
theorem published_behind (C : Contract N) {c : ι} {s : NetState ι T M σ E R ε}
    (h : Reachable N s) {o : Nat} {m : M} {tr : Trace E R} {p : Prog E R ε Unit}
    (hph : s.phase c = .running o m tr p) :
    ∀ ev ∈ tr, ∀ m', (N.source c, m') ∈ N.published ev.1 →
      ∃ j, o < j ∧ (s.log (N.source c))[j]? = some m' := by
  induction h generalizing o m tr p with
  | init _ => simp [initial] at hph
  | @step s _ hs hst ih =>
    cases hst with
    | env _ =>
      intro ev hev m' hm'
      obtain ⟨j, hj, hm⟩ := ih hph ev hev m' hm'
      exact ⟨j, hj, getElem?_deliver hm⟩
    | read _ _ =>
      rcases update_cases hph with ⟨-, heq⟩ | ⟨-, hph⟩
      · cases heq
        simp
      · exact ih hph
    | @perform i o' m' tr' e k r w hph' hans =>
      have hlog : (s.log (N.source i))[o']? = some m' := ((C.inv_reachable hs).running hph').1
      rw [performed_phase] at hph
      intro ev hev m'' hm''
      rcases update_cases hph with ⟨rfl, heq⟩ | ⟨-, hph⟩
      · cases heq
        rcases List.mem_append.mp hev with hev | hev
        · obtain ⟨j, hj, hm⟩ := ih hph' ev hev m'' hm''
          exact ⟨j, hj, getElem?_deliver hm⟩
        · rw [List.mem_singleton] at hev
          subst hev
          obtain ⟨j, hj, hm⟩ := exists_getElem?_deliver s.log hm''
          obtain ⟨ho, -⟩ := List.getElem?_eq_some_iff.mp hlog
          exact ⟨j, Nat.lt_of_lt_of_le ho hj, hm⟩
      · obtain ⟨j, hj, hm⟩ := ih hph ev hev m'' hm''
        exact ⟨j, hj, getElem?_deliver hm⟩
    | finish _ =>
      rcases update_cases hph with ⟨-, heq⟩ | ⟨-, hph⟩
      · cases heq
      · exact ih hph
    | crash _ =>
      rcases update_cases hph with ⟨-, heq⟩ | ⟨-, hph⟩
      · cases heq
      · exact ih hph

/-- Every offset that is committed was committed by a step on the message at that offset. -/
theorem exists_step_of_committed (C : Contract N) {c : ι} (hc : C.CommitsOnce c)
    {s : NetState ι T M σ E R ε} (h : Reachable N s) {o : Nat} (ho : o < s.committed c) :
    ∃ st ∈ s.steps, st.proc = c ∧ st.offset = o ∧ (s.log (N.source c))[o]? = some st.msg := by
  induction h with
  | init _ => simp [initial] at ho
  | @step s _ hs hst ih =>
    cases hst with
    | env _ =>
      obtain ⟨st, hst, hproc, hoff, hmsg⟩ := ih ho
      exact ⟨st, hst, hproc, hoff, getElem?_deliver hmsg⟩
    | read _ _ => exact ih ho
    | @perform i o' m tr e k r w hph hans =>
      have hold : o < s.committed c → ∃ st ∈ (N.performed s i o' m tr e k r w).steps,
          st.proc = c ∧ st.offset = o ∧
            ((N.performed s i o' m tr e k r w).log (N.source c))[o]? = some st.msg := by
        intro ho
        obtain ⟨st, hst, hproc, hoff, hmsg⟩ := ih ho
        refine ⟨st, ?_, hproc, hoff, getElem?_deliver hmsg⟩
        by_cases he : N.commits e = true <;> simp [performed, he, hst]
      by_cases hic : i = c ∧ N.commits e = true
      · obtain ⟨rfl, he⟩ := hic
        have hΦ := (C.effect_reachable hs hph).2
        have hcur : s.committed i = o' := (cursor_reachable C hc hs).before hph (hc.once hΦ he)
        simp only [performed, he, if_true, Function.update_self] at ho
        rcases Nat.lt_succ_iff_lt_or_eq.mp ho with hlt | rfl
        · exact hold (hcur ▸ hlt)
        · have hlog := ((C.inv_reachable hs).running hph).1
          exact ⟨⟨i, o, m, tr⟩, by simp [performed, he], rfl, rfl, getElem?_deliver hlog⟩
      · exact hold (performed_committed_of_not N s hic ▸ ho)
    | finish _ => exact ih ho
    | crash _ => exact ih ho

/-! ## Nothing carried is lost -/

variable {K : Type}

/--
`c` relays what its messages carry: before the commit of a message, each key it carries was
published again on the topic, or is settled by the body (`D`).
-/
structure Contract.Relays (C : Contract N) (c : ι) (carries : M → K → Prop)
    (D : K → M → Trace E R → Prop) : Prop extends C.CommitsOnce c where
  forwards : ∀ {o m tr e}, Trace.Admits C.A tr → C.Φ c o m tr e → N.commits e = true →
    ∀ key, carries m key → (∃ ev ∈ tr, ∃ m', (N.source c, m') ∈ N.published ev.1 ∧ carries m' key) ∨
      D key m tr

/-- An uncommitted message on the topic of `c` carries the key. -/
def Pending (N : Network ι T M σ E R ε) (s : NetState ι T M σ E R ε) (c : ι)
    (carries : M → K → Prop) (key : K) : Prop :=
  ∃ j m, s.committed c ≤ j ∧ (s.log (N.source c))[j]? = some m ∧ carries m key

/-- A committed step of `c`, on a message that carried the key, settled it. -/
def Settled (s : NetState ι T M σ E R ε) (c : ι) (carries : M → K → Prop)
    (D : K → M → Trace E R → Prop) (key : K) : Prop :=
  ∃ st ∈ s.steps, st.proc = c ∧ carries st.msg key ∧ D key st.msg st.trace

section Relay

variable {C : Contract N} {c : ι} {carries : M → K → Prop} {D : K → M → Trace E R → Prop}
  {s : NetState ι T M σ E R ε} {key : K}

omit [DecidableEq ι] [DecidableEq T] in
theorem Pending.of_log_growth {s' : NetState ι T M σ E R ε} (h : Pending N s c carries key)
    (hcom : s'.committed c = s.committed c)
    (hlog : ∀ {j : Nat} {m : M}, (s.log (N.source c))[j]? = some m →
      (s'.log (N.source c))[j]? = some m) : Pending N s' c carries key := by
  obtain ⟨j, m, hj, hm, hk⟩ := h
  exact ⟨j, m, hcom ▸ hj, hlog hm, hk⟩

omit [DecidableEq ι] [DecidableEq T] in
theorem Settled.mono {s' : NetState ι T M σ E R ε} (h : Settled s c carries D key)
    (hsub : ∀ st ∈ s.steps, st ∈ s'.steps) : Settled s' c carries D key := by
  obtain ⟨st, hst, hrest⟩ := h
  exact ⟨st, hsub st hst, hrest⟩

theorem steps_performed {i : ι} {o : Nat} {m : M} {tr : Trace E R} {e : E}
    {k : R e → Prog E R ε Unit} {r : R e} {w : σ} :
    ∀ st ∈ s.steps, st ∈ (N.performed s i o m tr e k r w).steps := by
  intro st hst
  by_cases he : N.commits e = true <;> simp [performed, he, hst]

/-- The step of `c` that commits keeps the keys of all messages pending or settles them. -/
theorem relay_commit (hrel : C.Relays c carries D) (hs : Reachable N s) {o : Nat} {m : M}
    {tr : Trace E R} {e : E} {k : R e → Prog E R ε Unit} {r : R e} {w : σ}
    (hph : s.phase c = .running o m tr (.perform e k)) (he : N.commits e = true)
    (h : Pending N s c carries key) :
    Pending N (N.performed s c o m tr e k r w) c carries key ∨
      Settled (N.performed s c o m tr e k r w) c carries D key := by
  have hlog : (s.log (N.source c))[o]? = some m := ((C.inv_reachable hs).running hph).1
  obtain ⟨hadm, hΦ⟩ := C.effect_reachable hs hph
  have hcur : s.committed c = o :=
    (cursor_reachable C hrel.toCommitsOnce hs).before hph (hrel.once hΦ he)
  have hcom : (N.performed s c o m tr e k r w).committed c = o + 1 := by simp [performed, he]
  obtain ⟨j, m', hj, hm', hk⟩ := h
  rw [hcur] at hj
  rcases Nat.eq_or_lt_of_le hj with rfl | hlt
  · -- the message that is being committed carried the key
    rw [hlog] at hm'
    cases hm'
    rcases hrel.forwards hadm hΦ he key hk with ⟨ev, hev, m₂, hpub, hk₂⟩ | hD
    · obtain ⟨j₂, hj₂, hm₂⟩ := published_behind C hs hph ev hev m₂ hpub
      exact Or.inl ⟨j₂, m₂, by rw [hcom]; exact hj₂, getElem?_deliver hm₂, hk₂⟩
    · exact Or.inr ⟨⟨c, o, m, tr⟩, by simp [performed, he], rfl, hk, hD⟩
  · exact Or.inl ⟨j, m', by rw [hcom]; exact hlt, getElem?_deliver hm', hk⟩

/--
**Nothing carried is lost.** In every reachable state, whatever a message on the topic of `c`
ever carried is carried by an uncommitted message or was settled by a committed step of `c`.
-/
theorem relay (hrel : C.Relays c carries D) (h : Reachable N s) :
    ∀ m ∈ s.log (N.source c), carries m key →
      Pending N s c carries key ∨ Settled s c carries D key := by
  induction h with
  | init _ => simp [initial]
  | @step s _ hs hst ih =>
    have hbound := (cursor_reachable C hrel.toCommitsOnce hs).bound
    cases hst with
    | env _ =>
      intro m hm hk
      rcases mem_deliver.mp hm with hm | hm
      · rcases ih m hm hk with hp | hd
        · exact Or.inl (hp.of_log_growth rfl getElem?_deliver)
        · exact Or.inr hd
      · obtain ⟨j, hj, hget⟩ := exists_getElem?_deliver s.log hm
        exact Or.inl ⟨j, m, Nat.le_trans hbound hj, hget, hk⟩
    | read _ _ => exact ih
    | @perform i o m tr e k r w hph hans =>
      have hold : ∀ m' ∈ s.log (N.source c), carries m' key →
          Pending N (N.performed s i o m tr e k r w) c carries key ∨
            Settled (N.performed s i o m tr e k r w) c carries D key := by
        intro m' hm' hk
        rcases ih m' hm' hk with hp | hd
        · by_cases hic : i = c ∧ N.commits e = true
          · obtain ⟨rfl, he⟩ := hic
            exact relay_commit hrel hs hph he hp
          · have hcom : (N.performed s i o m tr e k r w).committed c = s.committed c :=
              performed_committed_of_not N s hic
            exact Or.inl (hp.of_log_growth hcom getElem?_deliver)
        · exact Or.inr (hd.mono steps_performed)
      intro m' hm' hk
      rcases mem_deliver.mp hm' with hm' | hm'
      · exact hold m' hm' hk
      · by_cases hin : m' ∈ s.log (N.source c)
        · exact hold m' hin hk
        · -- a new message lies at the end of the log, behind every committed offset
          obtain ⟨j, hj, hget⟩ := exists_getElem?_deliver s.log hm'
          refine Or.inl ⟨j, m', Nat.le_trans ?_ hj, hget, hk⟩
          by_cases hic : i = c ∧ N.commits e = true
          · obtain ⟨rfl, he⟩ := hic
            have hlog := ((C.inv_reachable hs).running hph).1
            obtain ⟨ho, -⟩ := List.getElem?_eq_some_iff.mp hlog
            simp only [performed, he, if_true, Function.update_self]
            exact ho
          · rw [performed_committed_of_not N s hic]
            exact hbound
    | finish _ => exact ih
    | crash _ => exact ih

end Relay

end Infra.Network
