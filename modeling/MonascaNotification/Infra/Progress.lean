import MonascaNotification.Infra.Drain

/-!
# Every message gets its turn

`Drain` is about runs whose work runs out. Here messages may arrive for ever. A process reads its
topic in order and the body of each message ends, so in a fair run without more crashes of the
process every message is committed at some time, unless the process dies on it or before it
(`eventually_step`).

For a process that passes its messages on this has two consequences:

* what it passes on with a smaller rank each time is settled in the end (`eventually_settled`)
* what it passes on without a rank is settled, or comes back at ever higher offsets
  (`eventually_again`)

That a run is fair is no restriction on where it starts: there is one from every state
(`exists_fair`).
-/

namespace Infra.Network

open Prog

variable {ι T M σ E : Type} {R : E → Type} {ε : Type} [DecidableEq ι] [DecidableEq T]
  {N : Network ι T M σ E R ε} {s s' : NetState ι T M σ E R ε} {i : ι} {l : Label ι E R}

/-! ## Nothing is forgotten -/

theorem Labelled.mem_steps (h : Labelled N s l s') {st : CommittedStep ι M E R}
    (hst : st ∈ s.steps) : st ∈ s'.steps := by
  cases h with
  | perform _ _ => exact steps_performed st hst
  | _ => exact hst

theorem Labelled.mem_history (h : Labelled N s l s') {x : ι × Event E R} (hx : x ∈ s.history) :
    x ∈ s'.history := by
  cases h with
  | perform _ _ => exact List.mem_append_left _ hx
  | _ => exact hx

/-- What holds of each entry from some time on holds of all of them from some time on. -/
theorem exists_ge_forall_mem {α : Type} {p : α → Nat → Prop}
    (hmono : ∀ {a k k'}, k ≤ k' → p a k → p a k') {k : Nat} (as : List α)
    (h : ∀ a ∈ as, ∃ k' ≥ k, p a k') : ∃ k' ≥ k, ∀ a ∈ as, p a k' := by
  induction as with
  | nil => exact ⟨k, Nat.le_refl k, by simp⟩
  | cons a as ih =>
    obtain ⟨k₁, hk₁, hall⟩ := ih fun b hb => h b (List.mem_cons_of_mem _ hb)
    obtain ⟨k₂, hk₂, ha⟩ := h a List.mem_cons_self
    refine ⟨max k₁ k₂, Nat.le_trans hk₁ (Nat.le_max_left _ _), fun b hb => ?_⟩
    rcases List.mem_cons.mp hb with rfl | hb
    · exact hmono (Nat.le_max_right _ _) ha
    · exact hmono (Nat.le_max_left _ _) (hall b hb)

/-! ## Messages are committed -/

/-- What a step of `i` that is no crash does to its phase. -/
theorem Labelled.phase_cases (h : Labelled N s l s') (hl : l.proc? = some i)
    (hno : ∀ o, l ≠ .crash i o) :
    (∃ n m, s.phase i = .idle n ∧ (s.log (N.source i))[n]? = some m ∧
      s'.phase i = .running n m [] (N.handler i n m)) ∨
    (∃ o m tr e k r, s.phase i = .running o m tr (.perform e k) ∧
      s'.phase i = .running o m (tr ++ [⟨e, r⟩]) (k r)) ∨
    ∃ o m tr, s.phase i = .running o m tr (.ret ()) ∧ s'.phase i = .idle (o + 1) := by
  cases h with
  | env _ => cases hl
  | read hph hm =>
    obtain rfl := Option.some.inj hl
    exact Or.inl ⟨_, _, hph, hm, Function.update_self _ _ _⟩
  | perform hph _ =>
    obtain rfl := Option.some.inj hl
    exact Or.inr (Or.inl ⟨_, _, _, _, _, _, hph, by rw [performed_phase, Function.update_self]⟩)
  | finish hph =>
    obtain rfl := Option.some.inj hl
    exact Or.inr (Or.inr ⟨_, _, _, hph, Function.update_self _ _ _⟩)
  | crash _ =>
    obtain rfl := Option.some.inj hl
    exact absurd rfl (hno _)

/-- The process died in the body of a message, at an offset up to `o`. -/
def DiedBy (s : NetState ι T M σ E R ε) (i : ι) (o : Nat) : Prop :=
  ∃ o' m tr x, o' ≤ o ∧ s.phase i = .running o' m tr (.raise x)

section Fair

variable {run : Nat → NetState ι T M σ E R ε} {label : Nat → Label ι E R}

theorem getElem?_log_of_le (hstep : ∀ k, Labelled N (run k) (label k) (run (k + 1))) {k k' : Nat}
    (hk : k ≤ k') {t : T} {j : Nat} {m : M} (hm : ((run k).log t)[j]? = some m) :
    ((run k').log t)[j]? = some m := by
  induction hk with
  | refl => exact hm
  | step _ ih => exact (hstep _).getElem?_log ih

theorem mem_steps_of_le (hstep : ∀ k, Labelled N (run k) (label k) (run (k + 1))) {k k' : Nat}
    (hk : k ≤ k') {st : CommittedStep ι M E R} (hst : st ∈ (run k).steps) :
    st ∈ (run k').steps := by
  induction hk with
  | refl => exact hst
  | @step k' _ ih => exact (hstep k').mem_steps ih

theorem mem_history_of_le (hstep : ∀ k, Labelled N (run k) (label k) (run (k + 1))) {k k' : Nat}
    (hk : k ≤ k') {x : ι × Event E R} (hx : x ∈ (run k).history) : x ∈ (run k').history := by
  induction hk with
  | refl => exact hx
  | @step k' _ ih => exact (hstep k').mem_history ih

/-- The body of a message comes to its end, or the process dies in it. -/
theorem eventually_finished (htotal : ∀ w e, ∃ r w', N.answer w e r w')
    (hstep : ∀ k, Labelled N (run k) (label k) (run (k + 1))) (hfair : Fair N run label i)
    (hno : ∀ k o, label k ≠ .crash i o) {o : Nat} {m : M} (p : Prog E R ε Unit) {tr : Trace E R}
    {k : Nat} (hph : (run k).phase i = .running o m tr p) :
    ∃ k' ≥ k, (run k').phase i = .idle (o + 1) ∨
      ∃ tr' x, (run k').phase i = .running o m tr' (.raise x) := by
  induction p generalizing tr k with
  | ret u =>
    obtain ⟨k', hk', hl, hsame⟩ := exists_move htotal hstep hfair (able_of_ret hph)
    rw [hph] at hsame
    refine ⟨k' + 1, by omega, Or.inl ?_⟩
    rcases (hstep k').phase_cases hl (hno k') with ⟨_, _, h, -⟩ | ⟨_, _, _, _, _, _, h, -⟩ |
      ⟨_, _, _, h, hafter⟩ <;> rw [hsame] at h <;> cases h
    exact hafter
  | raise x => exact ⟨k, Nat.le_refl k, Or.inr ⟨tr, x, hph⟩⟩
  | perform e next ih =>
    obtain ⟨k', hk', hl, hsame⟩ := exists_move htotal hstep hfair (able_of_perform htotal hph)
    rw [hph] at hsame
    rcases (hstep k').phase_cases hl (hno k') with ⟨_, _, h, -⟩ | ⟨_, _, _, _, _, r, h, hafter⟩ |
      ⟨_, _, _, h, -⟩ <;> rw [hsame] at h <;> cases h
    obtain ⟨k'', hk'', hend⟩ := ih r hafter
    exact ⟨k'', by omega, hend⟩

/-- The process reads up to the message at `o`, and finishes it. -/
theorem eventually_past (htotal : ∀ w e, ∃ r w', N.answer w e r w')
    (hstep : ∀ k, Labelled N (run k) (label k) (run (k + 1))) (hfair : Fair N run label i)
    (hno : ∀ k o, label k ≠ .crash i o) {o : Nat} (d : Nat) {n k : Nat}
    (hph : (run k).phase i = .idle n) (hn : o < n + d)
    (ho : o < ((run k).log (N.source i)).length) :
    ∃ k' ≥ k, (∃ n' > o, (run k').phase i = .idle n') ∨ DiedBy (run k') i o := by
  induction d generalizing n k with
  | zero => exact ⟨k, Nat.le_refl k, Or.inl ⟨n, hn, hph⟩⟩
  | succ d ih =>
    by_cases hpast : o < n
    · exact ⟨k, Nat.le_refl k, Or.inl ⟨n, hpast, hph⟩⟩
    · have hget := List.getElem?_eq_getElem (Nat.lt_of_le_of_lt (Nat.le_of_not_lt hpast) ho)
      obtain ⟨k₁, hk₁, hl, hsame⟩ := exists_move htotal hstep hfair (able_of_idle hph hget)
      rw [hph] at hsame
      rcases (hstep k₁).phase_cases hl (hno k₁) with ⟨_, m, h, -, hread⟩ |
        ⟨_, _, _, _, _, _, h, -⟩ | ⟨_, _, _, h, -⟩ <;> rw [hsame] at h <;> cases h
      obtain ⟨k₂, hk₂, hidle | ⟨tr, x, hdied⟩⟩ :=
        eventually_finished htotal hstep hfair hno _ hread
      · have hlast := List.getElem?_eq_getElem ho
        have hgrown : ((run k₂).log (N.source i))[o]? = some _ :=
          getElem?_log_of_le hstep (by omega) hlast
        obtain ⟨k₃, hk₃, hend⟩ := ih hidle (by omega) (List.getElem?_eq_some_iff.mp hgrown).1
        exact ⟨k₃, by omega, hend⟩
      · exact ⟨k₂, by omega, Or.inr ⟨n, m, tr, x, Nat.le_of_not_lt hpast, hdied⟩⟩

/--
**Every message gets its turn.** In a fair run in which `i` is not stopped any more, each message
on its topic is committed at some time, or `i` dies at its offset or before.
-/
theorem eventually_committed (C : Contract N) (hc : C.CommitsOnce i)
    (htotal : ∀ w e, ∃ r w', N.answer w e r w') (hstart : Reachable N (run 0))
    (hstep : ∀ k, Labelled N (run k) (label k) (run (k + 1))) (hfair : Fair N run label i)
    (hno : ∀ k o, label k ≠ .crash i o) {k o : Nat}
    (ho : o < ((run k).log (N.source i)).length) :
    ∃ k' ≥ k, o < (run k').committed i ∨ DiedBy (run k') i o := by
  have hcursor : ∀ k, Cursor N (run k) i := fun k =>
    cursor_reachable C hc (reachable_run hstart hstep k)
  by_cases hdone : o < (run k).committed i
  · exact ⟨k, Nat.le_refl k, Or.inl hdone⟩
  have hpos : position (run k) i ≤ o :=
    Nat.le_trans (hcursor k).position_le (Nat.le_of_not_lt hdone)
  -- between two messages, the rest is reading on
  have hidle : ∀ {k₁ n}, k ≤ k₁ → (run k₁).phase i = .idle n →
      ∃ k' ≥ k, o < (run k').committed i ∨ DiedBy (run k') i o := by
    intro k₁ n hk₁ hph
    have hgrown := getElem?_log_of_le hstep hk₁ (List.getElem?_eq_getElem ho)
    obtain ⟨k', hk', ⟨n', hn', hph'⟩ | hdied⟩ := eventually_past htotal hstep hfair hno (o + 1) hph
      (by omega) (List.getElem?_eq_some_iff.mp hgrown).1
    · exact ⟨k', by omega, Or.inl ((hcursor k').idle hph' ▸ hn')⟩
    · exact ⟨k', by omega, Or.inr hdied⟩
  cases hph : (run k).phase i with
  | idle n => exact hidle (Nat.le_refl k) hph
  | running o' m tr p =>
    rw [position_of_running hph] at hpos
    obtain ⟨k₁, hk₁, hfin | ⟨tr', x, hdied⟩⟩ :=
      eventually_finished htotal hstep hfair hno p hph
    · exact hidle hk₁ hfin
    · exact ⟨k₁, hk₁, Or.inr ⟨o', m, tr', x, hpos, hdied⟩⟩

theorem eventually_step (C : Contract N) (hc : C.CommitsOnce i)
    (htotal : ∀ w e, ∃ r w', N.answer w e r w') (hstart : Reachable N (run 0))
    (hstep : ∀ k, Labelled N (run k) (label k) (run (k + 1))) (hfair : Fair N run label i)
    (hno : ∀ k o, label k ≠ .crash i o) {k o : Nat} {m : M}
    (hm : ((run k).log (N.source i))[o]? = some m) :
    ∃ k' ≥ k, (∃ st ∈ (run k').steps, st.proc = i ∧ st.offset = o ∧ st.msg = m) ∨
      DiedBy (run k') i o := by
  obtain ⟨ho, -⟩ := List.getElem?_eq_some_iff.mp hm
  obtain ⟨k', hk', hcom | hdied⟩ := eventually_committed C hc htotal hstart hstep hfair hno ho
  · obtain ⟨st, hst, hproc, hoff, hmsg⟩ :=
      exists_step_of_committed C hc (reachable_run hstart hstep k') hcom
    rw [getElem?_log_of_le hstep hk' hm] at hmsg
    exact ⟨k', hk', Or.inl ⟨st, hst, hproc, hoff, (Option.some.inj hmsg).symm⟩⟩
  · exact ⟨k', hk', Or.inr hdied⟩

end Fair

/-! ## What is passed on -/

/-- What a committed body has published on the topic it reads lies behind its message. -/
theorem step_published_behind (C : Contract N) (h : Reachable N s) :
    ∀ st ∈ s.steps, ∀ ev ∈ st.trace, ∀ m', (N.source st.proc, m') ∈ N.published ev.1 →
      ∃ j, st.offset < j ∧ (s.log (N.source st.proc))[j]? = some m' := by
  induction h with
  | init _ => simp [initial]
  | @step s _ hs hst ih =>
    cases hst with
    | env _ =>
      intro st hst ev hev m' hm'
      obtain ⟨j, hj, hm⟩ := ih st hst ev hev m' hm'
      exact ⟨j, hj, getElem?_deliver hm⟩
    | @perform i o m tr e k r w hph hans =>
      have hold : ∀ st ∈ s.steps, ∀ ev ∈ st.trace, ∀ m',
          (N.source st.proc, m') ∈ N.published ev.1 → ∃ j, st.offset < j ∧
            ((N.performed s i o m tr e k r w).log (N.source st.proc))[j]? = some m' := by
        intro st hst ev hev m' hm'
        obtain ⟨j, hj, hm⟩ := ih st hst ev hev m' hm'
        exact ⟨j, hj, getElem?_deliver hm⟩
      intro st hst
      by_cases he : N.commits e = true
      · simp only [performed, he, if_true, List.mem_append, List.mem_singleton] at hst
        rcases hst with hst | rfl
        · exact hold st hst
        · intro ev hev m' hm'
          obtain ⟨j, hj, hm⟩ := published_behind C hs hph ev hev m' hm'
          exact ⟨j, hj, getElem?_deliver hm⟩
      · simp only [performed, he] at hst
        exact hold st hst
    | _ => exact ih

section PassedOn

variable {K ρ : Type} {C D : Contract N} {carries : M → K → Prop} {S : K → M → Trace E R → Prop}
  {run : Nat → NetState ι T M σ E R ε} {label : Nat → Label ι E R} {key : K}

/-- A process that settles what its messages carry, or passes it on with a smaller rank. -/
def Contract.Descends [LT ρ] (C : Contract N) (i : ι) (carries : M → K → Prop)
    (S : K → M → Trace E R → Prop) (rank : M → ρ) : Prop :=
  ∀ {o m tr e}, C.Valid (N.source i) m → Trace.Admits C.A tr → C.Φ i o m tr e →
    N.commits e = true → ∀ key, carries m key →
      (∃ ev ∈ tr, ∃ m', (N.source i, m') ∈ N.published ev.1 ∧ carries m' key ∧ rank m' < rank m) ∨
        S key m tr

/-- **What is passed on with a smaller rank each time is settled in the end.** -/
theorem eventually_settled [LT ρ] [WellFoundedLT ρ] {rank : M → ρ}
    (hC : C.Descends i carries S rank) (hc : D.CommitsOnce i)
    (htotal : ∀ w e, ∃ r w', N.answer w e r w') (hstart : Reachable N (run 0))
    (hstep : ∀ k, Labelled N (run k) (label k) (run (k + 1))) (hfair : Fair N run label i)
    (hno : ∀ k o, label k ≠ .crash i o) {k : Nat} {m : M} (hm : m ∈ (run k).log (N.source i))
    (hkey : carries m key) :
    ∃ k' ≥ k, Settled (run k') i carries S key ∨ ∃ o, DiedBy (run k') i o := by
  generalize hr : rank m = r
  induction r using WellFoundedLT.induction generalizing m k with
  | ind r ih =>
    obtain ⟨o, ho⟩ := List.mem_iff_getElem?.mp hm
    obtain ⟨k₁, hk₁, ⟨st, hst, hproc, -, rfl⟩ | hdied⟩ :=
      eventually_step D hc htotal hstart hstep hfair hno ho
    · have hreach := reachable_run hstart hstep k₁
      obtain ⟨hlog, hadm, e, he, hΦ⟩ := C.step_reachable hreach st hst
      have hvalid := (C.inv_reachable hreach).valid _ _ (List.mem_of_getElem? hlog)
      rw [hproc] at hvalid hΦ
      rcases hC hvalid hadm hΦ he key hkey with ⟨ev, hev, m', hpub, hkey', hlt⟩ | hsettled
      · have hnext : m' ∈ (run k₁).log (N.source i) := by
          have hhist := historyInv_reachable hreach
          exact hhist.published _ (hhist.steps st hst ev hev) _ hpub
        obtain ⟨k₂, hk₂, hend⟩ := ih _ (hr ▸ hlt) hnext hkey' rfl
        exact ⟨k₂, by omega, hend⟩
      · exact ⟨k₁, hk₁, Or.inl ⟨st, hst, hproc, hkey, hsettled⟩⟩
    · exact ⟨k₁, hk₁, Or.inr ⟨o, hdied⟩⟩

/-- **What is passed on is settled, or comes back at ever higher offsets.** -/
theorem eventually_again (hrel : C.Relays i carries S)
    (htotal : ∀ w e, ∃ r w', N.answer w e r w') (hstart : Reachable N (run 0))
    (hstep : ∀ k, Labelled N (run k) (label k) (run (k + 1))) (hfair : Fair N run label i)
    (hno : ∀ k o, label k ≠ .crash i o) (b : Nat) {k o : Nat} {m : M}
    (hm : ((run k).log (N.source i))[o]? = some m) (hkey : carries m key) :
    ∃ k' ≥ k, (∃ st ∈ (run k').steps, st.proc = i ∧ b ≤ st.offset ∧ carries st.msg key) ∨
      Settled (run k') i carries S key ∨ ∃ o, DiedBy (run k') i o := by
  obtain ⟨d, hd⟩ : ∃ d, b ≤ o + d := ⟨b, Nat.le_add_left b o⟩
  induction d generalizing o m k with
  | zero =>
    obtain ⟨k₁, hk₁, ⟨st, hst, hproc, rfl, rfl⟩ | hdied⟩ :=
      eventually_step C hrel.toCommitsOnce htotal hstart hstep hfair hno hm
    · exact ⟨k₁, hk₁, Or.inl ⟨st, hst, hproc, hd, hkey⟩⟩
    · exact ⟨k₁, hk₁, Or.inr (Or.inr ⟨o, hdied⟩)⟩
  | succ d ih =>
    obtain ⟨k₁, hk₁, ⟨st, hst, rfl, rfl, rfl⟩ | hdied⟩ :=
      eventually_step C hrel.toCommitsOnce htotal hstart hstep hfair hno hm
    · have hreach := reachable_run hstart hstep k₁
      obtain ⟨-, hadm, e, he, hΦ⟩ := C.step_reachable hreach st hst
      rcases hrel.forwards hadm hΦ he key hkey with ⟨ev, hev, m', hpub, hkey'⟩ | hsettled
      · -- the successor lies behind, so this is one offset further at least
        obtain ⟨j, hj, hm'⟩ := step_published_behind C hreach st hst ev hev m' hpub
        obtain ⟨k₂, hk₂, hend⟩ := ih hm' hkey' (by omega)
        exact ⟨k₂, by omega, hend⟩
      · exact ⟨k₁, hk₁, Or.inr (Or.inl ⟨st, hst, rfl, hkey, hsettled⟩)⟩
    · exact ⟨k₁, hk₁, Or.inr (Or.inr ⟨o, hdied⟩)⟩

end PassedOn

/-! ## There are fair runs -/

/-- A step in which `i`, whose turn it is, moves if it can. Else nothing happens. -/
theorem exists_turn (hidle : ∀ w, N.env w [] w) (turn : Option ι) (s : NetState ι T M σ E R ε) :
    ∃ x : Label ι E R × NetState ι T M σ E R ε, Labelled N s x.1 x.2 ∧
      (∀ j o, x.1 ≠ .crash j o) ∧ (x.1 = .env → x.2.log = s.log) ∧
      ∀ i, turn = some i → Able N s i → x.1.proc? = some i := by
  by_cases hable : ∃ i, turn = some i ∧ Able N s i
  · obtain ⟨i, rfl, l, s', hl, hproc, hno⟩ := hable
    refine ⟨⟨l, s'⟩, hl, fun j o hcrash => ?_, fun henv => ?_, fun j hj _ => hj ▸ hproc⟩
    · obtain rfl : l = .crash j o := hcrash
      obtain rfl := Option.some.inj hproc
      exact hno o rfl
    · obtain rfl : l = .env := henv
      cases hproc
  · exact ⟨⟨.env, _⟩, .env (hidle s.world), nofun, fun _ => deliver_nil s.log,
      fun i hi h => absurd ⟨i, hi, h⟩ hable⟩

/-- One choice after the other. -/
theorem exists_sequence {α β : Type} {P : Nat → α → β × α → Prop} (h : ∀ k a, ∃ x, P k a x)
    (a : α) : ∃ (f : Nat → α) (g : Nat → β), f 0 = a ∧ ∀ k, P k (f k) (g k, f (k + 1)) := by
  choose next hnext using h
  exact ⟨fun k => k.rec a fun k a => (next k a).2, fun k => (next k _).1, rfl,
    fun k => hnext k _⟩

/--
**There are fair runs.** From every state there is a run without crashes and without messages from
outside in which each of finitely many processes gets its turn again and again.
-/
theorem exists_fair (hidle : ∀ w, N.env w [] w) (s : NetState ι T M σ E R ε) (is : List ι) :
    ∃ (run : Nat → NetState ι T M σ E R ε) (label : Nat → Label ι E R), run 0 = s ∧
      (∀ k, Labelled N (run k) (label k) (run (k + 1))) ∧ (∀ k j o, label k ≠ .crash j o) ∧
      (∀ k, label k = .env → (run (k + 1)).log = (run k).log) ∧
      ∀ i ∈ is, Fair N run label i := by
  obtain ⟨run, label, hzero, hrun⟩ :=
    exists_sequence (fun k s => exists_turn hidle is[k % is.length]? s) s
  refine ⟨run, label, hzero, fun k => (hrun k).1, fun k => (hrun k).2.1, fun k => (hrun k).2.2.1,
    fun i hi K hable => ?_⟩
  -- the turn of `i` comes again after `K`
  obtain ⟨j, hj⟩ := List.mem_iff_getElem?.mp hi
  obtain ⟨hlt, -⟩ := List.getElem?_eq_some_iff.mp hj
  have hlater : K ≤ j + K * is.length :=
    Nat.le_trans (Nat.le_mul_of_pos_right K (Nat.zero_lt_of_lt hlt)) (Nat.le_add_left _ _)
  refine ⟨_, hlater, (hrun _).2.2.2 i ?_ (hable _ hlater)⟩
  rw [Nat.add_mul_mod_self_right, Nat.mod_eq_of_lt hlt]
  exact hj

end Infra.Network
