import MonascaNotification.Infra.Timed

/-!
# What a message rests on

A message that is valid because of what happened before it: because of a message on another topic,
or of an answer that was given. Validity may then name the whole state, as long as it survives
whatever is added to it (`Grows`). From what each loop body publishes, one step at a time, it
follows for every message on every topic (`Evidence.valid_reachable`), and for the message behind
every effect that was ever performed (`Evidence.performed_reachable`).

A process that stops takes nothing back: crashes are allowed.
-/

namespace Infra.Network

open Prog

variable {ι T M σ E : Type} {R : E → Type} {ε : Type} [DecidableEq ι] [DecidableEq T]
  {N : Network ι T M σ E R ε} {s s' : NetState ι T M σ E R ε}

/-- Nothing that is logged or recorded in `s` is missing in `s'`. -/
structure Grows (s s' : NetState ι T M σ E R ε) : Prop where
  log : ∀ t, ∀ m ∈ s.log t, m ∈ s'.log t
  history : ∀ x ∈ s.history, x ∈ s'.history

theorem Step.grows (h : Step N s s') : Grows s s' := by
  cases h with
  | env _ => exact ⟨fun t m hm => mem_deliver.mpr (Or.inl hm), fun _ hx => hx⟩
  | read _ _ => exact ⟨fun _ _ hm => hm, fun _ hx => hx⟩
  | perform _ _ =>
    exact ⟨fun t m hm => mem_deliver.mpr (Or.inl hm), fun x hx => List.mem_append_left _ hx⟩
  | finish _ => exact ⟨fun _ _ hm => hm, fun _ hx => hx⟩
  | crash _ => exact ⟨fun _ _ hm => hm, fun _ hx => hx⟩

/--
What messages rest on. `Valid s t m` may speak of everything that is logged or recorded in `s`.

The environment publishes valid messages, and so does a loop body that works on a valid message.
The effects that it has performed are recorded.
-/
structure Evidence (N : Network ι T M σ E R ε) where
  Valid : NetState ι T M σ E R ε → T → M → Prop
  grows : ∀ {s s' t m}, Grows s s' → Valid s t m → Valid s' t m
  env_valid : ∀ {w pubs w'} (s : NetState ι T M σ E R ε), N.env w pubs w' →
    ∀ p ∈ pubs, Valid s p.1 p.2
  publish_valid : ∀ {s i o m tr e}, m ∈ s.log (N.source i) → Valid s (N.source i) m →
    (∀ ev ∈ tr, (i, ev) ∈ s.history) → Performs (N.handler i o m) tr e →
    ∀ p ∈ N.published e, Valid s p.1 p.2

namespace Evidence

/-- A body at an effect works on a message of its topic, and what it did before is recorded. -/
theorem performs_of_running (h : Reachable N s) {i : ι} {o : Nat} {m : M} {tr : Trace E R} {e : E}
    {k : R e → Prog E R ε Unit} (hph : s.phase i = .running o m tr (.perform e k)) :
    m ∈ s.log (N.source i) ∧ (∀ ev ∈ tr, (i, ev) ∈ s.history) ∧
      Performs (N.handler i o m) tr e := by
  obtain ⟨hlog, -, -⟩ := (N.handlers.inv_reachable h).running hph
  exact ⟨List.mem_of_getElem? hlog, (historyInv_reachable h).running hph,
    (N.handlers.effect_reachable h hph).2⟩

theorem valid_reachable (V : Evidence N) (h : Reachable N s) :
    ∀ t, ∀ m ∈ s.log t, V.Valid s t m := by
  induction h with
  | init _ => simp [initial]
  | @step s _ hs hst ih =>
    have hgrows := hst.grows
    cases hst with
    | env henv =>
      intro t m hm
      rcases mem_deliver.mp hm with hm | hm
      · exact V.grows hgrows (ih t m hm)
      · exact V.env_valid _ henv _ hm
    | read _ _ => exact fun t m hm => V.grows hgrows (ih t m hm)
    | perform hph _ =>
      obtain ⟨hlog, htr, hperf⟩ := performs_of_running hs hph
      intro t m hm
      rcases mem_deliver.mp hm with hm | hm
      · exact V.grows hgrows (ih t m hm)
      · exact V.grows hgrows (V.publish_valid hlog (ih _ _ hlog) htr hperf _ hm)
    | finish _ => exact fun t m hm => V.grows hgrows (ih t m hm)
    | crash _ => exact fun t m hm => V.grows hgrows (ih t m hm)

/-- Process `i` works on a valid message, with recorded effects behind it, and comes to `e`. -/
def Behind (V : Evidence N) (s : NetState ι T M σ E R ε) (i : ι) (e : E) : Prop :=
  ∃ o m tr, m ∈ s.log (N.source i) ∧ V.Valid s (N.source i) m ∧
    (∀ ev ∈ tr, (i, ev) ∈ s.history) ∧ Performs (N.handler i o m) tr e

omit [DecidableEq ι] [DecidableEq T] in
theorem Behind.grows {V : Evidence N} {i : ι} {e : E} (h : V.Behind s i e) (hg : Grows s s') :
    V.Behind s' i e := by
  obtain ⟨o, m, tr, hm, hvalid, htr, hperf⟩ := h
  exact ⟨o, m, tr, hg.log _ m hm, V.grows hg hvalid, fun ev hev => hg.history _ (htr ev hev), hperf⟩

/-- Every effect that was ever performed was performed by a body that works on a valid message. -/
theorem performed_reachable (V : Evidence N) (h : Reachable N s) :
    ∀ x ∈ s.history, V.Behind s x.1 x.2.1 := by
  induction h with
  | init _ => simp [initial]
  | @step s _ hs hst ih =>
    have hgrows := hst.grows
    cases hst with
    | env _ => exact fun x hx => (ih x hx).grows hgrows
    | read _ _ => exact fun x hx => (ih x hx).grows hgrows
    | @perform i o m tr e k r w hph hans =>
      intro x hx
      rcases List.mem_append.mp hx with hx | hx
      · exact (ih x hx).grows hgrows
      · rw [List.mem_singleton] at hx
        subst hx
        obtain ⟨hlog, htr, hperf⟩ := performs_of_running hs hph
        have hbehind : V.Behind s i e := ⟨o, m, tr, hlog, V.valid_reachable hs _ m hlog, htr, hperf⟩
        exact hbehind.grows hgrows
    | finish _ => exact fun x hx => (ih x hx).grows hgrows
    | crash _ => exact fun x hx => (ih x hx).grows hgrows

end Evidence

end Infra.Network
