import Mathlib.Data.List.Forall2
import MonascaNotification.Infra.Network

/-!
# A network over a lower level

An effect of a network, such as a call of a library, may be a program of its own on a lower level,
where it leaves entries in a record. A `Layer` says which entries it takes to answer an effect, and
which entries a call may leave that was cut off by a crash. `layered` puts a network on a layer.

* `Reachable.forget` — what is reachable over a layer is reachable without it
* `explains_reachable` — the record is made of what the effects in the history took, in their order
* `Explains.receipts`, `Explains.of_mem`, `Explains.all` — what follows for the record
-/

namespace Infra

/-- What the effects leave on a lower level. -/
structure Layer (E : Type) (R : E → Type) (X : Type) where
  low : (e : E) → R e → List X → Prop
  /-- What a call may leave that does not come to its end. -/
  cut : List X → Prop

namespace Network

variable {ι T M σ E X : Type} {R : E → Type} {ε : Type} [DecidableEq ι] [DecidableEq T]
  {N : Network ι T M σ E R ε} {L : Layer E R X}

/-- The network, with the record of the level below. -/
def layered (N : Network ι T M σ E R ε) (L : Layer E R X) :
    Network ι T M (σ × List X) E R ε where
  source := N.source
  handler := N.handler
  published := N.published
  commits := N.commits
  init := fun w => N.init w.1 ∧ w.2 = []
  answer := fun w e r w' => N.answer w.1 e r w'.1 ∧ ∃ xs, L.low e r xs ∧ w'.2 = w.2 ++ xs
  env := fun w pubs w' => N.env w.1 pubs w'.1 ∧
    ∃ xs, (xs = [] ∨ N.mayCrash ∧ L.cut xs) ∧ w'.2 = w.2 ++ xs
  mayCrash := N.mayCrash

/-- The state without the record. -/
def forget (s : NetState ι T M (σ × List X) E R ε) : NetState ι T M σ E R ε where
  world := s.world.1
  log := s.log
  committed := s.committed
  phase := s.phase
  history := s.history
  steps := s.steps

theorem Step.forget {s s' : NetState ι T M (σ × List X) E R ε} (h : Step (N.layered L) s s') :
    Step N (forget s) (forget s') := by
  cases h with
  | env henv => exact .env henv.1
  | read hph hm => exact .read hph hm
  | perform hph hans => exact .perform hph hans.1
  | finish hph => exact .finish hph
  | crash hc => exact .crash hc

theorem Reachable.forget {s : NetState ι T M (σ × List X) E R ε} (h : Reachable (N.layered L) s) :
    Reachable N (forget s) := by
  induction h with
  | init hw => exact .init hw.1
  | step _ hst ih => exact .step ih hst.forget

/-! ## What the record is made of -/

/-- The entries of the record, by the effects that took them. -/
inductive Explains (L : Layer E R X) (crash : Prop) : Trace E R → List X → Prop where
  | nil : Explains L crash [] []
  | effect {tr xs ys} {ev : Event E R} : Explains L crash tr xs → L.low ev.1 ev.2 ys →
      Explains L crash (tr ++ [ev]) (xs ++ ys)
  | cut {tr xs ys} : Explains L crash tr xs → crash → L.cut ys → Explains L crash tr (xs ++ ys)

theorem explains_reachable {s : NetState ι T M (σ × List X) E R ε}
    (h : Reachable (N.layered L) s) : Explains L N.mayCrash (s.history.map Prod.snd) s.world.2 := by
  induction h with
  | @init w hw =>
    rw [show (initial w : NetState ι T M (σ × List X) E R ε).world.2 = [] from hw.2]
    exact .nil
  | step _ hst ih =>
    cases hst with
    | env henv =>
      obtain ⟨-, xs, hxs, hw⟩ := henv
      dsimp only
      rw [hw]
      rcases hxs with rfl | ⟨hcrash, hcut⟩
      · rwa [List.append_nil]
      · exact .cut ih hcrash hcut
    | read _ _ => exact ih
    | perform _ hans =>
      obtain ⟨-, xs, hxs, hw⟩ := hans
      simp only [performed, List.map_append, List.map_cons, List.map_nil]
      rw [hw]
      exact .effect ih hxs
    | finish _ => exact ih
    | crash _ => exact ih

namespace Explains

variable {C : Type} {crash : Prop} {tr : Trace E R} {xs : List X} {accepted : X → Bool}
  {g : Event E R → Option C} {Rel : C → X → Prop}

omit [DecidableEq ι] [DecidableEq T]

theorem filterMap_singleton (ev : Event E R) : [ev].filterMap g = (g ev).toList := by
  cases hg : g ev <;> simp [hg]

/--
What is seen of the history is found among the accepted entries, in the same order. Without crashes
there is no other one.
-/
theorem receipts (h : Explains L crash tr xs)
    (hlow : ∀ (e : E) (r : R e) ys, L.low e r ys →
      List.Forall₂ Rel (g ⟨e, r⟩).toList (ys.filter accepted)) :
    ∃ found, List.Forall₂ Rel (tr.filterMap g) found ∧ found.Sublist (xs.filter accepted) ∧
      (¬ crash → found = xs.filter accepted) := by
  induction h with
  | nil => exact ⟨[], .nil, .slnil, fun _ => rfl⟩
  | @effect _ _ ys ev _ hys ih =>
    obtain ⟨e, r⟩ := ev
    obtain ⟨found, hrel, hsub, hall⟩ := ih
    refine ⟨found ++ ys.filter accepted, ?_, ?_, fun hcrash => ?_⟩
    · rw [List.filterMap_append, filterMap_singleton]
      exact List.rel_append hrel (hlow e r ys hys)
    · rw [List.filter_append]
      exact hsub.append (List.Sublist.refl _)
    · rw [hall hcrash, List.filter_append]
  | cut _ hcrash _ ih =>
    obtain ⟨found, hrel, hsub, -⟩ := ih
    refine ⟨found, hrel, ?_, fun hno => absurd hcrash hno⟩
    rw [List.filter_append]
    exact hsub.trans (List.sublist_append_left _ _)

/-- What each effect left is in the record. -/
theorem of_mem (h : Explains L crash tr xs) {ev : Event E R} (hev : ev ∈ tr) :
    ∃ ys, L.low ev.1 ev.2 ys ∧ ys ⊆ xs := by
  induction h with
  | nil => cases hev
  | @effect tr xs ys ev' _ hys ih =>
    rcases List.mem_append.mp hev with hev | hev
    · obtain ⟨zs, hzs, hsub⟩ := ih hev
      exact ⟨zs, hzs, fun x hx => List.mem_append_left _ (hsub hx)⟩
    · rw [List.mem_singleton] at hev
      subst hev
      exact ⟨ys, hys, List.subset_append_right _ _⟩
  | cut _ _ _ ih =>
    obtain ⟨zs, hzs, hsub⟩ := ih hev
    exact ⟨zs, hzs, fun x hx => List.mem_append_left _ (hsub hx)⟩

/-- What holds of each part of the record, and of two parts in a row, holds of the record. -/
theorem all (h : Explains L crash tr xs) {Q : List X → Prop} (hnil : Q [])
    (happend : ∀ xs ys, Q xs → Q ys → Q (xs ++ ys))
    (hlow : ∀ (e : E) (r : R e) ys, L.low e r ys → Q ys)
    (hcut : crash → ∀ ys, L.cut ys → Q ys) : Q xs := by
  induction h with
  | nil => exact hnil
  | effect _ hys ih => exact happend _ _ ih (hlow _ _ _ hys)
  | cut _ hcrash hys ih => exact happend _ _ ih (hcut hcrash _ hys)

end Explains

end Network

end Infra
