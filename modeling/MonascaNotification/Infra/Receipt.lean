import Mathlib.Data.List.Forall2
import MonascaNotification.Infra.Prog

/-!
# Results that stand for an accepted event

Some of the events of a program are *accepted* by whoever answers them, and some of its results are
*good*. A program reports truly when a good result stands for exactly one accepted event, and any
other outcome, an exception included, for none (`Reports`). There is a rule for each construct.

* `Receipt` — the one accepted entry of a list that claims one
* `Reports.perform`, `.ofExcept_bind`, `.after`, `.bind`, `.tryCatch` — the rules
* `Receipt.map` — the entries of a program as entries of a larger record
* `Receipt.withEarlier` — what came before the accepted entry
-/

namespace Infra

/-! ## Receipts -/

section

variable {X Y C : Type} {accepted : X → Bool} {Q : X → Prop} {claimed : Bool} {xs ys : List X}

/-- One accepted entry, with `Q`, when one is claimed, and none otherwise. -/
def Receipt (accepted : X → Bool) (Q : X → Prop) (claimed : Bool) (xs : List X) : Prop :=
  if claimed then ∃ x, xs.filter accepted = [x] ∧ Q x else xs.filter accepted = []

@[simp] theorem receipt_false : Receipt accepted Q false xs ↔ xs.filter accepted = [] := by
  simp [Receipt]

@[simp] theorem receipt_true :
    Receipt accepted Q true xs ↔ ∃ x, xs.filter accepted = [x] ∧ Q x := by
  simp [Receipt]

theorem filter_eq_nil_of_silent (h : ∀ x ∈ xs, accepted x = false) : xs.filter accepted = [] :=
  List.filter_eq_nil_iff.mpr fun x hx => by rw [h x hx]; exact Bool.false_ne_true

theorem Receipt.append_left (h : Receipt accepted Q claimed ys) (hxs : xs.filter accepted = []) :
    Receipt accepted Q claimed (xs ++ ys) := by
  rwa [Receipt, List.filter_append, hxs, List.nil_append]

/-- The entries of a part as entries of a whole, which accepts the same. -/
theorem Receipt.map {f : X → Y} {accepted' : Y → Bool} {Q' : Y → Prop}
    (h : Receipt accepted Q claimed xs) (haccepted : ∀ x, accepted' (f x) = accepted x)
    (hQ : ∀ x, Q x → Q' (f x)) : Receipt accepted' Q' claimed (xs.map f) := by
  have hfilter : (xs.map f).filter accepted' = (xs.filter accepted).map f := by
    rw [List.filter_map]
    exact congrArg _ (List.filter_congr fun x _ => haccepted x)
  cases claimed with
  | false =>
    rw [receipt_false] at h ⊢
    rw [hfilter, h, List.map_nil]
  | true =>
    obtain ⟨x, hx, hq⟩ := receipt_true.mp h
    exact receipt_true.mpr ⟨f x, by rw [hfilter, hx, List.map_singleton], hQ x hq⟩

/-- Each entry, with those before it. -/
def withEarlier : List X → List (List X × X)
  | [] => []
  | x :: xs => ([], x) :: (withEarlier xs).map fun entry => (x :: entry.1, entry.2)

@[simp] theorem map_snd_withEarlier (xs : List X) : (withEarlier xs).map Prod.snd = xs := by
  induction xs with
  | nil => rfl
  | cons x xs ih =>
    rw [withEarlier, List.map_cons, List.map_map]
    exact congrArg (x :: ·) ih

theorem exists_of_mem_withEarlier {earlier : List X} {x : X}
    (h : (earlier, x) ∈ withEarlier xs) : ∃ later, xs = earlier ++ x :: later := by
  induction xs generalizing earlier with
  | nil => cases h
  | cons y ys ih =>
    rcases List.mem_cons.mp h with h | h
    · cases h
      exact ⟨ys, rfl⟩
    · obtain ⟨⟨earlier', x'⟩, hmem, heq⟩ := List.mem_map.mp h
      cases heq
      obtain ⟨later, hys⟩ := ih hmem
      exact ⟨later, by rw [hys, List.cons_append]⟩

/-- The accepted entry is where it is. -/
theorem Receipt.withEarlier {Q' : List X × X → Prop} (h : Receipt accepted Q claimed xs)
    (hQ : ∀ earlier x later, claimed = true → xs = earlier ++ x :: later → accepted x = true →
      Q x → Q' (earlier, x)) :
    Receipt (fun entry => accepted entry.2) Q' claimed (withEarlier xs) := by
  have hfilter : ((Infra.withEarlier xs).filter fun entry => accepted entry.2).map Prod.snd =
      xs.filter accepted := by
    conv_rhs => rw [← map_snd_withEarlier xs, List.filter_map]
    rfl
  cases claimed with
  | false =>
    rw [receipt_false] at h ⊢
    rw [h] at hfilter
    exact List.map_eq_nil_iff.mp hfilter
  | true =>
    obtain ⟨x, hx, hq⟩ := receipt_true.mp h
    rw [hx] at hfilter
    obtain ⟨⟨earlier, x'⟩, hentry, rfl⟩ := List.map_eq_singleton_iff.mp hfilter
    have hmem : (earlier, x') ∈ (Infra.withEarlier xs).filter fun entry => accepted entry.2 := by
      rw [hentry]
      exact List.mem_singleton_self _
    obtain ⟨hmem, haccepted⟩ := List.mem_filter.mp hmem
    obtain ⟨later, hxs⟩ := exists_of_mem_withEarlier hmem
    exact receipt_true.mpr ⟨_, hentry, hQ earlier x' later rfl hxs haccepted hq⟩

theorem eq_of_append_cons_eq_concat {zs : List X} {x y : X} (h : xs ++ x :: ys = zs ++ [y])
    (hx : x ∉ zs) : xs = zs ∧ x = y ∧ ys = [] := by
  rcases List.eq_nil_or_concat ys with rfl | ⟨ys, y', rfl⟩
  · obtain ⟨rfl, hxy⟩ := List.append_inj' h rfl
    exact ⟨rfl, List.singleton_inj.mp hxy, rfl⟩
  · rw [List.concat_eq_append, ← List.cons_append, ← List.append_assoc] at h
    obtain ⟨rfl, -⟩ := List.append_inj' h rfl
    exact absurd (List.mem_append_right _ List.mem_cons_self) hx

/-- The claim, if one is made, is matched with the accepted entries one by one. -/
theorem Receipt.forall₂ {Rel : C → X → Prop} (h : Receipt accepted Q claimed xs) (c : C)
    (hQ : ∀ x, Q x → Rel c x) :
    List.Forall₂ Rel (if claimed then some c else none).toList (xs.filter accepted) := by
  cases claimed with
  | false =>
    rw [receipt_false.mp h]
    exact .nil
  | true =>
    obtain ⟨x, hx, hq⟩ := receipt_true.mp h
    rw [hx]
    exact .cons (hQ x hq) .nil

theorem exists_of_mem_forall₂ {Rel : C → X → Prop} {cs : List C} (h : List.Forall₂ Rel cs xs)
    {c : C} (hc : c ∈ cs) : ∃ x ∈ xs, Rel c x := by
  induction h with
  | nil => cases hc
  | @cons _ x _ _ hrel _ ih =>
    rcases List.mem_cons.mp hc with rfl | hc
    · exact ⟨x, List.mem_cons_self, hrel⟩
    · obtain ⟨y, hy, hrel⟩ := ih hc
      exact ⟨y, List.mem_cons_of_mem _ hy, hrel⟩

end

/-! ## Programs -/

section

open Prog

variable {E : Type} {R : E → Type} {ε α β : Type} {accepted : Event E R → Bool}
  {Q : Event E R → Prop} {good : α → Bool} {good' : β → Bool}

/-- Whether an outcome is good. An exception is not. -/
def isGood (good : α → Bool) : Except ε α → Bool
  | .ok a => good a
  | .error _ => false

/-- A good result stands for one accepted event, and any other outcome for none. -/
def Reports (accepted : Event E R → Bool) (Q : Event E R → Prop) (good : α → Bool)
    (p : Prog E R ε α) : Prop :=
  ∀ ⦃tr out⦄, Runs p tr out → Receipt accepted Q (isGood good out) tr

theorem reports_ret {a : α} (h : good a = false) :
    Reports accepted Q good (.ret a : Prog E R ε α) := by
  rintro tr out ⟨rfl, rfl⟩
  rw [isGood, h]
  exact receipt_false.mpr rfl

theorem reports_raise {x : ε} : Reports accepted Q good (.raise x : Prog E R ε α) := by
  rintro tr out ⟨rfl, rfl⟩
  exact receipt_false.mpr rfl

/-- An effect after which a good result is given at once, if it was accepted. -/
theorem Reports.perform {e : E} {k : R e → Prog E R ε α}
    (haccepted : ∀ r, accepted ⟨e, r⟩ = true → Q ⟨e, r⟩ ∧ ∃ a, k r = .ret a ∧ good a = true)
    (hrest : ∀ r, accepted ⟨e, r⟩ = false → Reports accepted Q good (k r)) :
    Reports accepted Q good (.perform e k) := by
  rintro tr out ⟨r, tr', rfl, h⟩
  cases hr : accepted ⟨e, r⟩ with
  | true =>
    obtain ⟨hq, a, hk, hgood⟩ := haccepted r hr
    rw [hk] at h
    obtain ⟨rfl, rfl⟩ := h
    rw [isGood, hgood]
    exact receipt_true.mpr ⟨_, List.filter_eq_self.mpr (by simpa using hr), hq⟩
  | false =>
    have hsilent : [(⟨e, r⟩ : Event E R)].filter accepted = [] :=
      filter_eq_nil_of_silent (by simpa using hr)
    exact (hrest r hr h).append_left hsilent

theorem Reports.ofExcept_bind {y : Except ε β} {f : β → Prog E R ε α}
    (h : ∀ b, y = .ok b → Reports accepted Q good (f b)) :
    Reports accepted Q good ((ofExcept y).bind f) := by
  cases y with
  | ok b => exact h b rfl
  | error x => exact reports_raise

/-- What is never accepted may come before. -/
theorem Reports.after {p : Prog E R ε β} {f : β → Prog E R ε α}
    (hp : Uses (fun e => ∀ r, accepted ⟨e, r⟩ = false) p)
    (hf : ∀ b, Reports accepted Q good (f b)) : Reports accepted Q good (p.bind f) := by
  intro tr out h
  have hsilent : ∀ {tr : Trace E R} {out : Except ε β}, Runs p tr out → tr.filter accepted = [] :=
    fun hrun => filter_eq_nil_of_silent fun ev hev => hp.runs hrun ev hev ev.2
  rcases runs_bind.mp h with ⟨x, rfl, hx⟩ | ⟨tr₁, tr₂, b, rfl, h₁, h₂⟩
  · exact receipt_false.mpr (hsilent hx)
  · exact (hf b h₂).append_left (hsilent h₁)

/-- After a good result nothing is done any more, and after another one there is a next try. -/
theorem Reports.bind {p : Prog E R ε β} {f : β → Prog E R ε α} (hp : Reports accepted Q good' p)
    (hgood : ∀ b, good' b = true → ∃ a, f b = .ret a ∧ good a = true)
    (hrest : ∀ b, good' b = false → Reports accepted Q good (f b)) :
    Reports accepted Q good (p.bind f) := by
  intro tr out h
  rcases runs_bind.mp h with ⟨x, rfl, hx⟩ | ⟨tr₁, tr₂, b, rfl, h₁, h₂⟩
  · exact hp hx
  have hreceipt := hp h₁
  cases hb : good' b with
  | true =>
    obtain ⟨a, hf, ha⟩ := hgood b hb
    rw [hf] at h₂
    obtain ⟨rfl, rfl⟩ := h₂
    rw [isGood, hb] at hreceipt
    rwa [isGood, ha, List.append_nil]
  | false =>
    rw [isGood, hb] at hreceipt
    exact (hrest b hb h₂).append_left (receipt_false.mp hreceipt)

/-- When a program raises, nothing was accepted, so its handler reports for both. -/
theorem Reports.tryCatch {p : Prog E R ε α} {h : ε → Prog E R ε α}
    (hp : Reports accepted Q good p) (hh : ∀ x, Reports accepted Q good (h x)) :
    Reports accepted Q good (p.tryCatch h) := by
  intro tr out hrun
  rcases runs_tryCatch.mp hrun with ⟨a, rfl, ha⟩ | ⟨tr₁, tr₂, x, rfl, h₁, h₂⟩
  · exact hp ha
  · exact (hh x h₂).append_left (receipt_false.mp (hp h₁))

end

end Infra
