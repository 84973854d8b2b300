import MonascaNotification.Infra.Triple
import MonascaNotification.Model.Notifiers

/-!
# What a send leaves on the trace

Three projections say what the world saw of a trace: the notifications handed to a plugin
(`sends`), those that a plugin accepted (`deliveries`), and the messages that were published
(`publications`).

`Dispatch` describes `send_notifications`, one constructor for each way a notification can go
through its loop: of an unconfigured type, accepted, or not accepted.
-/

namespace MonascaNotification

open Infra Prog

variable {P : Platform}

/-! ## Projections of a trace -/

/-- A plugin that raises counts like one that returned `False`. -/
def accepted : Except PyExn Json → Bool
  | .ok v => v.truthy
  | .error _ => false

/-- The notification that the event hands to a plugin. -/
def attempted : PyEvent P → Option (Notification P)
  | ⟨.sendNotification _ n, _⟩ => some n
  | _ => none

/-- The notification that the plugin of the event accepted. -/
def delivered : PyEvent P → Option (Notification P)
  | ⟨.sendNotification _ n, answer⟩ => if accepted answer then some n else none
  | _ => none

/-- A plugin call that was not accepted. -/
def isRefused : PyEvent P → Bool
  | ⟨.sendNotification _ _, answer⟩ => !accepted answer
  | _ => false

def sends (tr : PyTrace P) : List (Notification P) := tr.filterMap attempted

def deliveries (tr : PyTrace P) : List (Notification P) := tr.filterMap delivered

def publications (tr : PyTrace P) : List (Topic × KafkaValue) := tr.flatMap fun ev => ev.1.published

@[simp] theorem sends_nil : sends ([] : PyTrace P) = [] := rfl

@[simp] theorem deliveries_nil : deliveries ([] : PyTrace P) = [] := rfl

@[simp] theorem publications_nil : publications ([] : PyTrace P) = [] := rfl

@[simp] theorem sends_append (tr₁ tr₂ : PyTrace P) :
    sends (tr₁ ++ tr₂) = sends tr₁ ++ sends tr₂ :=
  List.filterMap_append

@[simp] theorem deliveries_append (tr₁ tr₂ : PyTrace P) :
    deliveries (tr₁ ++ tr₂) = deliveries tr₁ ++ deliveries tr₂ :=
  List.filterMap_append

@[simp] theorem publications_append (tr₁ tr₂ : PyTrace P) :
    publications (tr₁ ++ tr₂) = publications tr₁ ++ publications tr₂ :=
  List.flatMap_append

theorem sends_cons (ev : PyEvent P) (tr : PyTrace P) :
    sends (ev :: tr) = (attempted ev).toList ++ sends tr := by
  cases h : attempted ev <;> simp [sends, h]

theorem deliveries_cons (ev : PyEvent P) (tr : PyTrace P) :
    deliveries (ev :: tr) = (delivered ev).toList ++ deliveries tr := by
  cases h : delivered ev <;> simp [deliveries, h]

@[simp] theorem publications_cons (ev : PyEvent P) (tr : PyTrace P) :
    publications (ev :: tr) = ev.1.published ++ publications tr := rfl

theorem attempted_of_delivered {ev : PyEvent P} {n : Notification P}
    (h : delivered ev = some n) : attempted ev = some n := by
  obtain ⟨e, r⟩ := ev
  cases e with
  | sendNotification notifier m =>
    simp only [delivered] at h
    split at h
    · exact h
    · cases h
  | _ => cases h

theorem countP_isRefused_eq_zero {tr : PyTrace P} (h : sends tr = []) :
    tr.countP isRefused = 0 := by
  refine List.countP_eq_zero.mpr fun ev hev hrefused => ?_
  have hnone := List.filterMap_eq_nil_iff.mp h ev hev
  obtain ⟨e, r⟩ := ev
  cases e with
  | sendNotification notifier n => cases hnone
  | _ => cases hrefused

theorem exists_of_attempted {ev : PyEvent P} {n : Notification P} (h : attempted ev = some n) :
    ∃ notifier answer, ev = ⟨.sendNotification notifier n, answer⟩ := by
  obtain ⟨e, r⟩ := ev
  cases e with
  | sendNotification notifier m =>
    cases h
    exact ⟨notifier, r, rfl⟩
  | _ => cases h

/-- Nothing on the trace is seen by a plugin or by the broker. -/
def Quiet (tr : PyTrace P) : Prop := ∀ ev ∈ tr, ev.1.Silent

@[simp] theorem quiet_nil : Quiet ([] : PyTrace P) := by simp [Quiet]

@[simp] theorem quiet_cons {ev : PyEvent P} {tr : PyTrace P} :
    Quiet (ev :: tr) ↔ ev.1.Silent ∧ Quiet tr := by
  simp [Quiet]

@[simp] theorem quiet_append {tr₁ tr₂ : PyTrace P} :
    Quiet (tr₁ ++ tr₂) ↔ Quiet tr₁ ∧ Quiet tr₂ := by
  simp [Quiet, or_imp, forall_and]

theorem attempted_of_silent {ev : PyEvent P} (h : ev.1.Silent) : attempted ev = none := by
  obtain ⟨e, r⟩ := ev
  cases e <;> first | rfl | cases h

theorem Quiet.sends {tr : PyTrace P} (h : Quiet tr) : sends tr = [] :=
  List.filterMap_eq_nil_iff.mpr fun ev hev => attempted_of_silent (h ev hev)

theorem Quiet.deliveries {tr : PyTrace P} (h : Quiet tr) : deliveries tr = [] := by
  refine List.filterMap_eq_nil_iff.mpr fun ev hev => ?_
  cases hd : delivered ev with
  | none => rfl
  | some n =>
    have hatt := attempted_of_delivered hd
    rw [attempted_of_silent (h ev hev)] at hatt
    cases hatt

theorem Quiet.publications {tr : PyTrace P} (h : Quiet tr) : publications tr = [] :=
  List.flatMap_eq_nil_iff.mpr fun ev hev => (h ev hev).local.published

theorem Quiet.isCommit {tr : PyTrace P} (h : Quiet tr) : ∀ ev ∈ tr, ev.1.isCommit = false :=
  fun ev hev => (h ev hev).local.isCommit

/-- The effects of a send: the clock, the plugins and the counters. -/
def Effect.Sends : Effect P → Prop
  | .time => True
  | .sendNotification _ _ => True
  | .increment _ _ => True
  | _ => False

theorem Effect.Sends.local {e : Effect P} (h : e.Sends) : e.Local := by
  cases e <;> trivial

/-! ## One plugin call -/

theorem uses_sendSingleNotification (notifier : Notifier) (n : Notification P) :
    Uses Effect.Sends (sendSingleNotification notifier n) :=
  uses_tryCatch ⟨trivial, fun _ => by simp⟩ fun _ => trivial

/-- A plugin call always comes back, with a value that is true when the plugin accepted. -/
theorem runs_sendSingleNotification {notifier : Notifier} {n : Notification P} {tr : PyTrace P}
    {out : Except PyExn Json} (h : Runs (sendSingleNotification notifier n) tr out) :
    ∃ answer v, tr = [⟨.sendNotification notifier n, answer⟩] ∧ out = .ok v ∧
      v.truthy = accepted answer := by
  rcases runs_tryCatch.mp h with ⟨v, rfl, answer, tr', rfl, hrun⟩ |
    ⟨tr₁, tr₂, x, rfl, ⟨answer, tr', rfl, hrun⟩, htr, rfl⟩
  · rw [runs_ofExcept] at hrun
    obtain ⟨rfl, hv⟩ := hrun
    exact ⟨answer, v, rfl, rfl, by rw [← hv, accepted]⟩
  · rw [runs_ofExcept] at hrun
    obtain ⟨rfl, hx⟩ := hrun
    subst htr
    exact ⟨answer, .bool false, rfl, rfl, by rw [← hx, accepted, Json.truthy]⟩

/-! ## The loop -/

/--
`Dispatch T ns tr sent failed invalid`: the notifications `ns`, handled along `tr`, ended in
these three lists. A notification that was handed to a plugin carries the time of the call.
-/
inductive Dispatch (T : Notifiers) : List (Notification P) → PyTrace P →
    List (Notification P) → List (Notification P) → List (Notification P) → Prop where
  | nil : Dispatch T [] [] [] [] []
  | invalid {n ns tr sent failed invalid} : T.find? n.type = none →
      Dispatch T ns tr sent failed invalid →
      Dispatch T (n :: ns) tr sent failed (n :: invalid)
  | sent {n ns tr sent failed invalid notifier now answer counter} :
      T.find? n.type = some notifier → accepted answer = true →
      Dispatch T ns tr sent failed invalid →
      Dispatch T (n :: ns)
        (⟨.time, now⟩ :: ⟨.sendNotification notifier (n.stamp now), answer⟩ ::
          ⟨.increment counter 1, ()⟩ :: tr)
        (n.stamp now :: sent) failed invalid
  | failed {n ns tr sent failed invalid notifier now answer} :
      T.find? n.type = some notifier → accepted answer = false →
      Dispatch T ns tr sent failed invalid →
      Dispatch T (n :: ns)
        (⟨.time, now⟩ :: ⟨.sendNotification notifier (n.stamp now), answer⟩ :: tr)
        sent (n.stamp now :: failed) invalid

theorem uses_sendNotifications (T : Notifiers) (ns : List (Notification P)) :
    Uses Effect.Sends (sendNotifications T ns) := by
  induction ns with
  | nil => trivial
  | cons n ns ih =>
    unfold sendNotifications
    refine uses_bind (by simp) fun _ => ?_
    split
    · exact uses_bind ih fun _ => trivial
    · refine uses_bind ⟨trivial, fun _ => trivial⟩ fun now => ?_
      refine uses_bind (uses_sendSingleNotification _ _) fun result => ?_
      split
      · refine uses_bind (by simp) fun counter => ?_
        refine uses_bind ⟨trivial, fun _ => trivial⟩ fun _ => ?_
        exact uses_bind ih fun _ => trivial
      · exact uses_bind ih fun _ => trivial

/-- The counter of a notification type. -/
def Notifiers.counter? (T : Notifiers) (ntype : Json) : Option String :=
  match ntype with
  | .str t => T.statsdCounter.lookup t
  | _ => none

/-- What the loop reads for the counter, outside of the guard. -/
theorem Notifiers.counter?_of_ok {T : Notifiers} {ntype : Json} {counter : String}
    (h : (Except.ok counter : Except PyExn String) = match ntype with
      | .str t => (T.statsdCounter.lookup t).elim (.error (.keyError t)) .ok
      | _ => .error .typeError) : T.counter? ntype = some counter := by
  cases ntype with
  | str t =>
    show T.statsdCounter.lookup t = some counter
    dsimp only at h
    cases hlookup : T.statsdCounter.lookup t with
    | none =>
      rw [hlookup] at h
      cases h
    | some c =>
      rw [hlookup] at h
      cases h
      rfl
  | _ => cases h

/-- One turn of the loop, for `n`, with a run of the turns for `ns` after it. -/
inductive Turn (T : Notifiers) (n : Notification P) (ns : List (Notification P)) :
    PyTrace P → List (Notification P) → List (Notification P) → List (Notification P) → Prop where
  | invalid {tr sent failed invalid} : T.find? n.type = none →
      Runs (sendNotifications T ns) tr (.ok (sent, failed, invalid)) →
      Turn T n ns tr sent failed (n :: invalid)
  | sent {tr sent failed invalid notifier now answer counter} :
      T.find? n.type = some notifier → accepted answer = true →
      T.counter? n.type = some counter →
      Runs (sendNotifications T ns) tr (.ok (sent, failed, invalid)) →
      Turn T n ns
        (⟨.time, now⟩ :: ⟨.sendNotification notifier (n.stamp now), answer⟩ ::
          ⟨.increment counter 1, ()⟩ :: tr)
        (n.stamp now :: sent) failed invalid
  | failed {tr sent failed invalid notifier now answer} :
      T.find? n.type = some notifier → accepted answer = false →
      Runs (sendNotifications T ns) tr (.ok (sent, failed, invalid)) →
      Turn T n ns
        (⟨.time, now⟩ :: ⟨.sendNotification notifier (n.stamp now), answer⟩ :: tr)
        sent (n.stamp now :: failed) invalid

theorem runs_sendNotifications_cons {T : Notifiers} {n : Notification P}
    {ns : List (Notification P)} {tr : PyTrace P} {sent failed invalid : List (Notification P)}
    (h : Runs (sendNotifications T (n :: ns)) tr (.ok (sent, failed, invalid))) :
    Turn T n ns tr sent failed invalid := by
  unfold sendNotifications at h
  replace h := runs_bind_ok.mp h
  obtain ⟨tr₀, tr₁, u, rfl, h₀, h⟩ := h
  rw [runs_ofExcept] at h₀
  obtain ⟨rfl, -⟩ := h₀
  rw [List.nil_append]
  split at h
  · next hfind =>
    obtain ⟨tr₂, tr₃, ⟨s, f, i⟩, rfl, hrest, rfl, hout⟩ := runs_bind_ok.mp h
    cases hout
    rw [List.append_nil]
    exact .invalid hfind hrest
  · next notifier hfind =>
    replace h := runs_bind_ok.mp h
    obtain ⟨tr₂, tr₃, now, rfl, ⟨t, tr₂', rfl, rfl, hnow⟩, h⟩ := h
    cases hnow
    replace h := runs_bind_ok.mp h
    obtain ⟨tr₄, tr₅, result, rfl, hone, h⟩ := h
    obtain ⟨answer, v, rfl, hv, hacc⟩ := runs_sendSingleNotification hone
    cases hv
    split at h
    · next htrue =>
      replace h := runs_bind_ok.mp h
      obtain ⟨tr₆, tr₇, counter, rfl, h₆, h⟩ := h
      rw [runs_ofExcept] at h₆
      obtain ⟨rfl, hcounter⟩ := h₆
      replace h := runs_bind_ok.mp h
      obtain ⟨tr₈, tr₉, u', rfl, ⟨_, tr₈', rfl, rfl, -⟩, h⟩ := h
      obtain ⟨tr₁₀, tr₁₁, ⟨s, f, i⟩, rfl, hrest, rfl, hout⟩ := runs_bind_ok.mp h
      cases hout
      simpa using Turn.sent hfind (hacc ▸ htrue) (Notifiers.counter?_of_ok hcounter) hrest
    · next hfalse =>
      obtain ⟨tr₆, tr₇, ⟨s, f, i⟩, rfl, hrest, rfl, hout⟩ := runs_bind_ok.mp h
      cases hout
      have hans : accepted answer = false := by rw [← hacc]; simpa using hfalse
      simpa using Turn.failed hfind hans hrest

/-- **What `send_notifications` does.** A complete run of the loop is a dispatch. -/
theorem runs_sendNotifications {T : Notifiers} {ns : List (Notification P)} {tr : PyTrace P}
    {sent failed invalid : List (Notification P)}
    (h : Runs (sendNotifications T ns) tr (.ok (sent, failed, invalid))) :
    Dispatch T ns tr sent failed invalid := by
  induction ns generalizing tr sent failed invalid with
  | nil =>
    obtain ⟨rfl, h⟩ := h
    cases h
    exact .nil
  | cons n ns ih =>
    cases runs_sendNotifications_cons h with
    | invalid hfind hrest => exact .invalid hfind (ih hrest)
    | sent hfind hacc _ hrest => exact .sent hfind hacc (ih hrest)
    | failed hfind hacc hrest => exact .failed hfind hacc (ih hrest)

namespace Dispatch

variable {T : Notifiers} {ns : List (Notification P)} {tr : PyTrace P}
  {sent failed invalid : List (Notification P)}

/-- The list `sent` holds exactly what the plugins accepted. -/
theorem deliveries (h : Dispatch T ns tr sent failed invalid) : deliveries tr = sent := by
  induction h with
  | nil => rfl
  | invalid _ _ ih => exact ih
  | sent _ hacc _ ih => simp [deliveries_cons, delivered, hacc, ih]
  | failed _ hacc _ ih => simp [deliveries_cons, delivered, hacc, ih]

/-- The list `failed` has one entry for each call that was not accepted. -/
theorem countP_isRefused (h : Dispatch T ns tr sent failed invalid) :
    tr.countP isRefused = failed.length := by
  induction h with
  | nil => rfl
  | invalid _ _ ih => exact ih
  | sent _ hacc _ ih => simp [isRefused, hacc, ih]
  | failed _ hacc _ ih => simp [isRefused, hacc, ih]

theorem isLocal (h : Dispatch T ns tr sent failed invalid) : ∀ ev ∈ tr, ev.1.Local := by
  induction h with
  | nil => simp
  | invalid _ _ ih => exact ih
  | sent _ _ _ ih => simpa [Effect.Local] using ih
  | failed _ _ _ ih => simpa [Effect.Local] using ih

theorem publications (h : Dispatch T ns tr sent failed invalid) : publications tr = [] :=
  List.flatMap_eq_nil_iff.mpr fun ev hev => (h.isLocal ev hev).published

theorem isQuery (h : Dispatch T ns tr sent failed invalid) : ∀ ev ∈ tr, ev.1.isQuery = false := by
  induction h with
  | nil => simp
  | invalid _ _ ih => exact ih
  | sent _ _ _ ih => simpa [Effect.isQuery] using ih
  | failed _ _ _ ih => simpa [Effect.isQuery] using ih

/-- Each notification ends in one of the three lists. -/
theorem of_mem (h : Dispatch T ns tr sent failed invalid) {n : Notification P} (hn : n ∈ ns) :
    (∃ now, n.stamp now ∈ sent) ∨ (∃ now, n.stamp now ∈ failed) ∨ T.find? n.type = none := by
  induction h with
  | nil => cases hn
  | invalid hfind _ ih =>
    rcases List.mem_cons.mp hn with rfl | hn
    · exact Or.inr (Or.inr hfind)
    · exact ih hn
  | @sent m _ _ _ _ _ _ now _ _ _ _ _ ih =>
    rcases List.mem_cons.mp hn with rfl | hn
    · exact Or.inl ⟨now, List.mem_cons_self⟩
    · rcases ih hn with ⟨t, ht⟩ | hrest
      · exact Or.inl ⟨t, List.mem_cons_of_mem _ ht⟩
      · exact Or.inr hrest
  | @failed m _ _ _ _ _ _ now _ _ _ _ ih =>
    rcases List.mem_cons.mp hn with rfl | hn
    · exact Or.inr (Or.inl ⟨now, List.mem_cons_self⟩)
    · rcases ih hn with hsent | ⟨t, ht⟩ | hrest
      · exact Or.inl hsent
      · exact Or.inr (Or.inl ⟨t, List.mem_cons_of_mem _ ht⟩)
      · exact Or.inr (Or.inr hrest)

/-- What failed has a plugin, and carries the time that was read right before its call. -/
theorem of_mem_failed (h : Dispatch T ns tr sent failed invalid) {m : Notification P}
    (hm : m ∈ failed) : ∃ n ∈ ns, T.find? n.type ≠ none ∧
      ∃ now, (⟨.time, now⟩ : PyEvent P) ∈ tr ∧ m = n.stamp now := by
  induction h with
  | nil => cases hm
  | invalid _ _ ih =>
    obtain ⟨n, hn, hrest⟩ := ih hm
    exact ⟨n, List.mem_cons_of_mem _ hn, hrest⟩
  | sent _ _ _ ih =>
    obtain ⟨n, hn, hfind, now, hnow, rfl⟩ := ih hm
    exact ⟨n, List.mem_cons_of_mem _ hn, hfind, now, by simp [hnow], rfl⟩
  | @failed n _ _ _ _ _ _ now _ hfind _ _ ih =>
    rcases List.mem_cons.mp hm with rfl | hm
    · exact ⟨n, List.mem_cons_self, by simp [hfind], now, by simp, rfl⟩
    · obtain ⟨n', hn', hfind', now', hnow', rfl⟩ := ih hm
      exact ⟨n', List.mem_cons_of_mem _ hn', hfind', now', by simp [hnow'], rfl⟩

/-- What was sent is of the list, and its plugin accepted it in just this form. -/
theorem call_of_mem_sent (h : Dispatch T ns tr sent failed invalid) {m : Notification P}
    (hm : m ∈ sent) : (∃ n ∈ ns, ∃ now, m = n.stamp now) ∧
      ∃ notifier answer, T.find? m.type = some notifier ∧ accepted answer = true ∧
        (⟨.sendNotification notifier m, answer⟩ : PyEvent P) ∈ tr := by
  induction h with
  | nil => cases hm
  | invalid _ _ ih =>
    obtain ⟨⟨n, hn, hrest⟩, hcall⟩ := ih hm
    exact ⟨⟨n, List.mem_cons_of_mem _ hn, hrest⟩, hcall⟩
  | @sent n _ _ _ _ _ notifier now answer _ hfind hacc _ ih =>
    rcases List.mem_cons.mp hm with rfl | hm
    · exact ⟨⟨n, List.mem_cons_self, now, rfl⟩, notifier, answer, hfind, hacc, by simp⟩
    · obtain ⟨⟨n', hn', hrest⟩, notifier', answer', hfind', hacc', hmem⟩ := ih hm
      exact ⟨⟨n', List.mem_cons_of_mem _ hn', hrest⟩, notifier', answer', hfind', hacc',
        by simp [hmem]⟩
  | failed _ _ _ ih =>
    obtain ⟨⟨n, hn, hrest⟩, notifier, answer, hfind, hacc, hmem⟩ := ih hm
    exact ⟨⟨n, List.mem_cons_of_mem _ hn, hrest⟩, notifier, answer, hfind, hacc, by simp [hmem]⟩

/-- What failed was handed to its plugin in just this form, and was not accepted. -/
theorem call_of_mem_failed (h : Dispatch T ns tr sent failed invalid) {m : Notification P}
    (hm : m ∈ failed) : ∃ notifier answer, T.find? m.type = some notifier ∧
      accepted answer = false ∧ (⟨.sendNotification notifier m, answer⟩ : PyEvent P) ∈ tr := by
  induction h with
  | nil => cases hm
  | invalid _ _ ih => exact ih hm
  | sent _ _ _ ih =>
    obtain ⟨notifier, answer, hfind, hacc, hmem⟩ := ih hm
    exact ⟨notifier, answer, hfind, hacc, by simp [hmem]⟩
  | @failed n _ _ _ _ _ notifier now answer hfind hacc _ ih =>
    rcases List.mem_cons.mp hm with rfl | hm
    · exact ⟨notifier, answer, hfind, hacc, by simp⟩
    · obtain ⟨notifier', answer', hfind', hacc', hmem⟩ := ih hm
      exact ⟨notifier', answer', hfind', hacc', by simp [hmem]⟩

/-- A plugin is called with a notification of the list, right after its time was read. -/
theorem of_call (h : Dispatch T ns tr sent failed invalid) {before after : PyTrace P}
    {notifier : Notifier} {n : Notification P} {answer : Except PyExn Json}
    (hsplit : tr = before ++ ⟨.sendNotification notifier n, answer⟩ :: after) :
    ∃ n₀ ∈ ns, ∃ now, n = n₀.stamp now ∧ (⟨.time, now⟩ : PyEvent P) ∈ before := by
  induction h generalizing before with
  | nil => simp at hsplit
  | invalid _ _ ih =>
    obtain ⟨n₀, hn₀, hrest⟩ := ih hsplit
    exact ⟨n₀, List.mem_cons_of_mem _ hn₀, hrest⟩
  | @sent m _ _ _ _ _ _ now _ _ _ _ _ ih =>
    match before, hsplit with
    | [_], hsplit =>
      cases hsplit
      exact ⟨m, List.mem_cons_self, now, rfl, by simp⟩
    | [_, _], hsplit => cases hsplit
    | _ :: _ :: _ :: before, hsplit =>
      simp only [List.cons_append, List.cons.injEq] at hsplit
      obtain ⟨n₀, hn₀, t, hn, ht⟩ := ih hsplit.2.2.2
      exact ⟨n₀, List.mem_cons_of_mem _ hn₀, t, hn, by simp [ht]⟩
  | @failed m _ _ _ _ _ _ now _ _ _ _ ih =>
    match before, hsplit with
    | [_], hsplit =>
      cases hsplit
      exact ⟨m, List.mem_cons_self, now, rfl, by simp⟩
    | _ :: _ :: before, hsplit =>
      simp only [List.cons_append, List.cons.injEq] at hsplit
      obtain ⟨n₀, hn₀, t, hn, ht⟩ := ih hsplit.2.2
      exact ⟨n₀, List.mem_cons_of_mem _ hn₀, t, hn, by simp [ht]⟩

/-- The plugins get the notifications of the list in its order, each at most once. -/
theorem map_id_sends (h : Dispatch T ns tr sent failed invalid) :
    ((sends tr).map (·.id)).Sublist (ns.map (·.id)) := by
  induction h with
  | nil => exact List.Sublist.refl _
  | invalid _ _ ih => exact ih.cons _
  | sent _ _ _ ih => simpa [sends_cons, attempted] using ih
  | failed _ _ _ ih => simpa [sends_cons, attempted] using ih

theorem mem_sends_of_mem_failed (h : Dispatch T ns tr sent failed invalid)
    {m : Notification P} (hm : m ∈ failed) : m ∈ sends tr := by
  induction h with
  | nil => cases hm
  | invalid _ _ ih => exact ih hm
  | sent _ _ _ ih => simpa [sends_cons, attempted] using Or.inr (ih hm)
  | failed _ _ _ ih =>
    rcases List.mem_cons.mp hm with rfl | hm
    · simp [sends_cons, attempted]
    · simpa [sends_cons, attempted] using Or.inr (ih hm)

end Dispatch

/-! ## No exceptions -/

section Ensures

variable {Adm : (e : Effect P) → e.Answer → Prop}

theorem ensures_sendSingleNotification (notifier : Notifier) (n : Notification P) :
    Ensures Adm (sendSingleNotification notifier n) fun out => ∃ v, out = .ok v := by
  intro tr out _ h
  obtain ⟨_, v, -, hout, -⟩ := runs_sendSingleNotification h
  exact ⟨v, hout⟩

/-- The counter of a type that has a plugin. -/
theorem Notifiers.exists_counter {T : Notifiers} {ntype : Json} {notifier : Notifier}
    (h : T.find? ntype = some notifier) :
    ∃ t counter, ntype = .str t ∧ T.statsdCounter.lookup t = some counter := by
  cases ntype with
  | str t =>
    have hkeys := T.same_keys t
    rw [show T.configured.lookup t = some notifier from h] at hkeys
    obtain ⟨counter, hcounter⟩ := Option.isSome_iff_exists.mp hkeys.symm
    exact ⟨t, counter, rfl, hcounter⟩
  | _ => cases h

/-- The loop raises nothing, as no type in the list is itself a list or a dict. -/
theorem ensures_sendNotifications (T : Notifiers) {ns : List (Notification P)}
    (h : ∀ n ∈ ns, hashable n.type = .ok ()) :
    Ensures Adm (sendNotifications T ns) fun out => ∃ lists, out = .ok lists := by
  induction ns with
  | nil => exact ensures_ret ⟨_, rfl⟩
  | cons n ns ih =>
    have ih := ih fun m hm => h m (List.mem_cons_of_mem _ hm)
    have hrest : ∀ f : _ → List (Notification P) × List (Notification P) × List (Notification P),
        Ensures Adm ((sendNotifications T ns).bind fun lists => .ret (f lists))
          fun out => ∃ lists, out = .ok lists :=
      fun f => ih.bind (fun _ _ => ensures_ret ⟨_, rfl⟩) (by rintro _ ⟨_, hx⟩; cases hx)
    unfold sendNotifications
    refine Ensures.bind (Q := fun out => out = .ok ())
      (ensures_ofExcept (h n List.mem_cons_self)) ?_ (by rintro _ hx; cases hx)
    intro _ _
    split
    · exact hrest fun lists => (lists.1, lists.2.1, n :: lists.2.2)
    · next notifier hfind =>
      refine ensures_perform fun now _ => ?_
      refine (ensures_sendSingleNotification _ _).bind ?_ (by rintro _ ⟨_, hx⟩; cases hx)
      intro result _
      split
      · obtain ⟨t, counter, htype, hcounter⟩ := Notifiers.exists_counter hfind
        refine Ensures.bind (Q := fun out => out = .ok counter) (ensures_ofExcept ?_) ?_
          (by rintro _ hx; cases hx)
        · rw [Notification.stamp_type, htype]
          dsimp only
          rw [hcounter]
          rfl
        · intro _ _
          exact ensures_perform fun _ _ =>
            hrest fun lists => (n.stamp now :: lists.1, lists.2.1, lists.2.2)
      · exact hrest fun lists => (lists.1, n.stamp now :: lists.2.1, lists.2.2)

end Ensures

/-! ## `send` -/

theorem uses_send (T : Notifiers) (ns : List (Notification P)) :
    Uses Effect.Sends (send T ns) := by
  unfold send
  refine uses_bind (uses_sendNotifications T ns) fun ⟨sent, failed, invalid⟩ => ?_
  dsimp only
  split
  · refine uses_bind ⟨trivial, fun _ => trivial⟩ fun _ => ?_
    split
    · exact uses_bind ⟨trivial, fun _ => trivial⟩ fun _ => trivial
    · trivial
  · split
    · exact uses_bind ⟨trivial, fun _ => trivial⟩ fun _ => trivial
    · trivial

/-- `send` along `tr`: the loop, and then the two counters. -/
def Handled (T : Notifiers) (ns : List (Notification P)) (tr : PyTrace P)
    (sent failed : List (Notification P)) : Prop :=
  ∃ tr₁ tr₂ invalid, tr = tr₁ ++ tr₂ ∧ Dispatch T ns tr₁ sent failed invalid ∧
    ∀ ev ∈ tr₂, ev.1.Counts

theorem runs_send {T : Notifiers} {ns : List (Notification P)} {tr : PyTrace P}
    {sent failed : List (Notification P)} (h : Runs (send T ns) tr (.ok (sent, failed))) :
    Handled T ns tr sent failed := by
  unfold send at h
  replace h := runs_bind_ok.mp h
  obtain ⟨tr₁, tr₂, ⟨s, f, i⟩, rfl, hloop, h⟩ := h
  have hloop := runs_sendNotifications hloop
  have hcount : ∀ {counter value} {tr : PyTrace P} {out},
      Runs (Py.increment counter value : Py P Unit) tr out → ∀ ev ∈ tr, ev.1.Counts :=
    fun hrun => (Py.counts_increment _ _).runs hrun
  dsimp only at h
  split at h
  · obtain ⟨tr₃, tr₄, _, rfl, h₃, h⟩ := runs_bind_ok.mp h
    split at h
    · obtain ⟨tr₅, tr₆, _, rfl, h₅, rfl, hout⟩ := runs_bind_ok.mp h
      cases hout
      refine ⟨tr₁, _, i, rfl, hloop, fun ev hev => ?_⟩
      rw [List.append_nil] at hev
      exact (List.mem_append.mp hev).elim (hcount h₃ ev) (hcount h₅ ev)
    · obtain ⟨rfl, hout⟩ := h
      cases hout
      exact ⟨tr₁, _, i, rfl, hloop, by simpa using hcount h₃⟩
  · split at h
    · obtain ⟨tr₅, tr₆, _, rfl, h₅, rfl, hout⟩ := runs_bind_ok.mp h
      cases hout
      exact ⟨tr₁, _, i, rfl, hloop, by simpa using hcount h₅⟩
    · obtain ⟨rfl, hout⟩ := h
      cases hout
      exact ⟨tr₁, _, i, rfl, hloop, by simp⟩

theorem ensures_send {Adm : (e : Effect P) → e.Answer → Prop} (T : Notifiers)
    {ns : List (Notification P)} (h : ∀ n ∈ ns, hashable n.type = .ok ()) :
    Ensures Adm (send T ns) fun out => ∃ lists, out = .ok lists := by
  unfold send
  refine (ensures_sendNotifications T h).bind ?_ (by rintro _ ⟨_, hx⟩; cases hx)
  rintro ⟨sent, failed, invalid⟩ -
  dsimp only
  have hinvalid : Ensures Adm (if invalid ≠ [] then
      (Py.increment "invalid_type_count" invalid.length).bind fun _ => .ret (sent, failed)
      else .ret (sent, failed)) fun out => ∃ lists, out = .ok lists := by
    split
    · exact ensures_perform fun _ _ => ensures_ret ⟨_, rfl⟩
    · exact ensures_ret ⟨_, rfl⟩
  split
  · exact ensures_perform fun _ _ => hinvalid
  · exact hinvalid

namespace Handled

variable {T : Notifiers} {ns : List (Notification P)} {tr : PyTrace P}
  {sent failed : List (Notification P)}

/-- What comes after the loop is not seen by a plugin or by the broker. -/
theorem split (h : Handled T ns tr sent failed) : ∃ tr₁ tr₂ invalid, tr = tr₁ ++ tr₂ ∧
    Dispatch T ns tr₁ sent failed invalid ∧ Quiet tr₂ := by
  obtain ⟨tr₁, tr₂, invalid, rfl, hd, hc⟩ := h
  exact ⟨tr₁, tr₂, invalid, rfl, hd, fun ev hev => (hc ev hev).silent⟩

theorem isQuery (h : Handled T ns tr sent failed) : ∀ ev ∈ tr, ev.1.isQuery = false := by
  obtain ⟨tr₁, tr₂, invalid, rfl, hd, hc⟩ := h
  intro ev hev
  rcases List.mem_append.mp hev with hev | hev
  · exact hd.isQuery ev hev
  · exact (hc ev hev).isQuery

theorem deliveries (h : Handled T ns tr sent failed) : deliveries tr = sent := by
  obtain ⟨tr₁, tr₂, invalid, rfl, hd, hq⟩ := h.split
  rw [deliveries_append, hd.deliveries, hq.deliveries, List.append_nil]

theorem countP_isRefused (h : Handled T ns tr sent failed) :
    tr.countP isRefused = failed.length := by
  obtain ⟨tr₁, tr₂, invalid, rfl, hd, hq⟩ := h.split
  rw [List.countP_append, hd.countP_isRefused, countP_isRefused_eq_zero hq.sends, Nat.add_zero]

theorem publications (h : Handled T ns tr sent failed) : publications tr = [] := by
  obtain ⟨tr₁, tr₂, invalid, rfl, hd, hq⟩ := h.split
  rw [publications_append, hd.publications, hq.publications, List.append_nil]

theorem isCommit (h : Handled T ns tr sent failed) : ∀ ev ∈ tr, ev.1.isCommit = false := by
  obtain ⟨tr₁, tr₂, invalid, rfl, hd, hq⟩ := h.split
  intro ev hev
  rcases List.mem_append.mp hev with hev | hev
  · exact (hd.isLocal ev hev).isCommit
  · exact hq.isCommit ev hev

theorem of_mem (h : Handled T ns tr sent failed) {n : Notification P} (hn : n ∈ ns) :
    (∃ now, n.stamp now ∈ sent) ∨ (∃ now, n.stamp now ∈ failed) ∨ T.find? n.type = none := by
  obtain ⟨tr₁, tr₂, invalid, rfl, hd, -⟩ := h
  exact hd.of_mem hn

theorem of_mem_failed (h : Handled T ns tr sent failed) {m : Notification P}
    (hm : m ∈ failed) : ∃ n ∈ ns, T.find? n.type ≠ none ∧
      ∃ now, (⟨.time, now⟩ : PyEvent P) ∈ tr ∧ m = n.stamp now := by
  obtain ⟨tr₁, tr₂, invalid, rfl, hd, -⟩ := h
  obtain ⟨n, hn, hfind, now, hnow, rfl⟩ := hd.of_mem_failed hm
  exact ⟨n, hn, hfind, now, List.mem_append_left _ hnow, rfl⟩

theorem call_of_mem_sent (h : Handled T ns tr sent failed) {m : Notification P}
    (hm : m ∈ sent) : (∃ n ∈ ns, ∃ now, m = n.stamp now) ∧
      ∃ notifier answer, T.find? m.type = some notifier ∧ accepted answer = true ∧
        (⟨.sendNotification notifier m, answer⟩ : PyEvent P) ∈ tr := by
  obtain ⟨tr₁, tr₂, invalid, rfl, hd, -⟩ := h
  obtain ⟨hn, notifier, answer, hfind, hacc, hmem⟩ := hd.call_of_mem_sent hm
  exact ⟨hn, notifier, answer, hfind, hacc, List.mem_append_left _ hmem⟩

theorem call_of_mem_failed (h : Handled T ns tr sent failed) {m : Notification P}
    (hm : m ∈ failed) : ∃ notifier answer, T.find? m.type = some notifier ∧
      accepted answer = false ∧ (⟨.sendNotification notifier m, answer⟩ : PyEvent P) ∈ tr := by
  obtain ⟨tr₁, tr₂, invalid, rfl, hd, -⟩ := h
  obtain ⟨notifier, answer, hfind, hacc, hmem⟩ := hd.call_of_mem_failed hm
  exact ⟨notifier, answer, hfind, hacc, List.mem_append_left _ hmem⟩

/-- The object of a send of one notification has the time read in the send, if any. -/
theorem time_of_headD {n : Notification P} {now now' : Rat}
    (h : Handled T [n.stamp now] tr sent failed)
    (heq : (sent ++ failed).headD (n.stamp now) = n.stamp now') :
    now' = now ∨ (⟨.time, now'⟩ : PyEvent P) ∈ tr := by
  have hstamp : ∀ {t : Rat}, n.stamp t = n.stamp now' → now' = t := by
    intro t ht
    have hts := congrArg Notification.notificationTimestamp ht
    simpa using hts.symm
  obtain ⟨tr₁, tr₂, invalid, rfl, hd, -⟩ := h
  cases hd with
  | invalid _ hrest =>
    cases hrest
    exact Or.inl (hstamp heq)
  | @sent _ _ _ _ _ _ _ t _ _ _ _ hrest =>
    cases hrest
    rw [hstamp (t := t) heq]
    exact Or.inr (by simp)
  | @failed _ _ _ _ _ _ _ t _ _ _ hrest =>
    cases hrest
    rw [hstamp (t := t) heq]
    exact Or.inr (by simp)

/-- One notification: no plugin for its type, or one call that was accepted or not. -/
theorem singleton {n : Notification P} (h : Handled T [n] tr sent failed) :
    (T.find? n.type = none ∧ sent = [] ∧ failed = [] ∧ sends tr = []) ∨
      ∃ notifier now, T.find? n.type = some notifier ∧ sends tr = [n.stamp now] ∧
        (sent = [n.stamp now] ∧ failed = [] ∨ sent = [] ∧ failed = [n.stamp now]) := by
  obtain ⟨tr₁, tr₂, invalid, rfl, hd, hq⟩ := h.split
  rw [sends_append, hq.sends, List.append_nil]
  cases hd with
  | invalid hfind hrest =>
    cases hrest
    exact Or.inl ⟨hfind, rfl, rfl, rfl⟩
  | @sent _ _ _ _ _ _ notifier now _ _ hfind _ hrest =>
    cases hrest
    exact Or.inr ⟨notifier, now, hfind, rfl, Or.inl ⟨rfl, rfl⟩⟩
  | @failed _ _ _ _ _ _ notifier now _ hfind _ hrest =>
    cases hrest
    exact Or.inr ⟨notifier, now, hfind, rfl, Or.inr ⟨rfl, rfl⟩⟩

theorem of_invalid {n : Notification P} (h : Handled T [n] tr [] []) :
    T.find? n.type = none ∧ sends tr = [] := by
  rcases h.singleton with ⟨hfind, -, -, hsends⟩ | ⟨_, _, -, -, ⟨h, -⟩ | ⟨-, h⟩⟩
  · exact ⟨hfind, hsends⟩
  · cases h
  · cases h

theorem of_sent {n m : Notification P} (h : Handled T [n] tr [m] []) :
    T.find? n.type ≠ none ∧ sends tr = [m] ∧ ∃ now, m = n.stamp now := by
  rcases h.singleton with ⟨-, h, -⟩ | ⟨notifier, now, hfind, hsends, ⟨h, -⟩ | ⟨h, -⟩⟩
  · cases h
  · cases h
    exact ⟨by simp [hfind], hsends, now, rfl⟩
  · cases h

theorem of_failed {n m : Notification P} (h : Handled T [n] tr [] [m]) :
    T.find? n.type ≠ none ∧ sends tr = [m] ∧ ∃ now, m = n.stamp now := by
  rcases h.singleton with ⟨-, -, h, -⟩ | ⟨notifier, now, hfind, hsends, ⟨-, h⟩ | ⟨-, h⟩⟩
  · cases h
  · cases h
  · cases h
    exact ⟨by simp [hfind], hsends, now, rfl⟩

end Handled

/-- The only plugin call of a send of one notification comes right after its time stamp. -/
theorem performs_send_singleton {T : Notifiers} {n : Notification P} {tr : PyTrace P}
    {e : Effect P} (h : Performs (send T [n]) tr e) :
    e.Silent ∨ ∃ notifier now, T.find? n.type = some notifier ∧ tr = [⟨.time, now⟩] ∧
      e = .sendNotification notifier (n.stamp now) := by
  have hcount : ∀ {counter value} {tr : PyTrace P},
      Performs (Py.increment counter value : Py P Unit) tr e → e.Silent :=
    fun hperf => (Py.uses_increment _ _).performs hperf
  unfold send at h
  replace h := performs_bind.mp h
  rcases h with h | ⟨_, _, ⟨sent, failed, invalid⟩, -, -, h⟩
  · unfold sendNotifications at h
    replace h := performs_bind.mp h
    rcases h with h | ⟨tr₁, tr₂, _, rfl, h₁, h⟩
    · exact absurd h performs_ofExcept
    · rw [runs_ofExcept] at h₁
      obtain ⟨rfl, -⟩ := h₁
      split at h
      · replace h := performs_bind.mp h
        rcases h with h | ⟨_, _, _, -, -, h⟩ <;> cases h
      · next notifier hfind =>
        replace h := performs_bind.mp h
        rcases h with h | ⟨tr₃, tr₄, now, rfl, ⟨t, _, rfl, rfl, hnow⟩, h⟩
        · exact Or.inl (Py.uses_time.performs h)
        · cases hnow
          replace h := performs_bind.mp h
          rcases h with h | ⟨tr₅, tr₆, result, rfl, -, h⟩
          · obtain ⟨rfl, rfl⟩ : tr₄ = [] ∧ e = .sendNotification notifier (n.stamp now) := by
              rcases h with h | ⟨answer, tr', -, h⟩
              · exact h
              · cases answer <;> cases h
            exact Or.inr ⟨notifier, now, hfind, rfl, rfl⟩
          · split at h
            · replace h := performs_bind.mp h
              rcases h with h | ⟨_, _, counter, -, -, h⟩
              · exact absurd h performs_ofExcept
              · replace h := performs_bind.mp h
                rcases h with h | ⟨_, _, _, -, -, h⟩
                · exact Or.inl (hcount h)
                · replace h := performs_bind.mp h
                  rcases h with h | ⟨_, _, _, -, -, h⟩ <;> cases h
            · replace h := performs_bind.mp h
              rcases h with h | ⟨_, _, _, -, -, h⟩ <;> cases h
  · dsimp only at h
    split at h
    · replace h := performs_bind.mp h
      rcases h with h | ⟨_, _, _, -, -, h⟩
      · exact Or.inl (hcount h)
      · split at h
        · replace h := performs_bind.mp h
          rcases h with h | ⟨_, _, _, -, -, h⟩
          · exact Or.inl (hcount h)
          · cases h
        · cases h
    · split at h
      · replace h := performs_bind.mp h
        rcases h with h | ⟨_, _, _, -, -, h⟩
        · exact Or.inl (hcount h)
        · cases h
      · cases h

theorem performs_sendSingleNotification {notifier : Notifier} {n : Notification P} {tr : PyTrace P}
    {e : Effect P} (h : Performs (sendSingleNotification notifier n) tr e) :
    tr = [] ∧ e = .sendNotification notifier n := by
  rcases h with h | ⟨answer, tr', -, h⟩
  · exact h
  · cases answer <;> cases h

/-- A plugin call in the loop: what stands before the notification in the list was handled. -/
inductive Handing (T : Notifiers) :
    List (Notification P) → PyTrace P → Notifier → Notification P → Prop where
  | call {pre m post tr sent failed invalid notifier now} :
      Dispatch T pre tr sent failed invalid → T.find? m.type = some notifier →
      Handing T (pre ++ m :: post) (tr ++ [⟨.time, now⟩]) notifier (m.stamp now)

namespace Handing

variable {T : Notifiers} {ns : List (Notification P)} {tr : PyTrace P} {notifier : Notifier}
  {n : Notification P}

theorem of_mem (h : Handing T ns tr notifier n) :
    ∃ m ∈ ns, T.find? m.type = some notifier ∧ ∃ now, n = m.stamp now := by
  cases h with
  | @call pre m post _ _ _ _ _ now _ hfind => exact ⟨m, by simp, hfind, now, rfl⟩

/-- Of notifications with different ids, this one was not handed to a plugin before. -/
theorem not_mem_sends (h : Handing T ns tr notifier n) (hnodup : (ns.map (·.id)).Nodup) :
    n.id ∉ (sends tr).map (·.id) := by
  cases h with
  | @call pre m post tr _ _ _ _ now hd _ =>
    rw [List.map_append, List.map_cons] at hnodup
    have hpre : m.id ∉ pre.map (·.id) := fun hmem =>
      (List.nodup_append.mp hnodup).2.2 _ hmem _ List.mem_cons_self rfl
    have htime : sends ([⟨.time, now⟩] : PyTrace P) = [] := rfl
    rw [sends_append, htime, List.append_nil]
    exact fun hmem => hpre (hd.map_id_sends.subset hmem)

end Handing

theorem performs_sendNotifications_plugin {T : Notifiers} {ns : List (Notification P)}
    {tr : PyTrace P} {notifier : Notifier} {n : Notification P}
    (h : Performs (sendNotifications T ns) tr (.sendNotification notifier n)) :
    Handing T ns tr notifier n := by
  induction ns generalizing tr with
  | nil => cases h
  | cons m ns ih =>
    have hrest : ∀ {f : _ → List (Notification P) × List (Notification P) × List (Notification P)}
        {tr : PyTrace P}, Performs ((sendNotifications T ns).bind fun lists => .ret (f lists)) tr
          (.sendNotification notifier n) → Handing T ns tr notifier n := by
      intro f tr hperf
      rcases performs_bind.mp hperf with hperf | ⟨_, _, _, -, -, hperf⟩
      · exact ih hperf
      · cases hperf
    unfold sendNotifications at h
    replace h := performs_bind.mp h
    rcases h with h | ⟨_, tr₂, _, rfl, h₁, h⟩
    · exact absurd h performs_ofExcept
    obtain ⟨rfl, -⟩ := runs_ofExcept.mp h₁
    rw [List.nil_append]
    split at h
    · next hfind =>
      cases hrest h with
      | call hd hfind' => exact .call (.invalid hfind hd) hfind'
    · next notifier' hfind =>
      replace h := performs_bind.mp h
      rcases h with h | ⟨tr₃, tr₄, now, rfl, ⟨_, _, rfl, rfl, hnow⟩, h⟩
      · exact (Py.uses_time.performs h).elim
      cases hnow
      replace h := performs_bind.mp h
      rcases h with h | ⟨tr₅, tr₆, result, rfl, hone, h⟩
      · obtain ⟨rfl, heq⟩ := performs_sendSingleNotification h
        cases heq
        exact .call .nil hfind
      obtain ⟨answer, v, rfl, hv, hacc⟩ := runs_sendSingleNotification hone
      cases hv
      split at h
      · next htrue =>
        replace h := performs_bind.mp h
        rcases h with h | ⟨_, tr₈, counter, rfl, h₂, h⟩
        · exact absurd h performs_ofExcept
        obtain ⟨rfl, -⟩ := runs_ofExcept.mp h₂
        replace h := performs_bind.mp h
        rcases h with h | ⟨_, tr₉, _, rfl, ⟨_, _, rfl, rfl, -⟩, h⟩
        · exact ((Py.uses_increment _ _).performs h).elim
        cases hrest h with
        | call hd hfind' => exact .call (.sent hfind (hacc ▸ htrue) hd) hfind'
      · next hfalse =>
        have hans : accepted answer = false := by rw [← hacc]; simpa using hfalse
        cases hrest h with
        | call hd hfind' => exact .call (.failed hfind hans hd) hfind'

theorem performs_send_plugin {T : Notifiers} {ns : List (Notification P)} {tr : PyTrace P}
    {notifier : Notifier} {n : Notification P}
    (h : Performs (send T ns) tr (.sendNotification notifier n)) : Handing T ns tr notifier n := by
  have hcount : ∀ {counter value} {tr : PyTrace P},
      ¬ Performs (Py.increment counter value : Py P Unit) tr (.sendNotification notifier n) :=
    fun hperf => (Py.uses_increment _ _).performs hperf
  unfold send at h
  rcases performs_bind.mp h with h | ⟨_, _, ⟨sent, failed, invalid⟩, -, -, h⟩
  · exact performs_sendNotifications_plugin h
  · dsimp only at h
    split at h
    · rcases performs_bind.mp h with h | ⟨_, _, _, -, -, h⟩
      · exact absurd h hcount
      split at h
      · rcases performs_bind.mp h with h | ⟨_, _, _, -, -, h⟩
        · exact absurd h hcount
        · cases h
      · cases h
    · split at h
      · rcases performs_bind.mp h with h | ⟨_, _, _, -, -, h⟩
        · exact absurd h hcount
        · cases h
      · cases h

end MonascaNotification
