import MonascaNotification.Spec.System

/-!
# The notification topic as a record of what was sent

The notification engine and the retry engine publish on the notification topic what a plugin
accepted, before they commit. The periodic engine sends too, and does not record it. So the
topic is always sound, and it is complete in the runs in which no plugin accepts a
notification from a periodic engine.
-/

namespace MonascaNotification

open Infra Prog Network

variable {P : Platform} {W : Environment P} {conf : Config} {T : Notifiers} {mayCrash : Prop}

/-- What a plugin accepted while a message was processed that is now committed is on the topic. -/
def RecordComplete (s : SystemState W conf) : Prop :=
  ∀ st ∈ s.steps, ∀ n ∈ deliveries st.trace, KafkaValue.dumps n.toJson ∈ s.log .notification

/--
Every message on the topic was published by an engine, and every such publish came after a
plugin had accepted that notification.
-/
structure RecordSound (s : SystemState W conf) : Prop where
  published : ∀ m ∈ s.log .notification, ∃ x ∈ s.history, (.notification, m) ∈ x.2.1.published
  accepted : ∀ {h₁ x h₂}, s.history = h₁ ++ x :: h₂ → ∀ m, (.notification, m) ∈ x.2.1.published →
    ∃ n : Notification P, m = .dumps n.toJson ∧ ∃ ev, (x.1, ev) ∈ h₁ ∧ delivered ev = some n

/-! ## One step -/

theorem mem_published_documents {topic : Topic} (ns : List (Notification P)) {m : KafkaValue} :
    (topic, m) ∈ (Effect.publish (P := P) topic (ns.map Notification.toJson)).published ↔
      ∃ n ∈ ns, m = .dumps n.toJson := by
  simp only [Effect.published_publish, List.map_map, List.mem_map, Function.comp, Prod.mk.injEq,
    true_and]
  constructor
  · rintro ⟨n, hn, rfl⟩
    exact ⟨n, hn, rfl⟩
  · rintro ⟨n, hn, rfl⟩
    exact ⟨n, hn, rfl⟩

theorem topic_of_mem_published {topic topic' : Topic} {messages : List Json} {m : KafkaValue}
    (h : (topic', m) ∈ (Effect.publish (P := P) topic messages).published) : topic' = topic := by
  simp only [Effect.published_publish, List.mem_map, Prod.mk.injEq] at h
  obtain ⟨j, -, rfl, -⟩ := h
  rfl

/-- What is published on the notification topic was accepted before in the same step. -/
theorem Engine.Performs.accepted {i : Engine conf} {o : Nat} {message : KafkaValue}
    {tr : PyTrace P} {e : Effect P} (h : i.Performs T o message tr e) {m : KafkaValue}
    (hm : (.notification, m) ∈ e.published) :
    ∃ n : Notification P, m = .dumps n.toJson ∧ n ∈ deliveries tr := by
  have hsilent := Effect.not_silent_of_mem_published hm
  cases i with
  | notification =>
    cases h with
    | silent hs => exact absurd hs hsilent
    | opens _ _ _ => cases topic_of_mem_published hm
    | requeue _ _ _ => cases topic_of_mem_published hm
    | record _ _ hh =>
      obtain ⟨n, hn, rfl⟩ := (mem_published_documents _).mp hm
      exact ⟨n, rfl, by simp [hh.deliveries, hn]⟩
    | _ => cases hm
  | retry =>
    cases h with
    | silent hs => exact absurd hs hsilent
    | requeue _ _ _ _ _ => cases topic_of_mem_published hm
    | @record _ _ _ _ n _ _ hh =>
      obtain ⟨n', hn', rfl⟩ := (mem_published_documents [n]).mp hm
      rw [List.mem_singleton] at hn'
      subst hn'
      exact ⟨n', rfl, by simp [hh.deliveries]⟩
    | _ => cases hm
  | periodic self =>
    cases h with
    | silent hs => exact absurd hs hsilent
    | forward _ _ _ _ _ _ => cases topic_of_mem_published hm
    | _ => cases hm

/-- What is accepted in a step is what its one batch of sends accepted. -/
theorem deliveries_step {tr₁ tr₂ tr₃ rest : PyTrace P} {ns sent failed : List (Notification P)}
    (h₁ : deliveries tr₁ = []) (h₂ : deliveries tr₂ = []) (h : Handled T ns tr₃ sent failed)
    (hrest : deliveries rest = []) : deliveries (tr₁ ++ tr₂ ++ tr₃ ++ rest) = sent := by
  rw [deliveries_append, deliveries_append, deliveries_append, h₁, h₂, h.deliveries, hrest,
    List.append_nil]
  rfl

/-- The two engines that record publish what was accepted before they commit. -/
theorem Engine.Performs.recorded {i : Engine conf} {o : Nat} {message : KafkaValue}
    {tr : PyTrace P} (h : i.Performs T o message tr .commit) (hi : ∀ self, i ≠ .periodic self)
    {n : Notification P} (hn : n ∈ deliveries tr) :
    (.notification, .dumps n.toJson) ∈ publications tr := by
  cases i with
  | notification =>
    cases h with
    | silent hs => cases hs
    | nothing hb =>
      rw [hb.quiet.deliveries] at hn
      cases hn
    | @commit _ _ _ _ _ sent failed hb ho hh =>
      rw [deliveries_step hb.quiet.deliveries ho.deliveries hh rfl] at hn
      refine List.mem_flatMap.mpr
        ⟨publishes P .notification (sent.map Notification.toJson), by simp, ?_⟩
      exact (mem_published_documents _).mpr ⟨n, hn, rfl⟩
  | retry =>
    cases h with
    | silent hs => cases hs
    | drop hr =>
      rw [hr.quiet.deliveries] at hn
      cases hn
    | invalid hr hw hh =>
      rw [← List.append_nil (_ ++ _),
        deliveries_step hr.quiet.deliveries hw.quiet.deliveries hh rfl] at hn
      cases hn
    | @sent _ _ _ _ m hr hw hh =>
      rw [deliveries_step hr.quiet.deliveries hw.quiet.deliveries hh rfl] at hn
      obtain rfl := List.mem_singleton.mp hn
      simp
    | requeued hr hw hh _ _ =>
      rw [deliveries_step hr.quiet.deliveries hw.quiet.deliveries hh rfl] at hn
      cases hn
    | exhausted hr hw hh _ _ =>
      rw [deliveries_step hr.quiet.deliveries hw.quiet.deliveries hh rfl] at hn
      cases hn
  | periodic self => exact absurd rfl (hi self)

/-! ## Every run -/

/-- The topic is sound in every run. -/
theorem recordSound {s : SystemState W conf} (h : Reachable (system W conf T mayCrash) s) :
    RecordSound s := by
  refine ⟨mem_history_of_mem_log h ?_, fun hsplit m hm => ?_⟩
  · rintro w pubs w' ⟨alarms, rfl, -⟩ p hp
    obtain ⟨a, -, rfl⟩ := List.mem_map.mp hp
    simp
  · obtain ⟨o, message, tr, -, hΦ, hearlier⟩ :=
      (contract W conf T mayCrash).history_reachable h hsplit
    obtain ⟨n, rfl, hn⟩ := Engine.Performs.accepted hΦ hm
    obtain ⟨ev, hev, hdel⟩ := List.mem_filterMap.mp hn
    exact ⟨n, rfl, ev, hearlier ev hev, hdel⟩

/--
**When the notification topic records every send.** In every run in which no plugin accepts a
notification from a periodic engine, the topic is complete and sound in every state.
-/
theorem record_of_no_periodic_delivery {s : SystemState W conf}
    (h : Reachable (system W conf T mayCrash) s)
    (hperiodic : ∀ x ∈ s.history, ∀ self, x.1 = .periodic self → delivered x.2 = none) :
    RecordComplete s ∧ RecordSound s := by
  refine ⟨fun st hst n hn => ?_, recordSound h⟩
  have hhist := historyInv_reachable h
  have hi : ∀ self, st.proc ≠ .periodic self := by
    intro self hproc
    obtain ⟨ev, hev, hdel⟩ := List.mem_filterMap.mp hn
    have hnone := hperiodic _ (hhist.steps st hst ev hev) self hproc
    rw [hdel] at hnone
    cases hnone
  obtain ⟨hperf, -, -⟩ := performs_of_step h hst
  obtain ⟨ev, hev, hpub⟩ := List.mem_flatMap.mp (hperf.recorded hi hn)
  exact hhist.published _ (hhist.steps st hst ev hev) _ hpub

/-- The deployment with a plugin that accepts nothing, after a minute. -/
theorem record_of_no_periodic_delivery_minuteLater :
    RecordComplete (Deployment.minuteLater false) ∧ RecordSound (Deployment.minuteLater false) :=
  record_of_no_periodic_delivery (Deployment.reachable_minuteLater false) (by
    have hall : (Deployment.minuteLater false).history.all
        (fun x => (delivered x.2).isNone) = true := by decide +kernel
    intro x hx self _
    simpa using List.all_eq_true.mp hall x hx)

/-- What the plugin accepted from the periodic engine after a minute is on no topic but its own. -/
theorem periodic_delivery_not_recorded :
    ¬ ∀ (P : Platform) (W : Environment P) (conf : Config) (T : Notifiers)
      (s : SystemState W conf), Reachable (system W conf T False) s →
        RecordComplete s ∧ RecordSound s := by
  intro hall
  obtain ⟨hcomplete, -⟩ := hall cpython (following cpython) Deployment.conf Deployment.notifiers
    (Deployment.minuteLater true) (Deployment.reachable_minuteLater true)
  have hmissing : ((Deployment.minuteLater true).steps.all fun st =>
      (deliveries st.trace).all fun n =>
        decide (KafkaValue.dumps n.toJson ∈ (Deployment.minuteLater true).log .notification))
      = false := by decide +kernel
  have hpresent : ((Deployment.minuteLater true).steps.all fun st =>
      (deliveries st.trace).all fun n =>
        decide (KafkaValue.dumps n.toJson ∈ (Deployment.minuteLater true).log .notification))
      = true := by
    simp only [List.all_eq_true, decide_eq_true_eq]
    exact hcomplete
  rw [hmissing] at hpresent
  cases hpresent

end MonascaNotification
