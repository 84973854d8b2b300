import MonascaNotification.Properties.Accounts
import MonascaNotification.Properties.Drained

/-!
# In the end, every notification is settled

Once no alarms arrive, the engines come to rest, and in a fair run they do so with nothing left to
do. The accounts then have no entry for what is still on its way: what was created is recorded as
sent, or was given up.
-/

namespace MonascaNotification

open Infra Prog Network

section

variable {P : Platform} {W : Environment P} {conf : Config} {T : Notifiers}
  {Reading : Rat → Prop} {s : SystemState W conf}

/-- When neither engine can go on, nothing waits any more. -/
theorem created_eq_of_not_able (hT : T.Apart) (hW : W.Regular Reading)
    (hinterval : P.Measures Reading conf.interval)
    (htotal : ∀ w (e : Effect P), ∃ r w', W.answer w e r w')
    (h : Reachable (system W conf T False) s)
    (hunable : ∀ i ∈ finite conf, ¬ Able (system W conf T False) s i) :
    s.committed .retry = (s.log .retry).length ∧
      ((s.committed .notification = (s.log .alarm).length ∧
        counted .notification "created_count" s = (s.log .notification).length + abandoned s +
          counted .notification "invalid_type_count" s) ∨
      ∃ o m tr x, s.phase .notification = .running o m tr (.raise x) ∧
        (s.log .alarm)[o]? = some m) := by
  obtain ⟨k, hretry, hk⟩ := retry_idle_of_stuck hW hinterval htotal h fun l s' =>
    stuck_of_not_able (hunable .retry (mem_finite.mpr (Or.inr rfl)))
  have hcommitted : s.committed .retry = (s.log .retry).length := committed_of_idle h hretry hk
  refine ⟨hcommitted, ?_⟩
  rcases idle_or_raised_of_stuck htotal fun l s' =>
      stuck_of_not_able (hunable .notification (mem_finite.mpr (Or.inl rfl))) with
    ⟨n, hidle, hn⟩ | ⟨o, m, tr, x, hph⟩
  · refine Or.inl ⟨committed_of_idle h hidle hn, ?_⟩
    rw [created_eq hT h hidle hretry, hcommitted, Nat.sub_self, Nat.add_zero]
  · have hinv := (contract W conf T False).inv_reachable h
    exact Or.inr ⟨o, m, tr, x, hph, (hinv.running hph).1⟩

/--
**In the end, every notification is settled.** Take any infinite run without crashes in which no
alarms arrive any more, and which is fair to the `NotificationEngine` and the `RetryEngine`. From
some point on the retry topic is committed. Then also the alarm topic is, and each notification that
was counted as created is recorded on the notification topic, was given up by the `RetryEngine`, or
had an unconfigured type; or the `NotificationEngine` raised on an alarm.
-/
theorem settled_in_the_end (hT : T.Apart) (hW : W.Regular Reading)
    (hinterval : P.Measures Reading conf.interval)
    (htotal : ∀ w (e : Effect P), ∃ r w', W.answer w e r w') {run : Nat → SystemState W conf}
    {label : Nat → Label (Engine conf) (Effect P) Effect.Answer}
    (hstart : Reachable (system W conf T False) (run 0))
    (hstep : ∀ k, Labelled (system W conf T False) (run k) (label k) (run (k + 1)))
    (halarms : ∀ k, label k = .env → (run (k + 1)).log .alarm = (run k).log .alarm)
    (hfair : ∀ i : Engine conf, i = .notification ∨ i = .retry →
      Fair (system W conf T False) run label i) :
    ∃ K, ∀ k ≥ K, (run k).committed .retry = ((run k).log .retry).length ∧
      (((run k).committed .notification = ((run k).log .alarm).length ∧
        counted .notification "created_count" (run k) = ((run k).log .notification).length +
          abandoned (run k) + counted .notification "invalid_type_count" (run k)) ∨
      ∃ o m tr x, (run k).phase .notification = .running o m tr (.raise x) ∧
        ((run k).log .alarm)[o]? = some m) := by
  have hreach : ∀ k, Reachable (system W conf T False) (run k) := reachable_run hstart hstep
  have hno : ∀ k, ∀ i ∈ finite conf, ∀ o, label k ≠ .crash i o := by
    intro k i _ o hcrash
    have hlabelled := hcrash ▸ hstep k
    generalize run (k + 1) = s' at hlabelled
    cases hlabelled with
    | crash hmay => exact hmay
  obtain ⟨K, hK⟩ := exists_unable (D := contract W conf T False) (queue_ranked hW)
    (fun i _ => commitsOnce i) htotal hstart hstep (fun k => log_of_env (hstep k) (halarms k)) hno
    fun i hi => hfair i (mem_finite.mp hi)
  exact ⟨K, fun k hk => created_eq_of_not_able hT hW hinterval htotal (hreach k) (hK k hk)⟩

end

open Deployment in
/-- The refused alarm was sent at the second try. -/
theorem settled_in_the_end_retriedOnce :
    counted .notification "created_count" retriedOnce = 1 ∧
    counted .notification "created_count" retriedOnce = (retriedOnce.log .notification).length +
      abandoned retriedOnce + counted .notification "invalid_type_count" retriedOnce := by
  have hunable : ∀ i : Engine conf, i = .notification ∨ i = .retry →
      ¬ Able (system (anyRegular cpython InRange) conf notifiers False) retriedOnce i := by
    rintro i hi ⟨l, s', hl, hproc, hno⟩
    obtain ⟨o, ho⟩ := stuck_retriedOnce i hi l s' hl hproc
    exact hno o ho
  obtain ⟨K, hK⟩ := settled_in_the_end (W := anyRegular cpython InRange) notifiers_apart
    (fun h => h.2) (measures_cpython (by decide)) answered_anyRegular reachable_retriedOnce
    (fun _ => idles retriedOnce) (fun _ _ => rfl)
    fun i hi K hable => absurd (hable K (Nat.le_refl K)) (hunable i hi)
  refine ⟨by decide +kernel, ?_⟩
  rcases (hK K (Nat.le_refl K)).2 with ⟨-, hcreated⟩ | ⟨o, m, tr, x, hph, -⟩
  · exact hcreated
  · cases hph

end MonascaNotification
