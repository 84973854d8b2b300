import Mathlib.Algebra.BigOperators.Group.Finset.Basic
import Mathlib.Algebra.Order.BigOperators.Group.Finset
import MonascaNotification.Infra.Conservation
import MonascaNotification.Properties.Accounts

/-!
# How long the retry topic can get

A message on the retry topic carries how often it was retried. In runs without crashes there are no
more messages with one count than with the count before, since each of them was put there for
another one. So the topic as a whole is at most `max 1 max_attempts` times as long as the list of
the sends of the `NotificationEngine` that failed.
-/

namespace MonascaNotification

open Infra Prog Network

section

variable {P : Platform} {W : Environment P} {conf : Config} {T : Notifiers} {mayCrash : Prop}
  {s : SystemState W conf}

/-! ## Counts of messages -/

/-- The message was retried so often. -/
def hasCount (count : Nat) : KafkaValue → Bool
  | .dumps (.obj fields) => decide (fields.lookup "retry_count" = some (.int count))
  | _ => false

theorem hasCount_toJson {count : Nat} {n : Notification P} :
    hasCount count (.dumps n.toJson) = true ↔ n.retryCount = .int count := by
  simp [hasCount, Notification.toJson, List.lookup_cons]

/-- A message on the retry topic with that count. -/
def isRetry (count : Nat) (p : Topic × KafkaValue) : Bool :=
  decide (p.1 = .retry) && hasCount count p.2

/-- A notification with a count, which is smaller than the maximum if it is not the first. -/
def IsRetry (P : Platform) (conf : Config) (m : KafkaValue) : Prop :=
  ∃ (n : Notification P) (count : Nat), m = .dumps n.toJson ∧ n.retryCount = .int count ∧
    (count = 0 ∨ (count : Int) < conf.maxAttempts)

theorem IsRetry.hasCount_iff {m : KafkaValue} (h : IsRetry P conf m) : ∃ count : Nat,
    (count : Int) < max 1 conf.maxAttempts ∧ ∀ k, hasCount k m = true ↔ k = count := by
  obtain ⟨n, count, rfl, hn, hlt⟩ := h
  refine ⟨count, by omega, fun k => ?_⟩
  rw [hasCount_toJson, hn, Json.int.injEq, Nat.cast_inj, eq_comm]

/-! ## One step -/

theorem NotificationEngine.Performs.of_mem_retry {alarm : RawAlarm} {tr : PyTrace P} {e : Effect P}
    (h : Performs conf T alarm tr e) {m : KafkaValue} (hm : (Topic.retry, m) ∈ e.published) :
    ∃ n : Notification P, m = .dumps n.toJson ∧ n.retryCount = .int 0 := by
  cases h with
  | silent hs => exact absurd hs (Effect.not_silent_of_mem_published hm)
  | opens _ _ _ => simp [Effect.published] at hm
  | record _ _ _ => simp [Effect.published] at hm
  | requeue hb ho hh =>
    simp only [Effect.published_publish, List.map_map, List.mem_map, Function.comp, Prod.mk.injEq,
      true_and] at hm
    obtain ⟨n', hn', rfl⟩ := hm
    obtain ⟨n₂, hn₂, -, now, -, rfl⟩ := hh.of_mem_failed hn'
    refine ⟨n₂.stamp now, rfl, ?_⟩
    rw [Notification.stamp_retryCount]
    obtain ⟨n₁, hn₁, rfl | ⟨now', rfl⟩⟩ := ho.of_mem hn₂
    · exact hb.retryCount hn₁
    · exact (Notification.stamp_retryCount n₁ now').trans (hb.retryCount hn₁)
  | _ => cases hm

/-- What is put back was read with the count before. -/
theorem RetryEngine.Performs.of_mem_retry {message : KafkaValue} {tr : PyTrace P} {e : Effect P}
    (h : Performs conf T message tr e) (hmessage : IsRetry P conf message) {m : KafkaValue}
    (hm : (Topic.retry, m) ∈ e.published) : ∃ count : Nat, hasCount count message = true ∧
      ∃ n : Notification P, m = .dumps n.toJson ∧ n.retryCount = .int (count + 1 : Nat) ∧
        ((count + 1 : Nat) : Int) < conf.maxAttempts ∧ publications tr = [] ∧
        (∀ ev ∈ tr, ev.1.isCommit = false) ∧ e.published = [(.retry, m)] := by
  obtain ⟨n₀, count, rfl, hcount₀, -⟩ := hmessage
  refine ⟨count, hasCount_toJson.mpr hcount₀, ?_⟩
  cases h with
  | silent hs => exact absurd hs (Effect.not_silent_of_mem_published hm)
  | record _ _ _ => simp [Effect.published] at hm
  | @requeue tr₁ tr₂ tr₃ n m' next now hr hw hh hnext hlt =>
    obtain ⟨-, -, hsame, -⟩ := hr.refreshed.some
    obtain ⟨-, -, t, rfl⟩ := hh.of_failed
    have hn : n.retryCount = .int count := hsame.trans hcount₀
    rw [Notification.stamp_retryCount, hn] at hnext
    cases hnext
    obtain rfl :
        m = .dumps ({ n.stamp t with retryCount := .int (count + 1) }.stamp now).toJson := by
      simpa [Effect.published] using hm
    refine ⟨_, rfl, rfl, by simpa [Json.ltInt, Json.asInt?] using hlt, ?_, ?_, rfl⟩
    · simp [hr.quiet.publications, hw.quiet.publications, hh.publications, Effect.published]
    · intro ev hev
      simp only [List.mem_append, List.mem_singleton] at hev
      rcases hev with ((hev | hev) | hev) | rfl
      · exact hr.quiet.isCommit ev hev
      · exact hw.quiet.isCommit ev hev
      · exact hh.isCommit ev hev
      · rfl
  | _ => cases hm

/-- The periodic engines put nothing there. -/
theorem PeriodicEngine.Performs.not_mem_retry {self : PeriodicEngine conf} {message : KafkaValue}
    {tr : PyTrace P} {e : Effect P} (h : Performs self T message tr e) {m : KafkaValue} :
    (Topic.retry, m) ∉ e.published := by
  intro hm
  cases h with
  | silent hs => exact absurd hs (Effect.not_silent_of_mem_published hm)
  | forward _ _ _ _ _ _ => simp [Effect.published] at hm
  | _ => cases hm

/-! ## The engines together -/

/-- Every message on the retry topic has a count in the bounds. -/
def retryContract (W : Environment P) (conf : Config) (T : Notifiers) (mayCrash : Prop) :
    Contract (system W conf T mayCrash) where
  Valid := fun t m => t = .retry → IsRetry P conf m
  A := fun _ _ => True
  Φ := fun i o m tr e => i.Performs T o m tr e ∧ (i.source = .retry → IsRetry P conf m)
  Q := fun _ _ _ tr => ∃ ev ∈ tr, ev.1.isCommit = true
  answer_admits := fun _ => trivial
  env_valid := by
    rintro w pubs w' ⟨alarms, rfl, -⟩ p hp ht
    obtain ⟨m, -, rfl⟩ := List.mem_map.mp hp
    cases ht
  handler_performs := fun hvalid _ h => ⟨Engine.performs_body h, hvalid⟩
  handler_returns := fun _ _ h => Engine.exists_commit h
  publish_valid := by
    rintro i o m tr e ⟨h, hvalid⟩ ⟨topic, m'⟩ hp rfl
    cases i with
    | notification =>
      obtain ⟨n, hn, hcount⟩ := NotificationEngine.Performs.of_mem_retry h hp
      exact ⟨n, 0, hn, hcount, Or.inl rfl⟩
    | retry =>
      obtain ⟨count, -, n, hn, hcount, hlt, -⟩ :=
        RetryEngine.Performs.of_mem_retry h (hvalid rfl) hp
      exact ⟨n, count + 1, hn, hcount, Or.inr hlt⟩
    | periodic self => exact absurd hp (PeriodicEngine.Performs.not_mem_retry h)

theorem retryContract_commitsOnce (c : Engine conf) :
    (retryContract W conf T mayCrash).CommitsOnce c where
  once := fun h he => h.1.isCommit he
  before_end := fun h => h

/-- A step puts at most one message back, and only for one with the count before. -/
theorem retry_charged (count : Nat) :
    (retryContract W conf T mayCrash).Charged .retry (isRetry (count + 1)) (hasCount count) where
  toCommitsOnce := retryContract_commitsOnce _
  commit_publishes := by
    intro e he
    cases e with
    | commit => rfl
    | _ => cases he
  bound := by
    rintro o m tr e - - ⟨h, hvalid⟩ hpos
    obtain ⟨⟨topic, m'⟩, hp, hretry⟩ := List.countP_pos_iff.mp hpos
    obtain ⟨rfl, hm'⟩ : topic = .retry ∧ hasCount (count + 1) m' = true := by
      simpa [isRetry] using hretry
    obtain ⟨k, hk, n, rfl, hn, -, hnone, hcommit, hpub⟩ :=
      RetryEngine.Performs.of_mem_retry h (hvalid rfl) hp
    have hkc : k = count := by
      rw [hasCount_toJson, hn, Json.int.injEq, Nat.cast_inj] at hm'
      omega
    refine ⟨?_, hcommit⟩
    rw [hkc] at hk
    have hemit : (system W conf T mayCrash).emitted (isRetry (count + 1)) tr = 0 := by
      change (publications tr).countP _ = 0
      rw [hnone]
      rfl
    change _ + e.published.countP _ ≤ _
    rw [hemit, hpub, if_pos hk, Nat.zero_add]
    exact List.countP_le_length

/-- The body of an alarm puts one message there for each plugin call that was not accepted. -/
theorem NotificationEngine.Finished.refused {alarm : RawAlarm} {tr : PyTrace P}
    (h : Finished conf T alarm tr) : (published P .retry).of tr = tr.countP isRefused := by
  cases h with
  | @nothing tr₁ p o hbuilt =>
    have hquiet : Quiet tr₁ := (AlarmProcessor.uses_toNotification alarm).runs hbuilt
    rw [List.countP_append, countP_isRefused_eq_zero hquiet.sends]
    simp [published, hquiet.publications, Effect.published, isRefused]
  | @handled tr₁ tr₂ tr₃ p o ns ns' sent failed hbuilt hne ho hsend =>
    have hquiet : Quiet tr₁ := (AlarmProcessor.uses_toNotification alarm).runs hbuilt
    have hhandled := runs_send hsend
    have hopens : (publications tr₂).countP (onTopic .retry) = 0 :=
      ho.published Topic.retry_ne_periodic
    obtain ⟨-, -, -, hput⟩ := books_of_end (P := P) sent failed
    have hcalls : (tr₁ ++ tr₂ ++ tr₃).countP isRefused = failed.length := by
      rw [List.countP_append, List.countP_append, countP_isRefused_eq_zero hquiet.sends,
        countP_isRefused_eq_zero ho.sends, hhandled.countP_isRefused]
      omega
    have hpublished : (publications (tr₁ ++ tr₂ ++ tr₃)).countP (onTopic .retry) = 0 := by
      rw [publications_append, publications_append, hquiet.publications, hhandled.publications,
        List.nil_append, List.append_nil, hopens]
    rw [List.countP_append, hcalls, Meter.of_append]
    show (publications _).countP _ + (publications _).countP _ = _
    rw [hpublished, hput]
    simp [isRefused]

/-! ## Every run without crashes -/

/-- How many messages the `NotificationEngine` has put there. -/
def firstFailures (s : SystemState W conf) : Nat :=
  (publications ((s.history.filter fun x => decide (x.1 = .notification)).map Prod.snd)).countP
    fun p => decide (p.1 = .retry)

/-- First failures have count 0, and what the `RetryEngine` puts back has not. -/
theorem countP_isRetry {mayCrash : Prop} (h : Reachable (system W conf T mayCrash) s)
    {x : Engine conf × PyEvent P} (hx : x ∈ s.history) :
    (x.1 ≠ .retry → ∀ count : Nat, x.2.1.published.countP (isRetry (count + 1)) = 0) ∧
      (x.1 ≠ .notification → x.2.1.published.countP (isRetry 0) = 0) ∧
      (x.1 = .notification → x.2.1.published.countP (isRetry 0) =
        x.2.1.published.countP fun p => decide (p.1 = .retry)) := by
  obtain ⟨h₁, h₂, hsplit⟩ := List.append_of_mem hx
  obtain ⟨o, m, tr, -, ⟨hΦ, hvalid⟩, -⟩ :=
    (retryContract W conf T mayCrash).history_reachable h hsplit
  obtain ⟨i, e, r⟩ := x
  dsimp only at hΦ hvalid ⊢
  have hzero : ∀ {count : Nat},
      (∀ m', (Topic.retry, m') ∈ e.published → hasCount count m' = false) →
      e.published.countP (isRetry count) = 0 := by
    intro count hnone
    refine List.countP_eq_zero.mpr fun p hp hretry => ?_
    obtain ⟨topic, m'⟩ := p
    obtain ⟨rfl, hm'⟩ : topic = .retry ∧ hasCount count m' = true := by simpa [isRetry] using hretry
    rw [hnone m' hp] at hm'
    cases hm'
  cases i with
  | notification =>
    have hfirst : ∀ m', (Topic.retry, m') ∈ e.published → ∀ count,
        hasCount count m' = decide (count = 0) := by
      intro m' hm' count
      obtain ⟨n, rfl, hn⟩ := NotificationEngine.Performs.of_mem_retry hΦ hm'
      rw [Bool.eq_iff_iff, hasCount_toJson, hn, decide_eq_true_eq, Json.int.injEq]
      omega
    refine ⟨fun _ count => hzero fun m' hm' => ?_, fun hne => absurd rfl hne, fun _ => ?_⟩
    · rw [hfirst m' hm']
      rfl
    · refine List.countP_congr fun p hp => ?_
      obtain ⟨topic, m'⟩ := p
      by_cases ht : topic = .retry
      · subst ht
        simp [isRetry, hfirst m' hp]
      · simp [isRetry, ht]
  | retry =>
    refine ⟨fun hne => absurd rfl hne, fun _ => hzero fun m' hm' => ?_, fun heq => by cases heq⟩
    obtain ⟨count, -, n, rfl, hn, -⟩ := RetryEngine.Performs.of_mem_retry hΦ (hvalid rfl) hm'
    rw [Bool.eq_false_iff, ne_eq, hasCount_toJson, hn, Json.int.injEq]
    omega
  | periodic self =>
    have hnone : ∀ m', (Topic.retry, m') ∉ e.published := fun m' =>
      PeriodicEngine.Performs.not_mem_retry hΦ
    exact ⟨fun _ count => hzero fun m' hm' => absurd hm' (hnone m'),
      fun _ => hzero fun m' hm' => absurd hm' (hnone m'), fun heq => by cases heq⟩

theorem countP_log_retry {mayCrash : Prop} (h : Reachable (system W conf T mayCrash) s)
    (count : Nat) :
    (s.log .retry).countP (hasCount count) =
      (system W conf T mayCrash).emittedBy (isRetry count) s fun _ => true := by
  have henv : ∀ {w pubs w'}, (system W conf T mayCrash).env w pubs w' → ∀ p ∈ pubs,
      p.1 ≠ .retry := by
    rintro w pubs w' ⟨alarms, rfl, -⟩ p hp
    obtain ⟨m, -, rfl⟩ := List.mem_map.mp hp
    simp
  rw [countP_log h henv, emittedBy, List.filter_true]
  rfl

/-- Each message has one of the counts. -/
theorem length_le_mul_of_countP {α : Type} {xs : List α} {κ : Nat → α → Bool} {K : Nat}
    (hall : ∀ x ∈ xs, ∃ k < K, κ k x = true)
    (hle : ∀ k, xs.countP (κ (k + 1)) ≤ xs.countP (κ k)) : xs.length ≤ K * xs.countP (κ 0) := by
  have hanti : ∀ k, xs.countP (κ k) ≤ xs.countP (κ 0) := by
    intro k
    induction k with
    | zero => exact Nat.le_refl _
    | succ k ih => exact Nat.le_trans (hle k) ih
  have hsum : xs.length ≤ ∑ k ∈ Finset.range K, xs.countP (κ k) := by
    clear hle hanti
    induction xs with
    | nil => exact Nat.zero_le _
    | cons x xs ih =>
      obtain ⟨k, hk, hx⟩ := hall x List.mem_cons_self
      have hrest := ih fun y hy => hall y (List.mem_cons_of_mem _ hy)
      have hone : 1 ≤ ∑ k ∈ Finset.range K, if κ k x = true then 1 else 0 := by
        have hmem := Finset.single_le_sum (f := fun k => if κ k x = true then 1 else 0)
          (fun _ _ => Nat.zero_le _) (Finset.mem_range.mpr hk)
        simpa [hx] using hmem
      simp only [List.countP_cons, List.length_cons, Finset.sum_add_distrib]
      omega
  calc xs.length ≤ ∑ k ∈ Finset.range K, xs.countP (κ k) := hsum
    _ ≤ (Finset.range K).card • xs.countP (κ 0) :=
        Finset.sum_le_card_nsmul _ _ _ fun k _ => hanti k
    _ = K * xs.countP (κ 0) := by rw [Finset.card_range, nsmul_eq_mul, Nat.cast_id]

/-- Between two alarms there is a message for each plugin call that was not accepted. -/
theorem firstFailures_eq (h : Reachable (system W conf T False) s) {o : Nat}
    (hidle : s.phase .notification = .idle o) :
    firstFailures s = (eventsOf s .notification).countP isRefused := by
  obtain ⟨done, hdone⟩ :=
    exists_serial (contract W conf T False) (@commitsOnce P W conf T False .notification) id h
  exact hdone.balance (f := published P .retry) (g := Meter.count isRefused) hidle
    fun _ _ hrun => (runs_notification hrun).refused

/--
**How long the retry topic gets.** In every run without crashes there are on the retry topic no more
messages that were retried `count + 1` times than messages that were retried `count` times. In total
there are at most `max 1 max_attempts` for each send of the `NotificationEngine` that failed, which
are its plugin calls that were not accepted.
-/
theorem retry_traffic (h : Reachable (system W conf T False) s) :
    (∀ count : Nat, (s.log .retry).countP (hasCount (count + 1)) ≤
      (s.log .retry).countP (hasCount count)) ∧
    ((s.log .retry).length : Int) ≤ max 1 conf.maxAttempts * firstFailures s ∧
    ∀ o, s.phase .notification = .idle o →
      firstFailures s = (eventsOf s .notification).countP isRefused := by
  have hladder : ∀ count : Nat, (s.log .retry).countP (hasCount (count + 1)) ≤
      (s.log .retry).countP (hasCount count) := by
    intro count
    have hle := charged (@retry_charged P W conf T False count) id h
    have hself : (system W conf T False).emittedBy (isRetry (count + 1)) s (fun _ => true) =
        (system W conf T False).emittedBy (isRetry (count + 1)) s fun i => decide (i = .retry) :=
      emittedBy_congr fun x hx hne => (countP_isRetry h hx).1 (by simpa using hne) count
    rw [countP_log_retry h, hself]
    refine Nat.le_trans (Nat.le_trans (Nat.le_add_right _ _) hle) ?_
    exact (List.take_sublist _ _).countP_le
  refine ⟨hladder, ?_, fun o => firstFailures_eq h⟩
  have hfirst : (s.log .retry).countP (hasCount 0) = firstFailures s := by
    have hself : (system W conf T False).emittedBy (isRetry 0) s (fun _ => true) =
        (system W conf T False).emittedBy (isRetry 0) s fun i => decide (i = .notification) :=
      emittedBy_congr fun x hx hne => (countP_isRetry h hx).2.1 (by simpa using hne)
    rw [countP_log_retry h, hself, emittedBy, emitted, firstFailures, publications,
      List.countP_flatMap, List.countP_flatMap]
    congr 1
    refine List.map_congr_left fun ev hev => ?_
    obtain ⟨x, hx, rfl⟩ := List.mem_map.mp hev
    obtain ⟨hx, hproc⟩ := List.mem_filter.mp hx
    exact (countP_isRetry h hx).2.2 (of_decide_eq_true hproc)
  have hvalid := ((retryContract W conf T False).inv_reachable h).valid .retry
  have hlen := length_le_mul_of_countP (K := (max 1 conf.maxAttempts).toNat) (κ := hasCount)
    (fun m hm => by
      obtain ⟨count, hlt, hcount⟩ := (hvalid m hm rfl).hasCount_iff
      exact ⟨count, by omega, (hcount count).mpr rfl⟩) hladder
  rw [hfirst] at hlen
  have hcast : (((max 1 conf.maxAttempts).toNat : Nat) : Int) = max 1 conf.maxAttempts :=
    Int.toNat_of_nonneg (by omega)
  calc ((s.log .retry).length : Int)
      ≤ (((max 1 conf.maxAttempts).toNat * firstFailures s : Nat) : Int) := Int.ofNat_le.mpr hlen
    _ = max 1 conf.maxAttempts * firstFailures s := by rw [Nat.cast_mul, hcast]

end

open Deployment in
/-- One first send failed, so at most five messages come from it. -/
theorem retry_traffic_started :
    (eventsOf (started false) .notification).countP isRefused = 1 ∧
    (((started false).log .retry).length : Int) ≤
      max 1 conf.maxAttempts * firstFailures (started false) ∧
    firstFailures (started false) = (eventsOf (started false) .notification).countP isRefused := by
  obtain ⟨-, hlength, hrefused⟩ := retry_traffic (reachable_started false)
  exact ⟨by decide +kernel, hlength, hrefused 1 rfl⟩

end MonascaNotification
