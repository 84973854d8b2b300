import Mathlib.Order.WithBot
import MonascaNotification.Infra.Drain
import MonascaNotification.Properties.Fatal

/-!
# The alarm topic and the retry topic run dry

A periodic engine goes on as long as its alarm does. The other two engines come to an end: once no
alarms arrive, the `NotificationEngine` and the `RetryEngine` take finitely many steps, whatever the
database and the plugins answer and however the periodic engines and changes of the database come in
between (`engines_come_to_rest`). And when they can do nothing more, nothing is left over
(`committed_at_rest`).

One alarm can leave any number of messages on the retry topic. A message on the retry topic leaves
at most one, with a higher count.
-/

namespace MonascaNotification

open Infra Prog Network

section

variable {P : Platform} {W : Environment P} {conf : Config} {T : Notifiers} {mayCrash : Prop}
  {Reading : Rat → Prop} {s : SystemState W conf}

/-! ## Ranks -/

/-- How many more sends the count of a message leaves to the `RetryEngine`. -/
def attemptsLeft (conf : Config) : KafkaValue → Nat
  | .dumps (.obj fields) =>
    match fields.lookup "retry_count" with
    | some (.int count) => (conf.maxAttempts - count).toNat
    | _ => 0
  | _ => 0

theorem attemptsLeft_toJson {n : Notification P} {count : Int} (h : n.retryCount = .int count) :
    attemptsLeft conf (.dumps n.toJson) = (conf.maxAttempts - count).toNat := by
  simp [attemptsLeft, Notification.toJson, List.lookup_cons, h]

/-- An alarm is above every message on the retry topic. -/
def rank (conf : Config) : Topic → KafkaValue → WithTop Nat
  | .alarm, _ => ⊤
  | _, m => WithTop.some (attemptsLeft conf m)

/-- The engines that come to rest. -/
def finite (conf : Config) : Finset (Engine conf) := {.notification, .retry}

theorem mem_finite {i : Engine conf} : i ∈ finite conf ↔ i = .notification ∨ i = .retry := by
  simp [finite]

/-- An engine publishes on the retry topic what is left to do, and nothing on the alarm topic. -/
theorem queue_ranked (hW : W.Regular Reading) :
    (queueContract conf T mayCrash hW).Ranked (finite conf) (rank conf) where
  smaller := by
    rintro i o m tr e hi - - ⟨h, hadm, hm⟩ p hp j hj htopic
    have hsilent := Effect.not_silent_of_mem_published hp
    have hretry : ∀ {topic : Topic} {messages : List Json}, topic ≠ .alarm →
        p ∈ (Effect.publish (P := P) topic messages).published → topic = .retry := by
      intro topic messages hne hp
      obtain ⟨j', -, rfl⟩ := List.mem_map.mp hp
      rcases mem_finite.mp hj with rfl | rfl
      · exact absurd htopic hne
      · exact htopic
    rcases mem_finite.mp hi with rfl | rfl
    · have hp' : p.1 ≠ .alarm := Engine.Performs.ne_alarm (i := .notification) h hp
      have hfin : ∃ k : Nat, rank conf p.1 p.2 = WithTop.some k := by
        cases hcase : p.1 with
        | alarm => exact absurd hcase hp'
        | _ => exact ⟨attemptsLeft conf p.2, rfl⟩
      obtain ⟨k, hk⟩ := hfin
      rw [hk]
      exact WithTop.coe_lt_top k
    · cases h with
      | silent hs => exact absurd hs hsilent
      | record _ _ _ => cases hretry (by simp) hp
      | @requeue tr₁ tr₂ tr₃ n m' count now hr hw hh hcount hlt =>
        obtain ⟨n₀, rfl, htyped, -⟩ := hm trivial
        obtain ⟨c, hc⟩ := htyped.retryCount_eq
        obtain ⟨-, -, hsame, -⟩ := hr.refreshed.some
        obtain ⟨-, -, t, rfl⟩ := hh.of_failed
        have hn : n.retryCount = .int c := hsame.trans hc
        rw [Notification.stamp_retryCount, hn] at hcount
        cases hcount
        have hlt : c + 1 < conf.maxAttempts := by simpa [Json.ltInt, Json.asInt?] using hlt
        have hp : p ∈ (Effect.publish (P := P) .retry
          [({ n.stamp t with retryCount := .int (c + 1) }.stamp now).toJson]).published := hp
        obtain rfl : p = (.retry,
            .dumps ({ n.stamp t with retryCount := .int (c + 1) }.stamp now).toJson) := by
          simpa using hp
        refine WithTop.coe_lt_coe.mpr ?_
        rw [attemptsLeft_toJson hc, attemptsLeft_toJson rfl]
        omega
      | _ => cases hp
  outside := by
    rintro i o m tr e hi ⟨h, -, -⟩ p hp j hj
    have hsilent := Effect.not_silent_of_mem_published hp
    cases i with
    | notification => exact absurd (mem_finite.mpr (Or.inl rfl)) hi
    | retry => exact absurd (mem_finite.mpr (Or.inr rfl)) hi
    | periodic self =>
      cases h with
      | silent hs => exact absurd hs hsilent
      | forward _ _ _ _ _ _ =>
        obtain ⟨j', -, rfl⟩ := List.mem_map.mp hp
        rcases mem_finite.mp hj with rfl | rfl <;> simp [system, Engine.source]
      | _ => cases hp

/-! ## Infinite runs -/

/-- Only alarms come from outside. -/
theorem log_of_env {s' : SystemState W conf} {l : Label (Engine conf) (Effect P) Effect.Answer}
    (h : Labelled (system W conf T mayCrash) s l s')
    (halarm : l = .env → s'.log .alarm = s.log .alarm) (hl : l = .env) :
    ∀ i ∈ finite conf, s'.log i.source = s.log i.source := by
  intro i hi
  rcases mem_finite.mp hi with rfl | rfl
  · exact halarm hl
  · subst hl
    cases h with
    | env henv =>
      obtain ⟨alarms, rfl, -⟩ := henv
      simp [Engine.source, deliver, List.filter_eq_nil_iff]

/--
**The engines come to rest.** Take any infinite run in which no alarms arrive and neither the
`NotificationEngine` nor the `RetryEngine` is stopped. From some point on, neither takes a step.
-/
theorem engines_come_to_rest (hW : W.Regular Reading) {run : Nat → SystemState W conf}
    {label : Nat → Label (Engine conf) (Effect P) Effect.Answer}
    (hstart : Reachable (system W conf T mayCrash) (run 0))
    (hstep : ∀ k, Labelled (system W conf T mayCrash) (run k) (label k) (run (k + 1)))
    (halarms : ∀ k, label k = .env → (run (k + 1)).log .alarm = (run k).log .alarm)
    (hno : ∀ k o, label k ≠ .crash .notification o ∧ label k ≠ .crash .retry o) :
    ∃ K, ∀ k ≥ K, (label k).proc? ≠ some .notification ∧ (label k).proc? ≠ some .retry := by
  have hcrash : ∀ k, ∀ i ∈ finite conf, ∀ o, label k ≠ .crash i o := by
    intro k i hi o
    rcases mem_finite.mp hi with rfl | rfl
    · exact (hno k o).1
    · exact (hno k o).2
  obtain ⟨K, hK⟩ := exists_rest (D := contract W conf T mayCrash) (queue_ranked hW)
    (fun i _ => commitsOnce i) hstart hstep (fun k => log_of_env (hstep k) (halarms k)) hcrash
  exact ⟨K, fun k hk => ⟨hK k hk _ (mem_finite.mpr (Or.inl rfl)),
    hK k hk _ (mem_finite.mpr (Or.inr rfl))⟩⟩

/-! ## At rest -/

theorem committed_of_idle (h : Reachable (system W conf T mayCrash) s) {i : Engine conf} {n : Nat}
    (hph : s.phase i = .idle n) (hn : (s.log i.source).length ≤ n) :
    s.committed i = (s.log i.source).length := by
  have hcursor := cursor_reachable (contract W conf T mayCrash) (commitsOnce i) h
  have hbound : s.committed i ≤ (s.log i.source).length := hcursor.bound
  have hidle := hcursor.idle hph
  omega

theorem retry_idle_of_stuck (hW : W.Regular Reading) (hinterval : P.Measures Reading conf.interval)
    (htotal : ∀ w (e : Effect P), ∃ r w', W.answer w e r w')
    (h : Reachable (system W conf T mayCrash) s)
    (hstuck : ∀ l s', Labelled (system W conf T mayCrash) s l s' → l.proc? = some .retry →
      ∃ o, l = .crash .retry o) :
    ∃ n, s.phase .retry = .idle n ∧ (s.log .retry).length ≤ n := by
  rcases idle_or_raised_of_stuck htotal hstuck with hidle | ⟨o, m, tr, x, hph⟩
  · exact hidle
  · exact absurd hph (retry_not_raised hW hinterval h)

/--
**At rest, nothing is left over.** Let every effect get some answer, and let neither engine be able
to go on. Then the `RetryEngine` has committed its whole topic. So has the `NotificationEngine`,
unless it raised on an alarm.
-/
theorem committed_at_rest (hW : W.Regular Reading) (hinterval : P.Measures Reading conf.interval)
    (htotal : ∀ w (e : Effect P), ∃ r w', W.answer w e r w')
    (h : Reachable (system W conf T mayCrash) s)
    (hstuck : ∀ i : Engine conf, i = .notification ∨ i = .retry → ∀ l s',
      Labelled (system W conf T mayCrash) s l s' → l.proc? = some i → ∃ o, l = .crash i o) :
    s.committed .retry = (s.log .retry).length ∧
      (s.committed .notification = (s.log .alarm).length ∨ ∃ o m tr x,
        s.phase .notification = .running o m tr (.raise x) ∧ (s.log .alarm)[o]? = some m) := by
  constructor
  · obtain ⟨n, hph, hn⟩ :=
      retry_idle_of_stuck hW hinterval htotal h (hstuck .retry (Or.inr rfl))
    exact committed_of_idle h hph hn
  · rcases idle_or_raised_of_stuck htotal (hstuck .notification (Or.inl rfl)) with
      ⟨n, hph, hn⟩ | ⟨o, m, tr, x, hph⟩
    · exact Or.inl (committed_of_idle h hph hn)
    · have hinv := (contract W conf T mayCrash).inv_reachable h
      exact Or.inr ⟨o, m, tr, x, hph, (hinv.running hph).1⟩

end

/-! ## In the deployment -/

namespace Deployment

/-- The `RetryEngine` has read the message of the refused alarm. -/
def retrying : SystemState (anyRegular cpython InRange) conf :=
  { refusedOnce InRange with
    phase := Function.update (refusedOnce InRange).phase .retry
      (.running 0 onRetry [] (RetryEngine.body conf notifiers onRetry)) }

theorem read_retrying : Labelled (system (anyRegular cpython InRange) conf notifiers False)
    (refusedOnce InRange) (.read .retry 0) retrying := by
  refine .read (m := onRetry) rfl ?_
  have hlog : (refusedOnce InRange).log .retry = [onRetry] := by decide +kernel
  change ((refusedOnce InRange).log .retry)[0]? = some onRetry
  rw [hlog]
  rfl

/-- Nothing happens. -/
theorem idles (s : SystemState (anyRegular cpython InRange) conf) :
    Labelled (system (anyRegular cpython InRange) conf notifiers False) s .env s := by
  have hnone : (system (anyRegular cpython InRange) conf notifiers False).env s.world [] () :=
    ⟨[], rfl, trivial⟩
  have henv := Labelled.env hnone
  rw [deliver_nil] at henv
  exact henv

theorem inRange_minute : InRange 60 := ⟨by norm_num, by norm_num⟩

/-- The world that answers from the store, a minute later, with a plugin that accepts. -/
def acceptsLater (e : Effect cpython) (w : Unit) : e.Answer × Unit :=
  (store.reply 60 (.ok (.bool true)) e, w)

/-- The `RetryEngine` has sent the message of the refused alarm. -/
def retriedOnce : SystemState (anyRegular cpython InRange) conf :=
  (system (anyRegular cpython InRange) conf notifiers False).after (refusedOnce InRange) .retry 0
    onRetry [] ((RetryEngine.body conf notifiers onRetry).trace acceptsLater ()) ()

theorem reachable_retriedOnce :
    Reachable (system (anyRegular cpython InRange) conf notifiers False) retriedOnce := by
  have hlog : (refusedOnce InRange).log .retry = [onRetry] := by decide +kernel
  have hok : ((RetryEngine.body conf notifiers onRetry).run acceptsLater ()).1 = .ok () := by
    decide +kernel
  have hrun := runs_trace_of_eq hok
  have hanswers : ∀ (w : Unit) (e : Effect cpython),
      (system (anyRegular cpython InRange) conf notifiers False).answer w e (acceptsLater e w).1
        (acceptsLater e w).2 :=
    fun w e => ⟨(store.answers_reply 60 _ e).admissible, regular_reply inRange_minute _ e⟩
  refine (reachable_refusedOnce inRange_zero).run_body (i := .retry) rfl ?_ hrun
    (Answers.trace hanswers _ ())
  change ((refusedOnce InRange).log .retry)[0]? = some onRetry
  rw [hlog]
  rfl

end Deployment

namespace Deployment

/-- A run in which the `RetryEngine` reads the message and is never scheduled again. -/
def resting (k : Nat) : SystemState (anyRegular cpython InRange) conf :=
  if k = 0 then refusedOnce InRange else retrying

def restingLabel (k : Nat) : Label (Engine conf) (Effect cpython) Effect.Answer :=
  if k = 0 then .read .retry 0 else .env

theorem labelled_resting (k : Nat) :
    Labelled (system (anyRegular cpython InRange) conf notifiers False) (resting k)
      (restingLabel k) (resting (k + 1)) := by
  by_cases hk : k = 0
  · simpa [hk, resting, restingLabel] using read_retrying
  · simpa [hk, resting, restingLabel] using idles retrying

end Deployment

open Deployment in
theorem engines_come_to_rest_resting : restingLabel 0 = .read .retry 0 ∧ ∃ K, ∀ k ≥ K,
    (restingLabel k).proc? ≠ some .notification ∧ (restingLabel k).proc? ≠ some .retry := by
  refine ⟨rfl, engines_come_to_rest (W := anyRegular cpython InRange) (T := notifiers)
    (fun h => h.2) (reachable_refusedOnce inRange_zero) labelled_resting (fun k henv => ?_)
    fun k o => ?_⟩
  · by_cases hk : k = 0
    · simp [hk, restingLabel] at henv
    · simp [hk, resting]
  · by_cases hk : k = 0 <;> simp [hk, restingLabel]

namespace Deployment

theorem answered_anyRegular (w : Unit) (e : Effect cpython) :
    ∃ r w', (anyRegular cpython InRange).answer w e r w' :=
  ⟨_, (), (store.answers_reply 60 (.ok (.bool true)) e).admissible,
    regular_reply inRange_minute _ e⟩

/-- Both engines have read their topics. -/
theorem stuck_retriedOnce (i : Engine conf) (hi : i = .notification ∨ i = .retry)
    (l : Label (Engine conf) (Effect cpython) Effect.Answer)
    (s' : SystemState (anyRegular cpython InRange) conf)
    (hl : Labelled (system (anyRegular cpython InRange) conf notifiers False) retriedOnce l s')
    (hproc : l.proc? = some i) : ∃ o, l = .crash i o := by
  rcases hi with rfl | rfl
  · exact stuck_of_idle (n := 1) rfl (by decide +kernel) hl hproc
  · exact stuck_of_idle (n := 1) rfl (by decide +kernel) hl hproc

end Deployment

open Deployment in
/-- After the refused alarm was sent at the second try, all is committed. -/
theorem committed_at_rest_retriedOnce :
    (retriedOnce.log .retry).length = 1 ∧
      retriedOnce.committed .retry = (retriedOnce.log .retry).length := by
  refine ⟨by decide +kernel, ?_⟩
  exact (committed_at_rest (W := anyRegular cpython InRange) (T := notifiers) (fun h => h.2)
    (measures_cpython (by decide)) answered_anyRegular reachable_retriedOnce stuck_retriedOnce).1

end MonascaNotification
