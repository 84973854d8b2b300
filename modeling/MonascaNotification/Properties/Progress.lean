import MonascaNotification.Infra.Progress
import MonascaNotification.Properties.AlarmDelivery
import MonascaNotification.Properties.Drained
import MonascaNotification.Properties.PeriodicChain
import MonascaNotification.Properties.RetryBound

/-!
# Every alarm gets its turn

The engines run for ever, and alarms may arrive for ever. In a run that is fair to an engine and in
which this engine is not stopped any more, each message on its topic is committed at some time. So

* each alarm is committed, and each notification that was built from it is accepted by a plugin or
  dropped for a reason in the end: none waits for ever (`alarms_are_concluded`)
* a periodic chain goes on without end, with a call of the plugin in each link, until it has a
  reason to end (`chain_goes_on`)

Both with any interleaving of the engines and of changes in the database.
-/

namespace MonascaNotification

open Infra Prog Network

section

variable {P : Platform} {W : Environment P} {conf : Config} {T : Notifiers} {mayCrash : Prop}
  {Reading : Rat → Prop} {s : SystemState W conf}

/-! ## The retry engine comes to a conclusion -/

/-- A message that is put back has fewer attempts left. -/
theorem RetryEngine.attemptsLeft_requeued {n : Notification P} {count : Int} {tr : PyTrace P}
    (h : Performs conf T (.dumps n.toJson) tr .commit) (hcount : n.retryCount = .int count)
    {m : KafkaValue} (hm : m ∈ requeued tr) :
    attemptsLeft conf m < attemptsLeft conf (.dumps n.toJson) := by
  cases RetryEngine.hop h hcount with
  | dropped _ hnone _ =>
    rw [hnone] at hm
    cases hm
  | accepted _ _ _ hnone =>
    rw [hnone] at hm
    cases hm
  | exhausted _ _ _ _ hnone =>
    rw [hnone] at hm
    cases hm
  | again _ m' _ _ hlt hone hm' _ =>
    rw [hone, List.mem_singleton] at hm
    rw [hm, attemptsLeft_toJson hm', attemptsLeft_toJson hcount]
    omega

theorem retry_descends (hW : W.Regular Reading) :
    ((queueContract conf T mayCrash hW).also W.admissible).Descends .retry (Carries P)
      (RetryEngine.Resolved conf T) (attemptsLeft conf) := by
  rintro o m tr e hvalid hadm ⟨h, -, -⟩ he key hkey
  have h : RetryEngine.Performs conf T m tr .commit := by
    cases e with
    | commit => exact h
    | _ => cases he
  obtain ⟨n, rfl, htyped, -⟩ := hvalid trivial
  obtain ⟨count, hcount⟩ := htyped.retryCount_eq
  rcases RetryEngine.forwards h (fun ev hev => (hadm ev hev).2) hkey with
    ⟨ev, hev, m', hpub, hkey'⟩ | hresolved
  · have hless := RetryEngine.attemptsLeft_requeued h hcount (mem_requeued.mpr ⟨ev, hev, hpub⟩)
    exact Or.inl ⟨ev, hev, m', hpub, hkey', hless⟩
  · exact Or.inr hresolved

/-! ## Alarms -/

/-- A notification that was built from an alarm has come to its end. -/
inductive Concluded (T : Notifiers) (s : SystemState W conf) (n : Notification P) : Prop where
  /-- A plugin returned a true value for it. -/
  | accepted (i : Engine conf) (ev : PyEvent P) (m : Notification P) : (i, ev) ∈ s.history →
      delivered ev = some m → m.id = n.id → m.rawAlarm = n.rawAlarm → Concluded T s n
  /-- The step that built it found no plugin for its type. -/
  | unconfigured : T.find? n.type = none → Concluded T s n
  /-- A committed step of the retry engine on a message that carried it dropped it. -/
  | dropped (st : CommittedStep (Engine conf) KafkaValue (Effect P) Effect.Answer) :
      st ∈ s.steps → st.proc = .retry → Carries P st.msg (n.id, n.rawAlarm) →
      RetryEngine.Dropped conf T (n.id, n.rawAlarm) st.msg st.trace → Concluded T s n

/-- The `NotificationEngine` has died on an alarm at an offset up to `o`. -/
inductive NotificationEngine.Died (Reading : Rat → Prop) (s : SystemState W conf) (o : Nat) :
    Prop where
  | indigestible {o' m tr x} : o' ≤ o → (s.log .alarm)[o']? = some m →
      s.phase .notification = .running o' m tr (.raise x) →
      ¬ AlwaysDigestible P conf Reading m → Died Reading s o
  /-- The engine did not get the rows for the alarm. -/
  | unanswered {o' m tr₁ tr₂ x} : o' ≤ o →
      s.phase .notification = .running o' m (tr₁ ++ tr₂) (.raise x) →
      RowsUnknown tr₂ x → Died Reading s o

theorem NotificationEngine.Died.of_diedBy (hW : W.Regular Reading) (hreading : ∃ now, Reading now)
    (h : Reachable (system W conf T mayCrash) s) {o : Nat} (hdied : DiedBy s .notification o) :
    Died Reading s o := by
  obtain ⟨o', m, tr, x, hle, hph⟩ := hdied
  have hinv := (contract W conf T mayCrash).inv_reachable h
  obtain ⟨hm, -⟩ := hinv.running hph
  rcases raised_of_phase hW hreading h hph with hdig | ⟨tr₁, tr₂, rfl, hunknown⟩
  · exact .indigestible hle hm hph hdig
  · exact .unanswered hle hph hunknown

theorem Concluded.of_settled (h : Reachable (system W conf T mayCrash) s) {n : Notification P}
    (hn : Settled s .retry (Carries P) (RetryEngine.Resolved conf T) (n.id, n.rawAlarm)) :
    Concluded T s n := by
  obtain ⟨st, hst, hproc, hcar, ⟨m, hm, hid, hraw⟩ | hdropped⟩ := hn
  · obtain ⟨ev, hev, hdel⟩ := List.mem_filterMap.mp hm
    exact .accepted st.proc ev m ((historyInv_reachable h).steps st hst ev hev) hdel hid hraw
  · exact .dropped st hst hproc hcar hdropped

section Run

variable {run : Nat → SystemState W conf}
  {label : Nat → Label (Engine conf) (Effect P) Effect.Answer}

theorem Concluded.of_le (hstep : ∀ k, Labelled (system W conf T mayCrash) (run k) (label k)
    (run (k + 1))) {k k' : Nat} (hk : k ≤ k') {n : Notification P} (h : Concluded T (run k) n) :
    Concluded T (run k') n := by
  cases h with
  | accepted i ev m hmem hdel hid hraw =>
    exact .accepted i ev m (mem_history_of_le hstep hk hmem) hdel hid hraw
  | unconfigured hfind => exact .unconfigured hfind
  | dropped st hst hproc hcar hdropped =>
    exact .dropped st (mem_steps_of_le hstep hk hst) hproc hcar hdropped

/-- What is on the retry topic comes to its end. -/
theorem eventually_concluded (hW : W.Regular Reading)
    (hinterval : P.Measures Reading conf.interval)
    (htotal : ∀ w (e : Effect P), ∃ r w', W.answer w e r w')
    (hstart : Reachable (system W conf T mayCrash) (run 0))
    (hstep : ∀ k, Labelled (system W conf T mayCrash) (run k) (label k) (run (k + 1)))
    (hfair : Fair (system W conf T mayCrash) run label .retry)
    (hno : ∀ k o, label k ≠ .crash .retry o) {k : Nat} {m : KafkaValue}
    (hm : m ∈ (run k).log .retry) {n : Notification P} (hn : Carries P m (n.id, n.rawAlarm)) :
    ∃ k' ≥ k, Concluded T (run k') n := by
  obtain ⟨k', hk', hsettled | ⟨o, o', m', tr, x, -, hdied⟩⟩ :=
    eventually_settled (D := contract W conf T mayCrash) (retry_descends hW) (commitsOnce .retry)
      htotal hstart hstep hfair hno hm hn
  · exact ⟨k', hk', .of_settled (reachable_run hstart hstep k') hsettled⟩
  · exact absurd hdied (retry_not_raised hW hinterval (reachable_run hstart hstep k'))

/--
**Every alarm is concluded.** Take any infinite run that is fair to the `NotificationEngine` and
the `RetryEngine` and in which neither is stopped any more. Alarms may arrive for ever. For each
alarm on its topic, at some time the `NotificationEngine` has committed a step on it, and each
notification that this step built was accepted by a plugin, or dropped for one of the reasons of the
`RetryEngine`, or had no plugin; or the engine has died, on this alarm or on one before it, which is
not digestible or whose rows it did not get.
-/
theorem alarms_are_concluded (hW : W.Regular Reading)
    (hinterval : P.Measures Reading conf.interval)
    (htotal : ∀ w (e : Effect P), ∃ r w', W.answer w e r w')
    (hstart : Reachable (system W conf T mayCrash) (run 0))
    (hstep : ∀ k, Labelled (system W conf T mayCrash) (run k) (label k) (run (k + 1)))
    (hfair : ∀ i : Engine conf, i = .notification ∨ i = .retry →
      Fair (system W conf T mayCrash) run label i)
    (hno : ∀ k o, label k ≠ .crash .notification o ∧ label k ≠ .crash .retry o) {k o : Nat}
    {alarm : KafkaValue} (halarm : ((run k).log .alarm)[o]? = some alarm) :
    ∃ k' ≥ k, NotificationEngine.Died Reading (run k') o ∨ ∃ st ∈ (run k').steps,
      st.proc = .notification ∧ st.offset = o ∧ st.msg = alarm ∧ ∃ ns, BuiltIn conf st ns ∧
        ∀ n ∈ ns, Concluded T (run k') n := by
  obtain ⟨k₁, hk₁, ⟨st, hst, hproc, hoff, hmsg⟩ | hdied⟩ :=
    eventually_step (contract W conf T mayCrash) (commitsOnce .notification) htotal hstart hstep
      (hfair _ (Or.inl rfl)) (fun k o => (hno k o).1) halarm
  · have hreach := reachable_run hstart hstep k₁
    obtain ⟨hperf, -, -⟩ := performs_of_step hreach hst
    rw [hproc] at hperf
    obtain ⟨ns, tr₁, tr₂, htr, hbuilt, hns⟩ := NotificationEngine.accounted hperf
    have hhist := historyInv_reachable hreach
    have hall : ∀ n ∈ ns, ∃ k ≥ k₁, Concluded T (run k) n := by
      intro n hn
      rcases hns n hn with ⟨m, hm, hid, hraw⟩ | ⟨ev, hev, m, hpub, hcar⟩ | hfind
      · obtain ⟨ev, hev, hdel⟩ := List.mem_filterMap.mp hm
        exact ⟨k₁, Nat.le_refl k₁,
          .accepted st.proc ev m (hhist.steps st hst ev hev) hdel hid hraw⟩
      · have hlog : m ∈ (run k₁).log .retry :=
          hhist.published _ (hhist.steps st hst ev hev) _ hpub
        exact eventually_concluded hW hinterval htotal hstart hstep (hfair _ (Or.inr rfl))
          (fun k o => (hno k o).2) hlog hcar
      · exact ⟨k₁, Nat.le_refl k₁, .unconfigured hfind⟩
    obtain ⟨k₂, hk₂, hall⟩ := exists_ge_forall_mem (p := fun n k => Concluded T (run k) n)
      (fun hk => Concluded.of_le hstep hk) ns hall
    exact ⟨k₂, by omega, Or.inr ⟨st, mem_steps_of_le hstep hk₂ hst, hproc, hoff, hmsg, ns,
      ⟨tr₁, tr₂, htr, hbuilt⟩, hall⟩⟩
  · obtain ⟨now, _, hnow⟩ := htotal (run 0).world .time
    exact ⟨k₁, hk₁, Or.inl (.of_diedBy hW ⟨now, hW hnow⟩ (reachable_run hstart hstep k₁) hdied)⟩

end Run

/-! ## Periodic chains -/

namespace PeriodicEngine

/-- The step has called a plugin for the notification, or found none for its type. -/
def Repeated (T : Notifiers) (n : Notification P) (tr : PyTrace P) : Prop :=
  (∃ m ∈ sends tr, m.id = n.id ∧ m.rawAlarm = n.rawAlarm) ∨
    ∃ m tr₁, tr₁ <+: tr ∧ Read (.dumps n.toJson) tr₁ (some m) ∧ T.find? m.type = none

theorem Continued.repeated {self : PeriodicEngine conf} {n : Notification P} {tr : PyTrace P}
    (h : Continued self n tr) (hperf : Performs self T (.dumps n.toJson) tr .commit) :
    Repeated T n tr := by
  obtain ⟨_, hpub, -⟩ := h
  cases hperf with
  | silent hs => cases hs
  | drop hr => simp [hr.quiet.publications] at hpub
  | stop hr hs _ => simp [hr.quiet.publications, hs.quiet.publications] at hpub
  | @commit tr₁ tr₂ tr₃ tr₄ m _ now _ sent failed hr hs _ hw hh _ =>
    obtain ⟨hid, hraw, -⟩ := hr.refreshed.some
    rcases hh.singleton with ⟨hfind, -⟩ | ⟨_, t, -, hsends, -⟩
    · exact Or.inr ⟨m, tr₁, by simp [List.append_assoc], hr, hfind⟩
    · refine Or.inl ⟨(m.stamp now).stamp t, ?_, hid, hraw⟩
      simp [sends_cons, hsends]

/-- How a chain has come to the offset `b`, or why it has not. -/
inductive Advanced (self : PeriodicEngine conf) (T : Notifiers) (s : SystemState W conf)
    (key : Json × Json × Json) (b : Nat) : Prop where
  | continued (st : CommittedStep (Engine conf) KafkaValue (Effect P) Effect.Answer)
      (n : Notification P) : st ∈ s.steps → st.proc = .periodic self → b ≤ st.offset →
      st.msg = .dumps n.toJson → (n.id, n.rawAlarm, n.retryCount) = key →
      Continued self n st.trace → Repeated T n st.trace → Advanced self T s key b
  | ended (st : CommittedStep (Engine conf) KafkaValue (Effect P) Effect.Answer)
      (n : Notification P) : st ∈ s.steps → st.proc = .periodic self →
      st.msg = .dumps n.toJson → (n.id, n.rawAlarm, n.retryCount) = key →
      Ended self n st.trace → Stopped st.trace → Advanced self T s key b
  /-- The engine did not get the state of an alarm, and died of it. -/
  | died {o m tr₁ tr₂ x} :
      s.phase (.periodic self) = .running o m (tr₁ ++ tr₂) (.raise x) →
      StateUnknown tr₂ x → Advanced self T s key b

/-- A committed step on a message of the chain took it on or ended it. -/
theorem Advanced.of_step {self : PeriodicEngine conf}
    (h : Reachable (system W conf T mayCrash) s)
    {st : CommittedStep (Engine conf) KafkaValue (Effect P) Effect.Answer} (hst : st ∈ s.steps)
    (hproc : st.proc = .periodic self) {key : Json × Json × Json} (hkey : Carries P st.msg key)
    {b : Nat} (hb : b ≤ st.offset ∨ ∃ n : Notification P, st.msg = .dumps n.toJson ∧
      (n.id, n.rawAlarm, n.retryCount) = key ∧ Ended self n st.trace) :
    Advanced self T s key b := by
  obtain ⟨hperf, hadm, -⟩ := performs_of_step h hst
  rw [hproc] at hperf
  have hstep : ∀ n : Notification P, st.msg = .dumps n.toJson →
      Performs self T (.dumps n.toJson) st.trace .commit := fun n hn => hn ▸ hperf
  rcases hb with hb | ⟨n, hn, hkey, hended⟩
  · obtain ⟨n, hn, hkey⟩ := hkey
    rcases continued_or_ended (hstep n hn) hadm with ⟨-, hcont⟩ | ⟨hended, hstop⟩
    · exact .continued st n hst hproc hb hn hkey hcont (hcont.repeated (hstep n hn))
    · exact .ended st n hst hproc hn hkey hended hstop
  · rcases continued_or_ended (hstep n hn) hadm with ⟨hgoes, -⟩ | ⟨-, hstop⟩
    · exact absurd hended hgoes
    · exact .ended st n hst hproc hn hkey hended hstop

/--
**A chain goes on without end, until it has a reason to end.** Take any infinite run that is fair to
the engine of a period and in which it is not stopped any more. Whatever a message on its topic
carries, and however far we look: at some time the engine has committed a link at this offset or
behind it, with a call of the plugin and the next link; or a committed link had a reason to end; or
the engine has died, because it did not get the state of an alarm.
-/
theorem chain_goes_on (self : PeriodicEngine conf) (hW : W.Regular Reading)
    (hperiod : P.Measures Reading self.period)
    (htotal : ∀ w (e : Effect P), ∃ r w', W.answer w e r w') {run : Nat → SystemState W conf}
    {label : Nat → Label (Engine conf) (Effect P) Effect.Answer}
    (hstart : Reachable (system W conf T mayCrash) (run 0))
    (hstep : ∀ k, Labelled (system W conf T mayCrash) (run k) (label k) (run (k + 1)))
    (hfair : Fair (system W conf T mayCrash) run label (.periodic self))
    (hno : ∀ k o, label k ≠ .crash (.periodic self) o) {k : Nat} {m : KafkaValue}
    (hm : m ∈ (run k).log (.periodic self.topicName)) {key : Json × Json × Json}
    (hkey : Carries P m key) (b : Nat) : ∃ k' ≥ k, Advanced self T (run k') key b := by
  obtain ⟨o, ho⟩ := List.mem_iff_getElem?.mp hm
  obtain ⟨k', hk', hend⟩ := eventually_again (relays (W := W) (T := T) self) htotal hstart hstep
    hfair hno b ho hkey
  have hreach := reachable_run hstart hstep k'
  refine ⟨k', hk', ?_⟩
  rcases hend with ⟨st, hst, hproc, hb, hkey⟩ | ⟨st, hst, hproc, hkey, hended⟩ |
    ⟨_, o', m', tr, x, -, hdied⟩
  · exact .of_step hreach hst hproc hkey (Or.inl hb)
  · exact .of_step hreach hst hproc hkey (Or.inr hended)
  · obtain ⟨tr₁, tr₂, rfl, hunknown⟩ := unknown_of_phase self hW hperiod hreach hdied
    exact .died hdied hunknown

end PeriodicEngine

end

/-! ## In the deployment -/

namespace Deployment

theorem exists_fair_refused (is : List (Engine conf)) :
    ∃ (run : Nat → SystemState (anyRegular cpython InRange) conf)
      (label : Nat → Label (Engine conf) (Effect cpython) Effect.Answer),
      run 0 = refusedOnce InRange ∧
      (∀ k, Labelled (system (anyRegular cpython InRange) conf notifiers False) (run k) (label k)
        (run (k + 1))) ∧
      (∀ k i o, label k ≠ .crash i o) ∧
      ∀ i ∈ is, Fair (system (anyRegular cpython InRange) conf notifiers False) run label i := by
  obtain ⟨run, label, hzero, hstep, hno, -, hfair⟩ :=
    exists_fair (N := system (anyRegular cpython InRange) conf notifiers False)
      (fun _ => ⟨[], rfl, trivial⟩) (refusedOnce InRange) is
  exact ⟨run, label, hzero, hstep, hno, hfair⟩

end Deployment

open Deployment in
/-- From the refused alarm on there are fair runs, and in them the alarm is concluded. -/
theorem alarms_are_concluded_refused :
    ∃ run : Nat → SystemState (anyRegular cpython InRange) conf, run 0 = refusedOnce InRange ∧
      ∃ k, NotificationEngine.Died InRange (run k) 0 ∨ ∃ st ∈ (run k).steps,
        st.proc = .notification ∧ st.offset = 0 ∧
        st.msg = transitionMessage (alarm "OK" "ALARM") ∧ ∃ ns,
          BuiltIn conf st ns ∧ ∀ n ∈ ns, Concluded notifiers (run k) n := by
  obtain ⟨run, label, hzero, hstep, hno, hfair⟩ := exists_fair_refused [.notification, .retry]
  have halarm : ((run 0).log .alarm)[0]? = some (transitionMessage (alarm "OK" "ALARM")) := by
    rw [hzero]
    rfl
  obtain ⟨k, -, hk⟩ := alarms_are_concluded (W := anyRegular cpython InRange) (fun h => h.2)
    (measures_cpython (by decide)) answered_anyRegular
    (hzero ▸ reachable_refusedOnce inRange_zero) hstep
    (by rintro i (rfl | rfl) <;> exact hfair _ (by simp)) (fun k o => ⟨hno k _ o, hno k _ o⟩) halarm
  exact ⟨run, hzero, k, hk⟩

open Deployment in
/-- From the refused alarm on there are fair runs, and in them its chain gets to every offset. -/
theorem PeriodicEngine.chain_goes_on_refused :
    ∃ run : Nat → SystemState (anyRegular cpython InRange) conf, run 0 = refusedOnce InRange ∧
      ∃ n : Notification cpython, onPeriodic = .dumps n.toJson ∧
        ∀ b, ∃ k, Advanced everyMinute notifiers (run k) (n.id, n.rawAlarm, n.retryCount) b := by
  obtain ⟨run, label, hzero, hstep, hno, hfair⟩ := exists_fair_refused [.periodic everyMinute]
  have hreach : Reachable (system (anyRegular cpython InRange) conf notifiers False) (run 0) :=
    hzero ▸ reachable_refusedOnce inRange_zero
  have hm : onPeriodic ∈ (run 0).log (.periodic everyMinute.topicName) := by
    have hlog : (refusedOnce InRange).log (.periodic everyMinute.topicName) = [onPeriodic] := by
      decide +kernel
    rw [hzero, hlog]
    exact List.mem_singleton_self _
  have hinv := (queueContract conf notifiers False
    (fun h => h.2 : (anyRegular cpython InRange).Regular InRange)).inv_reachable hreach
  obtain ⟨n, hn, -⟩ := hinv.valid _ _ hm trivial
  refine ⟨run, hzero, n, hn, fun b => ?_⟩
  obtain ⟨k, -, hk⟩ := chain_goes_on (W := anyRegular cpython InRange) everyMinute (fun h => h.2)
    (measures_cpython (by decide)) answered_anyRegular hreach hstep (hfair _ (by simp))
    (fun k o => hno k _ o) hm ⟨n, hn, rfl⟩ b
  exact ⟨k, hk⟩

end MonascaNotification
