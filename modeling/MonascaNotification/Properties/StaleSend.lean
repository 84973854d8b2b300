import MonascaNotification.Spec.System

/-!
# What an engine knows when it sends

The retry engine and the periodic engine read the database, then sleep, then send. So a
notification agrees with the database of the reads, and with the database of the send exactly
when the rows that were read are still the same after the sleep (`fresh_at_reads`). Nothing
is read again after the sleep, so a change made meanwhile is not seen (`stale_sends`).
-/

namespace MonascaNotification

open Infra Prog Network

section

variable {P : Platform} {conf : Config} {T : Notifiers}

/-! ## Agreement with the database -/

/-- The method of the notification is stored with the same name, type, address and period. -/
def Store.HoldsMethod (d : Store) (n : Notification P) : Prop :=
  (d.method n.id).map StoredMethod.columns = some [n.name, n.type, n.address, n.period]

/-- The alarm is stored in the state of the notification. -/
def Store.HoldsState (d : Store) (n : Notification P) : Prop :=
  (d.alarmState n.alarmId).map Json.str = some n.state

instance (d : Store) (n : Notification P) : Decidable (d.HoldsMethod n) :=
  inferInstanceAs (Decidable (_ = _))

instance (d : Store) (n : Notification P) : Decidable (d.HoldsState n) :=
  inferInstanceAs (Decidable (_ = _))

namespace Engine

/-- The notification agrees with the database in everything that the engine checks. -/
def Fresh : Engine conf → Store → Notification P → Prop
  | .periodic _, d, n => d.HoldsMethod n ∧ d.HoldsState n
  | _, d, n => d.HoldsMethod n

/-- The rows that the engine checks are the same in both databases. -/
def SameRows : Engine conf → Store → Store → Notification P → Prop
  | .periodic _, d, d', n =>
    d'.method n.id = d.method n.id ∧ d'.alarmState n.alarmId = d.alarmState n.alarmId
  | _, d, d', n => d'.method n.id = d.method n.id

instance (i : Engine conf) (d : Store) (n : Notification P) : Decidable (i.Fresh d n) :=
  match i with
  | .notification => inferInstanceAs (Decidable (d.HoldsMethod n))
  | .retry => inferInstanceAs (Decidable (d.HoldsMethod n))
  | .periodic _ => inferInstanceAs (Decidable (_ ∧ _))

end Engine

theorem StoredMethod.columns_injective : Function.Injective StoredMethod.columns := by
  intro m m' h
  cases m
  cases m'
  simp only [columns, List.cons.injEq, Json.str.injEq, and_true] at h
  obtain ⟨rfl, rfl, rfl, rfl⟩ := h
  rfl

theorem Store.HoldsMethod.iff {d d' : Store} {n : Notification P} (h : d.HoldsMethod n) :
    d'.HoldsMethod n ↔ d'.method n.id = d.method n.id := by
  unfold HoldsMethod at h ⊢
  rw [← h]
  exact (Option.map_injective StoredMethod.columns_injective).eq_iff

theorem Store.HoldsState.iff {d d' : Store} {n : Notification P} (h : d.HoldsState n) :
    d'.HoldsState n ↔ d'.alarmState n.alarmId = d.alarmState n.alarmId := by
  have hinj : Function.Injective Json.str := fun _ _ heq => Json.str.inj heq
  unfold HoldsState at h ⊢
  rw [← h]
  exact (Option.map_injective hinj).eq_iff

/-- What agrees with one database agrees with another exactly when the rows are the same. -/
theorem Engine.Fresh.iff {i : Engine conf} {d d' : Store} {n : Notification P}
    (h : i.Fresh d n) : i.Fresh d' n ↔ i.SameRows d d' n := by
  cases i with
  | notification => exact Store.HoldsMethod.iff h
  | retry => exact Store.HoldsMethod.iff h
  | periodic self => exact and_congr (Store.HoldsMethod.iff h.1) (Store.HoldsState.iff h.2)

/-! ## While the engine is awake -/

/-- The engine does not sleep on the trace. -/
def Awake (tr : PyTrace P) : Prop := ∀ ev ∈ tr, ∀ seconds, ev.1 ≠ .sleep seconds

theorem awake_append {tr₁ tr₂ : PyTrace P} (h₁ : Awake tr₁) (h₂ : Awake tr₂) :
    Awake (tr₁ ++ tr₂) := by
  intro ev hev
  rcases List.mem_append.mp hev with hev | hev
  · exact h₁ ev hev
  · exact h₂ ev hev

theorem StoredAnswer.awake {id : Json} {answer : Except PyExn (Option (List Json))}
    {tr : PyTrace P} (h : StoredAnswer P id answer tr) : Awake tr := by
  cases h <;> simp [Awake]

theorem PeriodicEngine.StateAnswer.awake {alarmId : Json} {answer : Option String}
    {tr : PyTrace P} (h : StateAnswer P alarmId answer tr) : Awake tr := by
  cases h <;> simp [Awake]

theorem Refreshed.awake {n : Notification P} {tr : PyTrace P} {r : Option (Notification P)}
    (h : Refreshed n tr r) : Awake tr := by
  cases h with
  | deleted h => exact h.awake
  | stored h => exact h.awake
  | cached h => exact h.awake
  | shortRow h _ => exact h.awake
  | failed h _ => exact h.awake

/-- Until the engine sleeps, every query is answered from the same database. -/
theorem answers_awake {d d' : Store} {tr : PyTrace P}
    (h : Answers (system (whileAsleep P) conf T False) d tr d') (hawake : Awake tr) :
    d' = d ∧ ∀ ev ∈ tr, d.Answers ev.1 ev.2 := by
  induction h with
  | nil => exact ⟨rfl, by simp⟩
  | @cons w e r w₁ tr w' hone _ ih =>
    obtain ⟨hans, hw⟩ := hone
    have hsame : w₁ = w := hw.resolve_right fun ⟨q, hq⟩ => hawake ⟨e, r⟩ (by simp) q hq
    subst hsame
    obtain ⟨hend, hrest⟩ := ih fun ev hev => hawake ev (by simp [hev])
    refine ⟨hend, fun ev hev => ?_⟩
    rcases List.mem_cons.mp hev with rfl | hev
    · exact hans
    · exact hrest ev hev

/-! ## The reads -/

/-- A notification that could be read from any message was decoded and then refreshed. -/
theorem Read.exists_refreshed {message : KafkaValue} {tr : PyTrace P} {n : Notification P}
    (h : Read message tr (some n)) : ∃ n₀, Refreshed n₀ tr (some n) := by
  obtain ⟨data, -, h⟩ := h
  cases hdec : decodeNotification P data with
  | error x =>
    unfold constructNotificationObject at h
    rw [hdec] at h
    cases h.2
  | ok n₀ => exact ⟨n₀, runs_constructNotificationObject hdec h⟩

/-- What was read from the database is stored there. -/
theorem Refreshed.holdsMethod {n₀ n : Notification P} {tr : PyTrace P} {d : Store}
    (h : Refreshed n₀ tr (.some n)) (hans : ∀ ev ∈ tr, d.Answers ev.1 ev.2) :
    d.HoldsMethod n := by
  cases h with
  | @stored name type address period rest h =>
    have hrow : (.ok (.some (name :: type :: address :: period :: rest)) :
        Except PyExn (Option (List Json))) = .ok ((d.method n₀.id).map StoredMethod.columns) :=
      hans _ h.mem
    cases hm : d.method n₀.id with
    | none =>
      rw [hm] at hrow
      cases hrow
    | some row =>
      rw [hm] at hrow
      cases hrow
      show (d.method n₀.id).map StoredMethod.columns = _
      rw [hm]
      rfl
  | cached h => cases hans _ h.mem

theorem PeriodicEngine.StateAnswer.holdsState {n : Notification P} {current : Option String}
    {tr : PyTrace P} {d : Store} (h : StateAnswer P n.alarmId current tr)
    (hans : ∀ ev ∈ tr, d.Answers ev.1 ev.2)
    (hstate : ∃ st, current = some st ∧ Json.str st = n.state) : d.HoldsState n := by
  obtain ⟨st, rfl, hst⟩ := hstate
  have hcur : (.ok (some st) : Except PyExn (Option String)) = .ok (d.alarmState n.alarmId) :=
    hans _ h.mem
  cases hd : d.alarmState n.alarmId with
  | none =>
    rw [hd] at hcur
    cases hcur
  | some st' =>
    rw [hd] at hcur
    cases hcur
    show (d.alarmState n.alarmId).map Json.str = _
    rw [hd, ← hst]
    rfl

/-! ## The send -/

/-- All queries of the trace stand in front of its first sleep. -/
def ReadsFirst (tr : PyTrace P) : Prop :=
  ∃ tr₁ tr₂, tr = tr₁ ++ tr₂ ∧ Awake tr₁ ∧ ∀ ev ∈ tr₂, ev.1.isQuery = false

theorem Waited.isQuery {tr : PyTrace P} (h : Waited tr) : ∀ ev ∈ tr, ev.1.isQuery = false := by
  cases h <;> simp [Effect.isQuery]

/--
**A send agrees with the database of the reads.** Let the database change while an engine
sleeps. Whenever the retry engine or a periodic engine hands a notification to a plugin, the
notification agrees with the database `d` at the start of the step. Every query stands before
the sleep. The notification agrees with the database `d'` of the send exactly when the rows
are the same as in `d`.
-/
theorem fresh_at_reads {i : Engine conf} (hi : i ≠ .notification) {o : Nat} {m : KafkaValue}
    {tr : PyTrace P} {notifier : Notifier} {n : Notification P} {d d' : Store}
    (h : Prog.Performs (i.body P T o m) tr (.sendNotification notifier n))
    (hdb : Answers (system (whileAsleep P) conf T False) d tr d') :
    i.Fresh d n ∧ ReadsFirst tr ∧ (i.Fresh d' n ↔ i.SameRows d d' n) := by
  have hfresh : i.Fresh d n ∧ ReadsFirst tr := by
    cases i with
    | notification => exact absurd rfl hi
    | retry =>
      cases RetryEngine.performs_body h with
      | silent hs => cases hs
      | @plugin tr₁ tr₂ n _ now hr hw _ =>
        obtain ⟨n₀, hread⟩ := hr.exists_refreshed
        rw [List.append_assoc] at hdb
        obtain ⟨d₁, hone, -⟩ := answers_append.mp hdb
        obtain ⟨-, hans⟩ := answers_awake hone hread.awake
        refine ⟨hread.holdsMethod hans, tr₁, tr₂ ++ [⟨.time, now⟩], by simp, hread.awake, ?_⟩
        simpa [Effect.isQuery, or_imp, forall_and] using hw.isQuery
    | periodic self =>
      cases PeriodicEngine.performs_body h with
      | silent hs => cases hs
      | @plugin tr₁ tr₂ tr₃ n current _ now now' hr hstate hgo hw _ =>
        obtain ⟨n₀, hread⟩ := hr.exists_refreshed
        have hawake : Awake (tr₁ ++ tr₂) := awake_append hread.awake hstate.awake
        rw [List.append_assoc (tr₁ ++ tr₂)] at hdb
        obtain ⟨d₁, hone, -⟩ := answers_append.mp hdb
        obtain ⟨-, hans⟩ := answers_awake hone hawake
        refine ⟨⟨hread.holdsMethod fun ev hev => hans ev (List.mem_append_left _ hev), ?_⟩,
          tr₁ ++ tr₂, tr₃ ++ [⟨.time, now⟩, ⟨.time, now'⟩], by simp, hawake, ?_⟩
        · exact hstate.holdsState (fun ev hev => hans ev (List.mem_append_right _ hev)) hgo.1
        · simpa [Effect.isQuery, or_imp, forall_and] using hw.isQuery
  exact ⟨hfresh.1, hfresh.2, hfresh.1.iff⟩

/-- A send in a run in which the sleep ends with the store `later`, found by running it. -/
theorem exists_send_asleep (i : Engine conf) (m : KafkaValue) (d later : Store) (k : Nat)
    (bad : Store → Notification P → Bool)
    (hbad : ((((i.body P T 0 m).trace (Store.semAsleep later 0 (.ok (.bool true))) d)[k]?.bind
      attempted).any (bad
        ((i.body P T 0 m).stateAt (Store.semAsleep later 0 (.ok (.bool true))) d k))) = true) :
    ∃ tr notifier n d', Prog.Performs (i.body P T 0 m) tr (.sendNotification notifier n) ∧
      Answers (system (whileAsleep P) conf T False) d tr d' ∧ bad d' n = true := by
  obtain ⟨n, hn, hbad⟩ := (Option.any_eq_true _ _).mp hbad
  obtain ⟨⟨e, r⟩, hev, hatt⟩ := Option.bind_eq_some_iff.mp hn
  have hperf := performs_take_trace _ _ _ hev
  have hdb := Answers.take_trace (N := system (whileAsleep P) conf T False)
    (fun w e => whileAsleep_answer later 0 (.ok (.bool true)) w e) (i.body P T 0 m) d k
  cases e with
  | sendNotification notifier n' =>
    cases hatt
    exact ⟨_, notifier, n, _, hperf, hdb, hbad⟩
  | _ => cases hatt

end

open Deployment in
/-- A retry step in the deployment, with the method deleted during the sleep. -/
theorem fresh_at_reads_deleted : ∃ tr notifier n d',
    Prog.Performs ((Engine.retry : Engine conf).body cpython notifiers 0 onRetry) tr
      (.sendNotification notifier n) ∧
    Answers (system (whileAsleep cpython) conf notifiers False) store tr d' ∧
    (Engine.retry : Engine conf).Fresh store n ∧ ReadsFirst tr ∧
    ((Engine.retry : Engine conf).Fresh d' n ↔
      (Engine.retry : Engine conf).SameRows store d' n) := by
  obtain ⟨tr, notifier, n, d', hperf, hdb, -⟩ := exists_send_asleep (P := cpython)
    (T := notifiers) (Engine.retry : Engine conf) onRetry store
    { store with method := fun _ => none } 4 (fun _ _ => true) (by decide +kernel)
  exact ⟨tr, notifier, n, d', hperf, hdb,
    fresh_at_reads (i := (Engine.retry : Engine conf)) (by decide) hperf hdb⟩

/-! ## Two stale sends -/

open Deployment in
/--
The method is deleted while the retry engine sleeps, and the notification is handed to the
plugin. The alarm leaves its state while the periodic engine sleeps, and so is this one.
-/
theorem stale_sends :
    (∃ tr notifier n d',
      Prog.Performs ((Engine.retry : Engine conf).body cpython notifiers 0 onRetry) tr
        (.sendNotification notifier n) ∧
      Answers (system (whileAsleep cpython) conf notifiers False) store tr d' ∧
      ¬ (Engine.retry : Engine conf).Fresh d' n) ∧
    ∃ tr notifier n d',
      Prog.Performs ((Engine.periodic everyMinute).body cpython notifiers 0 onPeriodic) tr
        (.sendNotification notifier n) ∧
      Answers (system (whileAsleep cpython) conf notifiers False) store tr d' ∧
      ¬ (Engine.periodic everyMinute).Fresh d' n := by
  constructor
  · obtain ⟨tr, notifier, n, d', hperf, hdb, hbad⟩ := exists_send_asleep (P := cpython)
      (T := notifiers) (Engine.retry : Engine conf) onRetry store
      { store with method := fun _ => none } 4
      (fun d n => !decide ((Engine.retry : Engine conf).Fresh d n)) (by decide +kernel)
    exact ⟨tr, notifier, n, d', hperf, hdb, by simpa using hbad⟩
  · obtain ⟨tr, notifier, n, d', hperf, hdb, hbad⟩ := exists_send_asleep (P := cpython)
      (T := notifiers) (.periodic everyMinute) onPeriodic store
      { store with alarmState := fun _ => some "OK" } 6
      (fun d n => !decide ((Engine.periodic everyMinute).Fresh d n)) (by decide +kernel)
    exact ⟨tr, notifier, n, d', hperf, hdb, by simpa using hbad⟩

end MonascaNotification
