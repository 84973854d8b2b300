import MonascaNotification.Spec.System

/-!
# A periodic chain goes on until it has a reason to end

A message on a periodic topic is one link of a chain: the step that commits it has published
exactly one successor, or there was a reason to stop (`Ended`) and it has published none and
called no plugin. The reasons are the answers that the database gave in this very step.

`ended_iff` is the heart: over the two tries for the method, with the cached method as
fallback, and the two tries for the state, without one, the reasons hold exactly when the
check of the engine fails.
-/

namespace MonascaNotification

open Infra Prog Network

variable {P : Platform} {W : Environment P} {conf : Config} {T : Notifiers}

namespace PeriodicEngine

/-- The message carries a notification: its method id, its raw alarm, and its retry count. -/
def Carries (P : Platform) (m : KafkaValue) (key : Json × Json × Json) : Prop :=
  ∃ n : Notification P, m = .dumps n.toJson ∧ (n.id, n.rawAlarm, n.retryCount) = key

/-- Why a chain ends, as the answers in a step on the document of `n` say it. -/
inductive Ended (self : PeriodicEngine conf) (n : Notification P) (tr : PyTrace P) : Prop where
  | methodDeleted :
      (⟨.getNotification n.id, (.ok none : Except PyExn (Option (List Json)))⟩ : PyEvent P) ∈ tr →
      Ended self n tr
  | periodChanged (name : Json) (type : String) (address period : Json) :
      (⟨.getNotification n.id, (.ok (some [name, .str type, address, period]) :
        Except PyExn (Option (List Json)))⟩ : PyEvent P) ∈ tr →
      period.eqInt self.period = false → Ended self n tr
  /-- Both tries for the method failed, and the carried period is not ours. -/
  | carriedPeriod :
      [⟨.getNotification n.id, (.error .databaseException : Except PyExn (Option (List Json)))⟩,
       ⟨.getNotification n.id, (.error .databaseException : Except PyExn (Option (List Json)))⟩]
        <+: tr → n.period.eqInt self.period = false → Ended self n tr
  | alarmDeleted :
      (⟨.getAlarmCurrentState n.alarmId, (.ok none : Except PyExn (Option String))⟩ :
        PyEvent P) ∈ tr → Ended self n tr
  | stateChanged (state : String) :
      (⟨.getAlarmCurrentState n.alarmId, (.ok (some state) : Except PyExn (Option String))⟩ :
        PyEvent P) ∈ tr → Json.str state ≠ n.state → Ended self n tr

/-! ## The queries of a step -/

/-- The two queries of a step do not get in each other's way. -/
theorem mem_queries {id alarmId : Json} {answer : Except PyExn (Option (List Json))}
    {current : Option String} {tr₁ tr₂ rest : PyTrace P}
    (h₁ : StoredAnswer P id answer tr₁) (h₂ : StateAnswer P alarmId current tr₂)
    (hrest : ∀ ev ∈ rest, ev.1.isQuery = false) :
    (∀ id' r, (⟨.getNotification id', r⟩ : PyEvent P) ∈ tr₁ ++ tr₂ ++ rest →
      (⟨.getNotification id', r⟩ : PyEvent P) ∈ tr₁) ∧
    (∀ id' r, (⟨.getAlarmCurrentState id', r⟩ : PyEvent P) ∈ tr₁ ++ tr₂ ++ rest →
      (⟨.getAlarmCurrentState id', r⟩ : PyEvent P) ∈ tr₂) := by
  constructor
  · intro id' r hmem
    rcases List.mem_append.mp hmem with hmem | hmem
    · rcases List.mem_append.mp hmem with hmem | hmem
      · exact hmem
      · cases h₂ <;> simp at hmem
    · cases hrest _ hmem
  · intro id' r hmem
    rcases List.mem_append.mp hmem with hmem | hmem
    · rcases List.mem_append.mp hmem with hmem | hmem
      · cases h₁ <;> simp at hmem
      · exact hmem
    · cases hrest _ hmem

/-- A step reads one state: the one that counts. -/
theorem eq_of_mem_queries {id alarmId : Json} {answer : Except PyExn (Option (List Json))}
    {current : Option String} {tr₁ tr₂ rest : PyTrace P}
    (h₁ : StoredAnswer P id answer tr₁) (h₂ : StateAnswer P alarmId current tr₂)
    (hrest : ∀ ev ∈ rest, ev.1.isQuery = false) (current' : Option String)
    (h : (⟨.getAlarmCurrentState alarmId, (.ok current' : Except PyExn (Option String))⟩ :
      PyEvent P) ∈ tr₁ ++ tr₂ ++ rest) : current' = current := by
  rcases h₂.eq_of_mem ((mem_queries h₁ h₂ hrest).2 _ _ h) with h | h
  · cases h
  · exact Except.ok.inj h

/-- Both tries failed exactly when the answer that counts is the exception. -/
theorem prefix_iff {id : Json} {answer : Except PyExn (Option (List Json))}
    {tr rest : PyTrace P} (h : StoredAnswer P id answer tr) :
    [⟨.getNotification id, (.error .databaseException : Except PyExn (Option (List Json)))⟩,
     ⟨.getNotification id, (.error .databaseException : Except PyExn (Option (List Json)))⟩]
      <+: tr ++ rest ↔ answer = .error .databaseException := by
  cases h with
  | first hne =>
    simp only [List.cons_append, List.nil_append, List.cons_prefix_cons]
    constructor
    · rintro ⟨heq, -⟩
      cases heq
      rfl
    · exact fun heq => absurd heq hne
  | second =>
    simp only [List.cons_append, List.nil_append, List.cons_prefix_cons, List.nil_prefix,
      and_true, true_and]
    constructor
    · intro heq
      cases heq
      rfl
    · rintro rfl
      rfl

/-! ## The reasons and the check -/

/--
The reasons to end are exactly what the engine checks. `m` is the notification of the document
`n` after the method was read along `tr₁`, and the state was read along `tr₂`.
-/
theorem ended_iff {self : PeriodicEngine conf} {n m : Notification P} {current : Option String}
    {tr₁ tr₂ rest : PyTrace P}
    (hread : Refreshed { n with notificationTimestamp := .null } tr₁ (some m))
    (hstate : StateAnswer P m.alarmId current tr₂) (hadm : Trace.Admits Effect.Admissible tr₁)
    (hrest : ∀ ev ∈ rest, ev.1.isQuery = false) :
    Ended self n (tr₁ ++ tr₂ ++ rest) ↔ ¬ self.goesOn current m.state m.period := by
  have hslots : m.toAlarmSlots = n.toAlarmSlots := hread.some.2.2.2
  have halarm : m.alarmId = n.alarmId := by rw [hslots]
  have hst : m.state = n.state := by rw [hslots]
  rw [halarm] at hstate
  rw [hst]
  have hmem : (⟨.getAlarmCurrentState n.alarmId, (.ok current : Except PyExn (Option String))⟩ :
      PyEvent P) ∈ tr₁ ++ tr₂ ++ rest := by
    simp [hstate.mem]
  -- the way from a failed check to a reason is the same, however the method was read
  have hback : ∀ {period : Json}, (period.eqInt self.period = false →
      Ended self n (tr₁ ++ tr₂ ++ rest)) → ¬ self.goesOn current n.state period →
      Ended self n (tr₁ ++ tr₂ ++ rest) := by
    intro period hperiod hgo
    cases current with
    | none => exact .alarmDeleted hmem
    | some state =>
      by_cases heq : Json.str state = n.state
      · refine hperiod ?_
        by_contra hne
        exact hgo ⟨⟨state, rfl, heq⟩, by simpa using hne⟩
      · exact .stateChanged state hmem heq
  cases hread with
  | @stored name type address period cols hans =>
    have hans : StoredAnswer P n.id (.ok (some (name :: type :: address :: period :: cols))) tr₁ :=
      hans
    have hq := (mem_queries hans hstate hrest).1
    have hstate_eq := eq_of_mem_queries hans hstate hrest
    constructor
    · rintro (h | ⟨_, _, _, p, h, hp⟩ | ⟨h, -⟩ | h | ⟨st, h, hne⟩) ⟨⟨cur, rfl, hcur⟩, hper⟩
      · rcases hans.eq_of_mem (hq _ _ h) with h | h <;> cases h
      · rcases hans.eq_of_mem (hq _ _ h) with h | h <;> cases h
        rw [hp] at hper
        cases hper
      · rw [List.append_assoc] at h
        cases (prefix_iff hans).mp h
      · cases hstate_eq none h
      · cases hstate_eq (some st) h
        exact hne hcur
    · refine hback fun hper => ?_
      obtain ⟨s, rfl, rfl⟩ : ∃ s, type = Json.str s ∧ cols = [] := by
        rcases hadm _ hans.mem with h | h | ⟨_, s, _, _, h⟩ <;> cases h
        exact ⟨s, rfl, rfl⟩
      exact .periodChanged name s address period (by simp [hans.mem]) hper
  | cached hans =>
    have hans : StoredAnswer P n.id (.error .databaseException) tr₁ := hans
    have hq := (mem_queries hans hstate hrest).1
    have hstate_eq := eq_of_mem_queries hans hstate hrest
    constructor
    · rintro (h | ⟨_, _, _, p, h, hp⟩ | ⟨-, hp⟩ | h | ⟨st, h, hne⟩) ⟨⟨cur, rfl, hcur⟩, hper⟩
      · rcases hans.eq_of_mem (hq _ _ h) with h | h <;> cases h
      · rcases hans.eq_of_mem (hq _ _ h) with h | h <;> cases h
      · have hper : n.period.eqInt self.period = true := hper
        rw [hp] at hper
        cases hper
      · cases hstate_eq none h
      · cases hstate_eq (some st) h
        exact hne hcur
    · refine hback fun hper => .carriedPeriod ?_ hper
      rw [List.append_assoc]
      exact (prefix_iff hans).mpr rfl

/-- The step has published one successor of the notification on the topic of the engine. -/
def Continued (self : PeriodicEngine conf) (n : Notification P) (tr : PyTrace P) : Prop :=
  ∃ m : Notification P, publications tr = [(.periodic self.topicName, .dumps m.toJson)] ∧
    m.id = n.id ∧ m.rawAlarm = n.rawAlarm ∧ m.retryCount = n.retryCount

/-- The step has published nothing and called no plugin. -/
def Stopped (tr : PyTrace P) : Prop := publications tr = [] ∧ sends tr = []

/--
What a step on the document of `n` that commits has done. It read the method along `tr₁` and the
state along `tr₂`, and went on or stopped by the check; or there was nothing to go on with.
-/
inductive Stepped (self : PeriodicEngine conf) (n : Notification P) (tr : PyTrace P) : Prop where
  | checked {tr₁ tr₂ rest m current} : tr = tr₁ ++ tr₂ ++ rest →
      Refreshed { n with notificationTimestamp := .null } tr₁ (some m) →
      StateAnswer P m.alarmId current tr₂ → (∀ ev ∈ rest, ev.1.isQuery = false) →
      (self.goesOn current m.state m.period → Continued self n tr) →
      (¬ self.goesOn current m.state m.period → Stopped tr) → Stepped self n tr
  | dropped : Refreshed { n with notificationTimestamp := .null } tr none → Stopped tr →
      Stepped self n tr

theorem stepped {self : PeriodicEngine conf} {n : Notification P} {tr : PyTrace P}
    (h : Performs self T (.dumps n.toJson) tr .commit) : Stepped self n tr := by
  cases h with
  | silent hs => cases hs
  | drop hr => exact .dropped hr.refreshed ⟨hr.quiet.publications, hr.quiet.sends⟩
  | stop hr hs hgo =>
    have hquiet := quiet_append.mpr ⟨hr.quiet, hs.quiet⟩
    refine .checked (List.append_nil _).symm hr.refreshed hs (by simp) (fun h => absurd h hgo)
      fun _ => ?_
    exact ⟨hquiet.publications, hquiet.sends⟩
  | @commit tr₁ tr₂ tr₃ tr₄ m current now now' sent failed hr hs hgo hw hh hm =>
    have hrest : ∀ ev ∈ tr₃ ++ ⟨.time, now⟩ :: tr₄ ++
        [publishes P (.periodic self.topicName) [(m.stamp now').toJson]],
        ev.1.isQuery = false := by
      have hw' : ∀ ev ∈ tr₃, ev.1.isQuery = false := by
        cases hw <;> simp [Effect.isQuery]
      simpa [Effect.isQuery, or_imp, forall_and] using ⟨hw', hh.isQuery⟩
    obtain ⟨hid, hraw, hcount, -⟩ := hr.refreshed.some
    refine .checked (by simp) hr.refreshed hs hrest (fun _ => ⟨m.stamp now', ?_, hid, hraw, hcount⟩)
      fun h => absurd hgo h
    simp [hr.quiet.publications, hs.quiet.publications, hw.quiet.publications,
      hh.publications, Effect.published]

/-- **One step of a chain.** A step that commits has gone on without a reason to end, or stopped
with one. -/
theorem continued_or_ended {self : PeriodicEngine conf} {n : Notification P} {tr : PyTrace P}
    (h : Performs self T (.dumps n.toJson) tr .commit)
    (hadm : Trace.Admits Effect.Admissible tr) :
    ¬ Ended self n tr ∧ Continued self n tr ∨ Ended self n tr ∧ Stopped tr := by
  cases stepped h with
  | dropped hr hstop =>
    have hdel := hr.deleted_of_none hadm
    exact Or.inr ⟨.methodDeleted hdel.mem, hstop⟩
  | @checked tr₁ tr₂ rest m current htr hr hs hrest hgoes hstops =>
    have hadm₁ : Trace.Admits Effect.Admissible tr₁ := by
      rw [htr] at hadm
      simp only [Trace.admits_append] at hadm
      exact hadm.1.1
    have hend : Ended self n tr ↔ ¬ self.goesOn current m.state m.period := by
      rw [htr]
      exact ended_iff hr hs hadm₁ hrest
    by_cases hgo : self.goesOn current m.state m.period
    · exact Or.inl ⟨fun h => hend.mp h hgo, hgoes hgo⟩
    · exact Or.inr ⟨hend.mpr hgo, hstops hgo⟩

/-! ## Every run -/

theorem relays {mayCrash : Prop} (self : PeriodicEngine conf) :
    (contract W conf T mayCrash).Relays (.periodic self) (Carries P) fun key m tr =>
      ∃ n : Notification P, m = .dumps n.toJson ∧ (n.id, n.rawAlarm, n.retryCount) = key ∧
        Ended self n tr where
  toCommitsOnce := commitsOnce _
  forwards := by
    rintro o m tr e hadm h he key ⟨n, rfl, rfl⟩
    have hperf : Performs self T (.dumps n.toJson) tr .commit := by
      cases e with
      | commit => exact h
      | _ => cases he
    rcases continued_or_ended hperf hadm with ⟨-, m, hpub, hid, hraw, hcount⟩ | ⟨hend, -⟩
    · have hmem : (Topic.periodic self.topicName, KafkaValue.dumps m.toJson) ∈ publications tr := by
        simp [hpub]
      obtain ⟨ev, hev, hpub⟩ := List.mem_flatMap.mp hmem
      exact Or.inl ⟨ev, hev, _, hpub, m, rfl, by rw [hid, hraw, hcount]⟩
    · exact Or.inr ⟨n, rfl, rfl, hend⟩

/--
**A chain is never lost.** In every reachable state, with crashes at any point:

* every step of the engine that reached its commit was on a document, and went on without a
  reason to end or stopped with one
* a step that has not reached its commit is on the message at the committed offset, which is
  read again after a crash
* whatever a message on the topic carried is carried by an uncommitted message, or a committed
  step on such a message had a reason to end
-/
theorem chain_continues (self : PeriodicEngine conf) {s : SystemState W conf}
    (h : Reachable (system W conf T True) s) :
    (∀ st ∈ s.steps, st.proc = .periodic self → IsDocument P st.msg ∧
      ∀ n : Notification P, st.msg = .dumps n.toJson →
        ¬ Ended self n st.trace ∧ Continued self n st.trace ∨
          Ended self n st.trace ∧ Stopped st.trace) ∧
    (∀ {o m tr p}, s.phase (.periodic self) = .running o m tr p →
      (∀ ev ∈ tr, ev.1.isCommit = false) → s.committed (.periodic self) = o ∧
        (s.log (.periodic self.topicName))[o]? = some m) ∧
    ∀ key, (∃ m ∈ s.log (.periodic self.topicName), Carries P m key) →
      Pending (system W conf T True) s (.periodic self) (Carries P) key ∨
      ∃ st ∈ s.steps, st.proc = .periodic self ∧ ∃ n : Notification P,
        st.msg = .dumps n.toJson ∧ (n.id, n.rawAlarm, n.retryCount) = key ∧
          Ended self n st.trace := by
  refine ⟨fun st hst hproc => ?_, fun hph hno => ?_, ?_⟩
  · obtain ⟨hperf, hadm, hdoc⟩ := performs_of_step h hst
    rw [hproc] at hperf hdoc
    refine ⟨hdoc.resolve_left (by simp [Engine.source]), fun n hn => ?_⟩
    rw [hn] at hperf
    exact continued_or_ended hperf hadm
  · exact ⟨(cursor_reachable (contract W conf T True) (commitsOnce _) h).before hph hno,
      ((contract W conf T True).inv_reachable h).running hph |>.1⟩
  · rintro key ⟨m, hm, hkey⟩
    rcases relay (relays self) h m hm hkey with hp | ⟨st, hst, hproc, -, hend⟩
    · exact Or.inl hp
    · exact Or.inr ⟨st, hst, hproc, hend⟩

/-- In the deployment, the chain of the first alarm has gone on after a minute. -/
theorem chain_continues_minuteLater :
    (Deployment.minuteLater false).committed (.periodic Deployment.everyMinute) = 1 ∧
    ∀ st ∈ (Deployment.minuteLater false).steps, st.proc = .periodic Deployment.everyMinute →
      IsDocument cpython st.msg ∧ ∀ n : Notification cpython, st.msg = .dumps n.toJson →
        ¬ Ended Deployment.everyMinute n st.trace ∧
            Continued Deployment.everyMinute n st.trace ∨
          Ended Deployment.everyMinute n st.trace ∧ Stopped st.trace :=
  ⟨by decide +kernel, (chain_continues Deployment.everyMinute
    (reachable_of_no_crash (Deployment.reachable_minuteLater false))).1⟩

end PeriodicEngine

end MonascaNotification
