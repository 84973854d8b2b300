import MonascaNotification.Model.Main
import MonascaNotification.Properties.Partition
import MonascaNotification.Properties.PeriodicChain
import MonascaNotification.Python.Integer

/-!
# The topic of a period

The engine of an alarm looks the topic up by the text of a period; `main` reads a period from each
text, and the engine of that period writes the text again to find its topic. Nothing compares the
topics with each other: `int` undoes `str`, so that some engine of the period reads the topic, but
another period may have the same topic, and its engine drops the message.
-/

namespace MonascaNotification

open Infra Prog

section

variable {P : Platform} {conf : Config} {T : Notifiers}

/-! ## The engines that `main` starts -/

namespace PeriodicEngine

/-- An engine is determined by its period: the topic is looked up. -/
theorem eq_of_period {self other : PeriodicEngine conf} (h : self.period = other.period) :
    self = other := by
  obtain ⟨p, t, ht⟩ := self
  obtain ⟨q, u, hu⟩ := other
  cases h
  rw [ht] at hu
  cases hu
  rfl

theorem period_of_init {periodicPath : List (String × String)} {period : Int}
    {self : PeriodicEngine conf} (h : init conf periodicPath period = .ok self) :
    self.period = period := by
  unfold init at h
  split at h
  · cases h
  · split at h
    · cases h
    · cases h
      rfl

end PeriodicEngine

namespace Main

variable {int : String → Except PyExn Int} {periodicPath : List (String × String)} {number : Int}
  {running : List (Engine conf)}

theorem startProcess_eq_periodic {process : ProcessType} {self : PeriodicEngine conf}
    (h : startProcess conf periodicPath process = .ok (.periodic self)) :
    process = .periodicEngine self.period := by
  cases process with
  | notificationEngine => cases h
  | retryEngine => cases h
  | periodicEngine period =>
    obtain ⟨other, hinit, heq⟩ := map_eq_ok.mp h
    cases heq
    rw [PeriodicEngine.period_of_init hinit]

theorem mem_processors {processes : List ProcessType}
    (h : processors int conf number = .ok processes) {period : Int} :
    .periodicEngine period ∈ processes ↔ ∃ item ∈ conf.periodic, int item.1 = .ok period := by
  obtain ⟨periodic, hmap, h⟩ := bind_eq_ok.mp h
  cases h
  rw [List.mem_append, List.mem_cons, mem_mapM_iff hmap]
  constructor
  · rintro (h | h | ⟨item, hitem, h⟩)
    · cases List.eq_of_mem_replicate h
    · cases h
    · obtain ⟨q, hq, heq⟩ := map_eq_ok.mp h
      cases heq
      exact ⟨item, hitem, hq⟩
  · rintro ⟨item, hitem, h⟩
    exact .inr (.inr ⟨item, hitem, by rw [h]; rfl⟩)

/-- There is a periodic engine for each key, with the period that was read from it. -/
theorem mem_engines (h : engines int conf periodicPath number = .ok running)
    {self : PeriodicEngine conf} :
    .periodic self ∈ running ↔ ∃ item ∈ conf.periodic, int item.1 = .ok self.period := by
  obtain ⟨processes, hprocesses, hstart⟩ := bind_eq_ok.mp h
  rw [← mem_processors hprocesses]
  constructor
  · intro hself
    obtain ⟨process, hprocess, heq⟩ := exists_mem_of_mapM_eq_ok hstart hself
    rw [startProcess_eq_periodic heq] at hprocess
    exact hprocess
  · intro hprocess
    obtain ⟨engine, hengine, heq⟩ := exists_of_mem_of_mapM_eq_ok hstart hprocess
    obtain ⟨other, hinit, hother⟩ := map_eq_ok.mp heq
    cases hother
    rw [PeriodicEngine.eq_of_period (PeriodicEngine.period_of_init hinit).symm]
    exact hengine

/-- A period whose text is a key has its engine, which reads the topic of that key. -/
theorem periodic_mem_engines (hint : ∀ n : Int, int (toString n) = .ok n)
    (h : engines int conf periodicPath number = .ok running) (self : PeriodicEngine conf) :
    .periodic self ∈ running := by
  have hitem : (toString self.period, self.topicName) ∈ conf.periodic := by
    obtain ⟨before, after, heq, -⟩ := List.lookup_eq_some_iff.mp self.topic_eq
    rw [heq]
    exact List.mem_append_right _ List.mem_cons_self
  exact (mem_engines h).mpr ⟨_, hitem, hint _⟩

end Main

/-! ## The check of the period -/

/--
The alarm and its method are as `n` has them: each query along the trace raised, or got the same
method and the same state.
-/
structure Unchanged (n : Notification P) (tr : PyTrace P) : Prop where
  method : ∀ answer : Except PyExn (Option (List Json)),
    (⟨.getNotification n.id, answer⟩ : PyEvent P) ∈ tr → answer = .error .databaseException ∨
      answer = .ok (some [n.name, n.type, n.address, n.period])
  alarm : ∀ answer : Except PyExn (Option String),
    (⟨.getAlarmCurrentState n.alarmId, answer⟩ : PyEvent P) ∈ tr →
      answer = .error .databaseException ∨ ∃ state, answer = .ok (some state) ∧ .str state = n.state

theorem Unchanged.of_answers {d : Store} {n : Notification P} {tr : PyTrace P}
    (h : Trace.Admits d.Answers tr)
    (hmethod : (d.method n.id).map StoredMethod.columns =
      some [n.name, n.type, n.address, n.period])
    (halarm : ∃ state, d.alarmState n.alarmId = some state ∧ .str state = n.state) :
    Unchanged n tr where
  method answer hmem := by
    have hanswer : answer = .ok ((d.method n.id).map StoredMethod.columns) := h _ hmem
    rw [hanswer, hmethod]
    exact .inr rfl
  alarm answer hmem := by
    obtain ⟨state, hstored, hstate⟩ := halarm
    have hanswer : answer = .ok (d.alarmState n.alarmId) := h _ hmem
    rw [hanswer, hstored]
    exact .inr ⟨state, rfl, hstate⟩

namespace PeriodicEngine

/-- With the alarm and the method unchanged, a step can only end a chain for its period. -/
theorem continued_or_stopped {self : PeriodicEngine conf} {n : Notification P} {tr : PyTrace P}
    (h : Performs self T (.dumps n.toJson) tr .commit) (hsame : Unchanged n tr) :
    (n.period.eqInt self.period = true → Continued self n tr) ∧
      (n.period.eqInt self.period = false → Stopped tr) := by
  have hmethod : ∀ {answer tr₁}, StoredAnswer P n.id answer tr₁ → tr₁ ⊆ tr →
      answer = .error .databaseException ∨
        answer = .ok (some [n.name, n.type, n.address, n.period]) :=
    fun hans hsub => hsame.method _ (hsub hans.mem)
  cases stepped h with
  -- the method is there and has four columns
  | dropped hr _ =>
    exfalso
    cases hr with
    | deleted hans => rcases hmethod hans (List.Subset.refl _) with h | h <;> cases h
    | failed hans hne =>
      rcases hmethod hans (List.Subset.refl _) with h | h
      · cases h
        exact hne rfl
      · cases h
    | shortRow hans hshort =>
      rcases hmethod hans (List.Subset.refl _) with h | h <;> cases h
      exact absurd hshort (by simp)
  | @checked tr₁ tr₂ rest m current htr hr hs _ hgoes hstops =>
    have hsub₁ : tr₁ ⊆ tr := by
      rw [htr, List.append_assoc]
      exact List.subset_append_left _ _
    -- stored or cached, the period is the one of the document
    have hperiod : m.period = n.period := by
      cases hr with
      | cached _ => rfl
      | stored hans => rcases hmethod hans hsub₁ with h | h <;> cases h; rfl
    have hslots : m.toAlarmSlots = n.toAlarmSlots := hr.some.2.2.2
    have hsub₂ : tr₂ ⊆ tr := by
      rw [htr]
      exact fun _ h => List.mem_append_left _ (List.mem_append_right _ h)
    have hstate : ∃ state, current = some state ∧ Json.str state = m.state := by
      have hmem := hs.mem
      rw [hslots] at hmem ⊢
      rcases hsame.alarm _ (hsub₂ hmem) with h | ⟨state, h, hstate⟩ <;> cases h
      exact ⟨state, rfl, hstate⟩
    rw [goesOn, hperiod] at hgoes hstops
    constructor
    · exact fun hmine => hgoes ⟨hstate, hmine⟩
    · intro hother
      refine hstops fun hgo => ?_
      rw [hother] at hgo
      cases hgo.2

/-- The answers when nothing has changed, and the commit. -/
def sameAnswers (n : Notification P) (state : String) : PyTrace P :=
  [⟨.getNotification n.id,
      (.ok (some [n.name, n.type, n.address, n.period]) : Except PyExn (Option (List Json)))⟩,
   ⟨.getAlarmCurrentState n.alarmId, (.ok (some state) : Except PyExn (Option String))⟩,
   ⟨.commit, ()⟩]

theorem unchanged_sameAnswers {n : Notification P} {state : String} (h : .str state = n.state) :
    Unchanged n (sameAnswers n state) where
  method answer hmem := by
    simp only [sameAnswers, List.mem_cons, List.not_mem_nil, or_false] at hmem
    rcases hmem with hmem | hmem | hmem <;> cases hmem
    exact .inr rfl
  alarm answer hmem := by
    simp only [sameAnswers, List.mem_cons, List.not_mem_nil, or_false] at hmem
    rcases hmem with hmem | hmem | hmem <;> cases hmem
    exact .inr ⟨state, rfl, h⟩

/-- With these answers an engine of another period commits the message and does nothing else. -/
theorem runs_body_other (self : PeriodicEngine conf) {n : Notification P} {state : String}
    (hperiod : n.period.eqInt self.period = false) :
    Runs (self.body T (.dumps n.toJson)) (sameAnswers n state) (.ok ()) := by
  have hread : Runs (constructNotificationObject n.toJson)
      [⟨.getNotification n.id,
        (.ok (some [n.name, n.type, n.address, n.period]) : Except PyExn (Option (List Json)))⟩]
      (.ok (some { n with notificationTimestamp := .null })) := by
    rw [runs_constructNotificationObject_iff, decodeNotification_toJson]
    exact ⟨_, .first (by simp), rfl⟩
  have hkeep : Runs (self.keepSending n.alarmId n.state n.period : Py P Bool)
      [⟨.getAlarmCurrentState n.alarmId, (.ok (some state) : Except PyExn (Option String))⟩]
      (.ok false) := by
    refine runs_keepSending_iff.mpr ⟨some state, .first, (decide_eq_false fun hgo => ?_).symm⟩
    rw [goesOn, hperiod] at hgo
    cases hgo.2
  refine runs_bind_ok.mpr ⟨[], _, n.toJson, rfl, ⟨rfl, rfl⟩, ?_⟩
  refine runs_bind_ok.mpr ⟨_, _, _, rfl, hread, ?_⟩
  exact runs_bind_ok.mpr ⟨_, _, _, rfl, hkeep, ⟨_, _, rfl, rfl, rfl⟩⟩

end PeriodicEngine

/-! ## The engines of a topic -/

/-- No other period has the topic. -/
def OwnTopic (conf : Config) (topicName : String) (period : Int) : Prop :=
  ∀ other : Int, conf.periodic.lookup (toString other) = some topicName → other = period

/-- What is published carries the period by which its topic was found. -/
theorem lookup_of_publish {ns : List (Notification P)} {tr : PyTrace P} {topicName : String}
    {n : Notification P}
    (h : Prog.Performs (NotificationEngine.addPeriodicNotifications conf ns) tr
      (.publish (.periodic topicName) [n.toJson])) :
    conf.periodic.lookup (n.period.toStr P) = some topicName := by
  rcases NotificationEngine.performs_addPeriodicNotifications h with
    h | ⟨_, m, _, _, _, now, topicName', -, -, -, hlook, heq⟩
  · cases h
  · injection heq with htopic hdocs
    injection htopic with htopic
    have hdoc : n.toJson = (m.stamp now).toJson := List.head_eq_of_cons_eq hdocs
    have hperiod : n.period = m.period := by
      have hdec := decodeNotification_toJson n
      rw [hdoc, decodeNotification_toJson] at hdec
      injection hdec with hdec
      exact (congrArg Notification.period hdec).symm
    rw [hperiod, htopic]
    exact hlook

/--
**Whether a periodic notification is kept.** There is an engine of its period on its topic. The
other engines of the topic have this period too exactly when the topic is that of no other period.
As long as the alarm and its method stay as they are, an engine of this period goes on with the
message, and one of another period drops it.
-/
theorem Main.periodic_kept_iff {int : String → Except PyExn Int}
    (hint : ∀ n : Int, int (toString n) = .ok n) {periodicPath : List (String × String)}
    {number : Int} {running : List (Engine conf)}
    (hstart : engines int conf periodicPath number = .ok running)
    {ns : List (Notification P)} {tr : PyTrace P} {topicName : String} {n : Notification P}
    (hpub : Prog.Performs (NotificationEngine.addPeriodicNotifications conf ns) tr
      (.publish (.periodic topicName) [n.toJson]))
    {period : Int} (hperiod : n.period = .int period) :
    (∃ self : PeriodicEngine conf, .periodic self ∈ running ∧ self.topicName = topicName ∧
      self.period = period) ∧
    ((∀ self : PeriodicEngine conf, .periodic self ∈ running → self.topicName = topicName →
      self.period = period) ↔ OwnTopic conf topicName period) ∧
    ∀ self : PeriodicEngine conf, .periodic self ∈ running → self.topicName = topicName →
      ∀ (T : Notifiers) (tr : PyTrace P),
        Prog.Performs (self.body T (.dumps n.toJson)) tr .commit → Unchanged n tr →
          (self.period = period → self.Continued n tr) ∧
            (self.period ≠ period → PeriodicEngine.Stopped tr) := by
  have hlook : conf.periodic.lookup (toString period) = some topicName := by
    have h := lookup_of_publish hpub
    rw [hperiod] at h
    exact h
  refine ⟨?_, ?_, ?_⟩
  · exact ⟨⟨period, topicName, hlook⟩, periodic_mem_engines hint hstart _, rfl, rfl⟩
  · -- every engine that can be constructed is running, also the one of another period
    constructor
    · intro h other hother
      exact h ⟨other, topicName, hother⟩ (periodic_mem_engines hint hstart _) rfl
    · rintro hown self - rfl
      exact hown self.period self.topic_eq
  · intro self _ _ T tr h hsame
    obtain ⟨hgoes, hstops⟩ :=
      PeriodicEngine.continued_or_stopped (PeriodicEngine.performs_body h) hsame
    have hcheck : n.period.eqInt self.period = decide (period = self.period) := by
      rw [hperiod]
      simp [Json.eqInt, Json.asInt?, beq_eq_decide]
    rw [hcheck] at hgoes hstops
    constructor
    · exact fun heq => hgoes (decide_eq_true heq.symm)
    · exact fun hne => hstops (decide_eq_false (Ne.symm hne))

end

namespace Deployment

/-- The notification that the engine has stamped. -/
def periodicNotification : Notification cpython := (notificationOf "email").stamp 0

theorem performs_publish_periodic {conf : Config} {topicName : String}
    (h : conf.periodic.lookup "60" = some topicName) :
    Prog.Performs (NotificationEngine.addPeriodicNotifications conf [notificationOf "email"])
      [⟨.time, (0 : Rat)⟩] (.publish (.periodic topicName) [periodicNotification.toJson]) := by
  have hlook : conf.periodic.lookup ((notificationOf "email").period.toStr cpython) =
      some topicName := h
  unfold NotificationEngine.addPeriodicNotifications
  rw [hlook]
  exact .inr ⟨_, _, rfl, .inl ⟨rfl, rfl⟩⟩

/-- A topic for each of two periods. -/
def twoTopics : Config :=
  { conf with
    periodic := [("60", "60-seconds-notifications"), ("1800", "1800-seconds-notifications")] }

def minutely : PeriodicEngine twoTopics where
  period := 60
  topicName := "60-seconds-notifications"
  topic_eq := by decide +kernel

def halfHourly : PeriodicEngine twoTopics where
  period := 1800
  topicName := "1800-seconds-notifications"
  topic_eq := by decide +kernel

/-- A minute after the alarm, with a plugin that accepts. -/
def minuteReply (e : Effect cpython) (w : Unit) : e.Answer × Unit :=
  (store.reply 60 (.ok (.bool true)) e, w)

/-- One topic for both periods. -/
def oneTopic : Config :=
  { conf with periodic := [("60", "periodic-notifications"), ("120", "periodic-notifications")] }

def everyTwoMinutes : PeriodicEngine oneTopic where
  period := 120
  topicName := "periodic-notifications"
  topic_eq := by decide +kernel

end Deployment

open Deployment in
/--
Each of two periods has a topic of its own. The engine of a minute goes on with its message when
the store is as before.
-/
theorem Main.periodic_kept_twoTopics :
    (∃ self : PeriodicEngine twoTopics,
      .periodic self ∈ [Engine.notification, .retry, .periodic minutely, .periodic halfHourly] ∧
        self.topicName = "60-seconds-notifications" ∧ self.period = 60) ∧
    (∀ self : PeriodicEngine twoTopics,
      .periodic self ∈ [Engine.notification, .retry, .periodic minutely, .periodic halfHourly] →
        self.topicName = "60-seconds-notifications" → self.period = 60) ∧
    ∃ tr : PyTrace cpython,
      Prog.Performs (minutely.body notifiers (.dumps periodicNotification.toJson)) tr .commit ∧
        minutely.Continued periodicNotification tr := by
  have hstart : engines intOfText twoTopics [("60", "/60"), ("1800", "/1800")] 1 =
      .ok [.notification, .retry, .periodic minutely, .periodic halfHourly] := by decide +kernel
  have hlook : twoTopics.periodic.lookup "60" = some "60-seconds-notifications" := rfl
  obtain ⟨hexists, hall, hkept⟩ := Main.periodic_kept_iff intOfText_toString hstart
    (performs_publish_periodic hlook) rfl
  refine ⟨hexists, hall.mpr fun other hother => ?_, ?_⟩
  · obtain ⟨before, after, heq, -⟩ := List.lookup_eq_some_iff.mp hother
    have hmem : (toString other, "60-seconds-notifications") ∈ twoTopics.periodic := by
      rw [heq]
      exact List.mem_append_right _ List.mem_cons_self
    have htext : toString other = toString (60 : Int) := by
      rcases List.mem_pair.mp hmem with h | h
      · exact congrArg Prod.fst h
      · have htopic : "60-seconds-notifications" = "1800-seconds-notifications" :=
          congrArg Prod.snd h
        exact absurd htopic (by decide)
    have hint := intOfText_toString other
    rw [htext, intOfText_toString] at hint
    cases hint
    rfl
  · let message : KafkaValue := .dumps periodicNotification.toJson
    have hok : ((minutely.body notifiers message).run minuteReply ()).1 = .ok () := by
      decide +kernel
    have hrun := runs_trace_of_eq hok
    obtain ⟨tr, htr, -⟩ := PeriodicEngine.runs_body hrun
    have hanswers : Trace.Admits store.Answers
        ((minutely.body notifiers message).trace minuteReply ()) :=
      admits_trace (fun e _ => store.answers_reply 60 _ e) _ ()
    rw [htr] at hrun hanswers
    have hsame : Unchanged periodicNotification tr :=
      .of_answers (Trace.admits_append.mp hanswers).1 rfl ⟨"ALARM", rfl, rfl⟩
    have hcommit := hrun.performs
    exact ⟨tr, hcommit, (hkept minutely (by simp) rfl notifiers tr hcommit hsame).1 rfl⟩

open Deployment in
/-- Where another period has the same topic, its engine is started too, and drops the message. -/
theorem Main.shared_topic_drops :
    (∃ running, engines intOfText oneTopic [("60", "/60"), ("120", "/120")] 1 = .ok running ∧
      .periodic everyTwoMinutes ∈ running) ∧
    Prog.Performs (NotificationEngine.addPeriodicNotifications oneTopic [notificationOf "email"])
      [⟨.time, (0 : Rat)⟩]
      (.publish (.periodic everyTwoMinutes.topicName) [periodicNotification.toJson]) ∧
    periodicNotification.period = .int 60 ∧ everyTwoMinutes.period = 120 ∧
    ∃ tr : PyTrace cpython, Unchanged periodicNotification tr ∧
      Runs (everyTwoMinutes.body notifiers (.dumps periodicNotification.toJson)) tr (.ok ()) ∧
      PeriodicEngine.Stopped tr := by
  refine ⟨⟨[.notification, .retry, .periodic ⟨60, "periodic-notifications", ?_⟩,
    .periodic everyTwoMinutes], ?_, ?_⟩, ?_, rfl, rfl, ?_⟩
  · decide +kernel
  · decide +kernel
  · decide +kernel
  · exact performs_publish_periodic (by decide +kernel)
  · refine ⟨_, PeriodicEngine.unchanged_sameAnswers rfl,
      everyTwoMinutes.runs_body_other (by decide), ?_, ?_⟩
    · rfl
    · rfl

end MonascaNotification
