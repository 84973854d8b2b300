import MonascaNotification.Infra.Serial
import MonascaNotification.Properties.AlarmDelivery
import MonascaNotification.Properties.ChainCount
import MonascaNotification.Properties.Partition
import MonascaNotification.Properties.SentRecord

/-!
# The books are balanced

In runs without crashes the counters of the `NotificationEngine` and the lengths of the topics say
where each notification is: what was created was recorded as sent, waits on the retry topic, was
given up by the `RetryEngine`, or had an unconfigured type. Nothing is counted twice and nothing is
missing.
-/

namespace MonascaNotification

open Infra Prog Network

section

variable {P : Platform} {W : Environment P} {conf : Config} {T : Notifiers}

/-! ## Counters -/

/-- What is added to the counter of this name. -/
def addedTo (name : String) (c : String × Nat) : Nat := if c.1 = name then c.2 else 0

/-- How much a trace adds to a counter. -/
def increments (name : String) (tr : PyTrace P) : Nat :=
  ((tr.filterMap incremented).map (addedTo name)).sum

@[simp] theorem increments_nil (name : String) : increments name ([] : PyTrace P) = 0 := rfl

@[simp] theorem increments_append (name : String) (tr₁ tr₂ : PyTrace P) :
    increments name (tr₁ ++ tr₂) = increments name tr₁ + increments name tr₂ := by
  simp [increments]

theorem increments_cons (name : String) (ev : PyEvent P) (tr : PyTrace P) :
    increments name (ev :: tr) = increments name [ev] + increments name tr := by
  rw [← increments_append, List.singleton_append]

@[simp] theorem increments_increment (name name' : String) (value : Nat) :
    increments name ([⟨.increment name' value, ()⟩] : PyTrace P) =
      if name' = name then value else 0 := by
  simp [increments, incremented, addedTo]

theorem increments_of_not {name : String} {tr : PyTrace P} (h : ∀ ev ∈ tr, ¬ ev.1.Counts) :
    increments name tr = 0 := by
  have hnone : tr.filterMap incremented = [] := by
    refine List.filterMap_eq_nil_iff.mpr fun ev hev => ?_
    have hnot := h ev hev
    obtain ⟨e, r⟩ := ev
    cases e with
    | increment name value => exact absurd trivial hnot
    | _ => rfl
  simp [increments, hnone]

def counter (P : Platform) (name : String) : Meter (Effect P) Effect.Answer where
  of := increments name
  of_nil := rfl
  of_append := increments_append name

/-- The counters that the engines increment besides those of the plugins. -/
def engineCounters : List String :=
  ["alarms_finished_count", "alarms_failed_parse_count", "alarms_no_notification_count",
   "created_count", "sent_failed_count", "invalid_type_count"]

/-- No plugin counts under a name of the engines. -/
def Notifiers.Apart (T : Notifiers) : Prop :=
  ∀ ntype counter, T.counter? ntype = some counter → counter ∉ engineCounters

theorem Notifiers.apart_config {loaded : List Notifier}
    (h : ∀ notifier ∈ loaded, notifier.statsdName ∉ engineCounters) : (config P loaded).Apart := by
  intro ntype counter hcounter
  rw [counter?_config] at hcounter
  obtain ⟨notifier, hfind, rfl⟩ := Option.map_eq_some_iff.mp hcounter
  cases ntype with
  | str t => exact h notifier (List.mem_filter.mp (List.mem_of_getLast? hfind)).1
  | _ => cases hfind

/-! ## One body of the `NotificationEngine` -/

theorem NotificationEngine.Opens.not_counts {ns ns' : List (Notification P)} {tr : PyTrace P}
    (h : Opens conf ns tr ns') : ∀ ev ∈ tr, ¬ ev.1.Counts := by
  induction h with
  | nil => simp
  | periodic _ _ ih => simpa [Effect.Counts] using ih
  | other _ _ ih => exact ih

/-- The loop increments no counter of the engines. -/
theorem increments_sendNotifications (hT : T.Apart) {name : String} (hname : name ∈ engineCounters)
    {ns sent failed invalid : List (Notification P)} {tr : PyTrace P}
    (h : Runs (sendNotifications T ns) tr (.ok (sent, failed, invalid))) :
    increments name tr = 0 := by
  rw [increments, runs_increments h]
  refine List.sum_eq_zero fun k hk => ?_
  obtain ⟨⟨counter, value⟩, hc, rfl⟩ := List.mem_map.mp hk
  obtain ⟨n, -, hn⟩ := List.mem_filterMap.mp hc
  obtain ⟨counter', hcounter, heq⟩ := Option.map_eq_some_iff.mp hn
  cases heq
  rw [addedTo, if_neg]
  rintro rfl
  exact hT _ _ hcounter hname

/-- A send is the loop, and then the two counters of what was not sent. -/
theorem runs_send_counts {ns sent failed : List (Notification P)} {tr : PyTrace P}
    (h : Runs (send T ns) tr (.ok (sent, failed))) : ∃ tr₁ tr₂ invalid, tr = tr₁ ++ tr₂ ∧
      Runs (sendNotifications T ns) tr₁ (.ok (sent, failed, invalid)) ∧
      (∀ ev ∈ tr₂, ev.1.Counts) ∧
      tr₂.filterMap incremented =
        (if failed ≠ [] then [("sent_failed_count", failed.length)] else []) ++
          if invalid ≠ [] then [("invalid_type_count", invalid.length)] else [] := by
  unfold send at h
  replace h := runs_bind_ok.mp h
  obtain ⟨tr₁, tr₂, ⟨s, f, i⟩, rfl, hloop, h⟩ := h
  have hone : ∀ {name value} {tr : PyTrace P},
      Runs (Py.increment name value : Py P Unit) tr (.ok ()) →
        tr = [⟨.increment name value, ()⟩] := by
    rintro name value tr ⟨_, _, rfl, rfl, -⟩
    rfl
  dsimp only at h
  split at h
  · next hfailed =>
    obtain ⟨tr₃, tr₄, _, rfl, h₃, h⟩ := runs_bind_ok.mp h
    rw [hone h₃]
    split at h
    · next hinvalid =>
      obtain ⟨tr₅, tr₆, _, rfl, h₅, rfl, hout⟩ := runs_bind_ok.mp h
      rw [hone h₅]
      cases hout
      refine ⟨tr₁, _, i, rfl, hloop, by simp [Effect.Counts], ?_⟩
      rw [if_pos hfailed, if_pos hinvalid]
      rfl
    · next hinvalid =>
      obtain ⟨rfl, hout⟩ := h
      cases hout
      refine ⟨tr₁, _, i, rfl, hloop, by simp [Effect.Counts], ?_⟩
      rw [if_pos hfailed, if_neg hinvalid]
      rfl
  · next hfailed =>
    split at h
    · next hinvalid =>
      obtain ⟨tr₅, tr₆, _, rfl, h₅, rfl, hout⟩ := runs_bind_ok.mp h
      rw [hone h₅]
      cases hout
      refine ⟨tr₁, _, i, rfl, hloop, by simp [Effect.Counts], ?_⟩
      rw [if_neg hfailed, if_pos hinvalid]
      rfl
    · next hinvalid =>
      obtain ⟨rfl, hout⟩ := h
      cases hout
      refine ⟨tr₁, _, i, rfl, hloop, by simp, ?_⟩
      rw [if_neg hfailed, if_neg hinvalid]
      rfl

/-- What a send adds to the counters of the engines. -/
theorem increments_send (hT : T.Apart) {ns sent failed : List (Notification P)} {tr : PyTrace P}
    (h : Runs (send T ns) tr (.ok (sent, failed))) :
    increments "sent_failed_count" tr = failed.length ∧
      ns.length = sent.length + failed.length + increments "invalid_type_count" tr ∧
      ∀ name ∈ engineCounters, name ≠ "sent_failed_count" → name ≠ "invalid_type_count" →
        increments name tr = 0 := by
  obtain ⟨tr₁, tr₂, invalid, rfl, hloop, -, hcounts⟩ := runs_send_counts h
  have hzero : ∀ name ∈ engineCounters, increments name tr₁ = 0 := fun name hname =>
    increments_sendNotifications hT hname hloop
  have hfailed : increments "sent_failed_count" tr₂ = failed.length := by
    rw [increments, hcounts]
    cases failed <;> cases invalid <;> simp [addedTo]
  have hinvalid : increments "invalid_type_count" tr₂ = invalid.length := by
    rw [increments, hcounts]
    cases failed <;> cases invalid <;> simp [addedTo]
  have hlength : ns.length = sent.length + failed.length + invalid.length := by
    have hd := runs_sendNotifications hloop
    clear hloop h hzero hcounts hfailed hinvalid
    induction hd with
    | nil => rfl
    | invalid _ _ ih => simp only [List.length_cons]; omega
    | sent _ _ _ ih => simp only [List.length_cons]; omega
    | failed _ _ _ ih => simp only [List.length_cons]; omega
  refine ⟨?_, ?_, fun name hname hne hne' => ?_⟩
  · rw [increments_append, hzero _ (by decide), hfailed, Nat.zero_add]
  · rw [increments_append, hzero _ (by decide), hinvalid, Nat.zero_add, hlength]
  · have hother : increments name tr₂ = 0 := by
      rw [increments, hcounts]
      cases failed <;> cases invalid <;> simp [addedTo, Ne.symm hne, Ne.symm hne']
    rw [increments_append, hzero _ hname, hother]

/-! ## Messages -/

theorem Topic.notification_ne_periodic (name : String) : Topic.notification ≠ .periodic name := by
  simp

theorem Topic.retry_ne_periodic (name : String) : Topic.retry ≠ .periodic name := by simp

def onTopic (topic : Topic) (p : Topic × KafkaValue) : Bool := decide (p.1 = topic)

/-- How many messages a trace publishes on a topic. -/
def published (P : Platform) (topic : Topic) : Meter (Effect P) Effect.Answer where
  of := fun tr => (publications tr).countP (onTopic topic)
  of_nil := rfl
  of_append := fun tr₁ tr₂ => by rw [publications_append, List.countP_append]

/-- How many notifications the plugins accepted along a trace. -/
def acceptedSends (P : Platform) : Meter (Effect P) Effect.Answer where
  of := fun tr => (deliveries tr).length
  of_nil := rfl
  of_append := fun tr₁ tr₂ => by rw [deliveries_append, List.length_append]

/-- The publish of what an alarm's notifications came to, empty or not. -/
def isRecord : PyEvent P → Bool
  | ⟨.publish .notification _, _⟩ => true
  | _ => false

theorem countP_onTopic_publish (topic topic' : Topic) (docs : List Json) :
    ((Effect.publish (P := P) topic docs).published).countP (onTopic topic') =
      if topic = topic' then docs.length else 0 := by
  simp only [Effect.published_publish, List.countP_map]
  by_cases h : topic = topic'
  · rw [if_pos h]
    exact List.countP_eq_length.mpr fun j _ => by simp [onTopic, h]
  · rw [if_neg h]
    exact List.countP_eq_zero.mpr fun j _ => by simp [onTopic, h]

theorem NotificationEngine.Opens.published {ns ns' : List (Notification P)} {tr : PyTrace P}
    (h : Opens conf ns tr ns') {topic : Topic} (htopic : ∀ name, topic ≠ .periodic name) :
    (publications tr).countP (onTopic topic) = 0 := by
  refine List.countP_eq_zero.mpr fun p hp => ?_
  obtain ⟨topicName, n, -, now, -, rfl⟩ := h.of_mem_publications p hp
  simpa [onTopic] using Ne.symm (htopic topicName)

theorem countP_isRecord_eq_zero {tr : PyTrace P}
    (h : ∀ ev ∈ tr, ev.1.Local ∨ ∃ name docs, ev.1 = .publish (.periodic name) docs) :
    tr.countP isRecord = 0 := by
  refine List.countP_eq_zero.mpr fun ev hev hrecord => ?_
  have hev := h ev hev
  obtain ⟨e, r⟩ := ev
  cases e with
  | publish topic docs =>
    rcases hev with hlocal | ⟨name, docs', heq⟩
    · cases hlocal
    · cases heq
      cases hrecord
  | _ => cases hrecord

theorem NotificationEngine.Opens.onPeriodic {ns ns' : List (Notification P)} {tr : PyTrace P}
    (h : Opens conf ns tr ns') :
    ∀ ev ∈ tr, ev.1.Local ∨ ∃ name docs, ev.1 = .publish (.periodic name) docs := by
  induction h with
  | nil => simp
  | periodic _ _ ih => simpa [Effect.Local] using ih
  | other _ _ ih => exact ih

/-- An alarm without notifications counts once, another one by the number of them. -/
theorem increments_toNotification {rawAlarm : RawAlarm} {tr : PyTrace P}
    {ns : List (Notification P)} {p o : Nat}
    (h : Runs (AlarmProcessor.toNotification P conf rawAlarm) tr (.ok (ns, p, o))) :
    increments "alarms_finished_count" tr = 0 ∧
      increments "alarms_failed_parse_count" tr + increments "alarms_no_notification_count" tr =
        (if ns = [] then 1 else 0) ∧
      increments "created_count" tr = ns.length ∧ increments "sent_failed_count" tr = 0 ∧
      increments "invalid_type_count" tr = 0 := by
  obtain ⟨tr', name, value, rfl, hno, hlast⟩ := AlarmProcessor.runs_toNotification_counts h
  have hzero := fun name : String => (increments_of_not hno : increments name _ = 0)
  rcases hlast with ⟨rfl, rfl, rfl | rfl⟩ | ⟨hne, rfl, rfl⟩
  · simp [hzero]
  · simp [hzero]
  · simp [hzero, hne]

/-- The end of the body of an alarm with notifications, in the books. -/
theorem books_of_end (sent failed : List (Notification P)) :
    let tr : PyTrace P := [publishes P .notification (sent.map Notification.toJson),
      publishes P .retry (failed.map Notification.toJson), ⟨.commit, ()⟩,
      ⟨.increment "alarms_finished_count" 1, ()⟩]
    (∀ name, increments name tr = if "alarms_finished_count" = name then 1 else 0) ∧
      tr.countP isRecord = 1 ∧ (publications tr).countP (onTopic .notification) = sent.length ∧
      (publications tr).countP (onTopic .retry) = failed.length := by
  refine ⟨fun name => ?_, rfl, ?_, ?_⟩
  · rw [increments_cons, increments_cons _ (publishes ..) (_ :: _),
      increments_cons _ ⟨.commit, ()⟩ (_ :: _), increments_increment]
    have hquiet : ∀ ev : PyEvent P, ¬ ev.1.Counts → increments name [ev] = 0 := fun ev hev =>
      increments_of_not (by simpa using hev)
    rw [hquiet _ id, hquiet _ id, hquiet _ id]
    simp only [Nat.zero_add]
  · rw [publications_cons, publications_cons, List.countP_append, List.countP_append,
      countP_onTopic_publish, countP_onTopic_publish]
    simp [Effect.published]
  · rw [publications_cons, publications_cons, List.countP_append, List.countP_append,
      countP_onTopic_publish, countP_onTopic_publish]
    simp [Effect.published]

/-- The books of one alarm. -/
structure Balanced (tr : PyTrace P) : Prop where
  finished : increments "alarms_finished_count" tr = 1
  alarms : increments "alarms_finished_count" tr = increments "alarms_failed_parse_count" tr +
    increments "alarms_no_notification_count" tr + tr.countP isRecord
  sends : increments "created_count" tr = (deliveries tr).length +
    increments "sent_failed_count" tr + increments "invalid_type_count" tr
  messages : increments "created_count" tr = (publications tr).countP (onTopic .notification) +
    (publications tr).countP (onTopic .retry) + increments "invalid_type_count" tr

theorem NotificationEngine.Finished.balanced (hT : T.Apart) {alarm : RawAlarm} {tr : PyTrace P}
    (h : Finished conf T alarm tr) : Balanced tr := by
  cases h with
  | @nothing tr₁ p o hbuilt =>
    obtain ⟨hfinished, hnone, hcreated, hfailed, hinvalid⟩ := increments_toNotification hbuilt
    have hquiet : Quiet tr₁ := (AlarmProcessor.uses_toNotification alarm).runs hbuilt
    have hrecord : tr₁.countP isRecord = 0 :=
      countP_isRecord_eq_zero fun ev hev => Or.inl (hquiet ev hev).local
    have htail : ∀ name, increments name
        ([⟨.commit, ()⟩, ⟨.increment "alarms_finished_count" 1, ()⟩] : PyTrace P) =
          if "alarms_finished_count" = name then 1 else 0 := fun name => by
      rw [increments_cons, increments_increment]
      exact Nat.zero_add _
    refine ⟨?_, ?_, ?_, ?_⟩
    · rw [increments_append, htail, hfinished]
      rfl
    · simp only [increments_append, htail, List.countP_append, hrecord]
      simp [isRecord, hfinished]
      simpa using hnone.symm
    · simp [htail, hquiet.deliveries, hcreated, hfailed, hinvalid, deliveries_cons, delivered]
    · simp [htail, hquiet.publications, hcreated, hinvalid, Effect.published]
  | @handled tr₁ tr₂ tr₃ p o ns ns' sent failed hbuilt hne ho hsend =>
    obtain ⟨hfinished, hnone, hcreated, hfailed, hinvalid⟩ := increments_toNotification hbuilt
    obtain ⟨hsent, hlength, hother⟩ := increments_send hT hsend
    have hquiet : Quiet tr₁ := (AlarmProcessor.uses_toNotification alarm).runs hbuilt
    have hhandled := runs_send hsend
    have hopens := fun name : String => (increments_of_not ho.not_counts : increments name _ = 0)
    rw [if_neg hne] at hnone
    have hsame : ns'.length = ns.length := by
      have hids := congrArg List.length ho.map_id
      simpa using hids
    have hrecord : (tr₁ ++ tr₂ ++ tr₃).countP isRecord = 0 := by
      refine countP_isRecord_eq_zero fun ev hev => ?_
      rcases List.mem_append.mp hev with hev | hev
      · rcases List.mem_append.mp hev with hev | hev
        · exact Or.inl (hquiet ev hev).local
        · exact ho.onPeriodic ev hev
      · exact Or.inl ((uses_send T ns').runs hsend ev hev).local
    obtain ⟨htail, hone, hsents, hfaileds⟩ := books_of_end sent failed
    refine ⟨?_, ?_, ?_, ?_⟩
    · simp only [increments_append, htail, hfinished, hopens]
      rw [hother _ (by decide) (by decide) (by decide)]
      rfl
    · simp only [increments_append, htail, hfinished, hopens]
      rw [List.countP_append, hrecord, hone, hother _ (by decide) (by decide) (by decide),
        hother "alarms_failed_parse_count" (by decide) (by decide) (by decide),
        hother "alarms_no_notification_count" (by decide) (by decide) (by decide)]
      simp
      omega
    · simp only [increments_append, htail, hopens, hcreated, hfailed, hinvalid, hsent,
        deliveries_append, hquiet.deliveries, ho.deliveries, hhandled.deliveries]
      rw [hother "created_count" (by decide) (by decide) (by decide)]
      simp [deliveries_cons, delivered]
      omega
    · simp only [increments_append, htail, hopens, hcreated, hinvalid, publications_append,
        hquiet.publications, hhandled.publications, List.countP_append, hsents,
        hfaileds]
      rw [hother "created_count" (by decide) (by decide) (by decide)]
      simp [ho.published]
      omega

/-! ## One body of the `RetryEngine` -/

/-- How many publishes on the notification topic a trace has. -/
def records (P : Platform) : Meter (Effect P) Effect.Answer := .count isRecord

/-- What is recorded or put back, and no other topic. -/
def queued (P : Platform) : Meter (Effect P) Effect.Answer :=
  published P .notification + published P .retry

/-- The trace publishes nothing. -/
def isMute (tr : PyTrace P) : Bool := (publications tr).isEmpty

/-- A step publishes one message, which records or puts back, or none. -/
theorem RetryEngine.Performs.queued_add_mute {message : KafkaValue} {tr : PyTrace P}
    (h : Performs conf T message tr .commit) :
    (queued P).of (tr ++ [⟨.commit, ()⟩]) + [tr].countP isMute = 1 := by
  have hnone : ∀ {tr : PyTrace P}, publications tr = [] →
      (queued P).of (tr ++ [⟨.commit, ()⟩]) + [tr].countP isMute = 1 := by
    intro tr htr
    simp [queued, published, isMute, htr, Effect.published]
  have hone : ∀ {tr : PyTrace P} {topic j}, topic = .notification ∨ topic = .retry →
      publications tr = (Effect.publish (P := P) topic [j]).published →
        (queued P).of (tr ++ [⟨.commit, ()⟩]) + [tr].countP isMute = 1 := by
    intro tr topic j htopic htr
    have hcount := fun topic' => countP_onTopic_publish (P := P) topic topic' [j]
    simp only [queued, Meter.of_add, published, publications_append, List.countP_append, htr,
      hcount]
    rcases htopic with rfl | rfl <;> simp [isMute, htr, Effect.published]
  cases h with
  | silent hs => cases hs
  | drop hr => exact hnone hr.quiet.publications
  | invalid hr hw hh =>
    exact hnone (by simp [hr.quiet.publications, hw.quiet.publications, hh.publications])
  | @sent _ _ _ _ m hr hw hh =>
    refine hone (j := m.toJson) (Or.inl rfl) ?_
    simp [hr.quiet.publications, hw.quiet.publications, hh.publications]
  | @requeued _ _ _ _ m count now hr hw hh _ _ =>
    refine hone (j := ({ m with retryCount := count }.stamp now).toJson) (Or.inr rfl) ?_
    simp [hr.quiet.publications, hw.quiet.publications, hh.publications, Effect.published]
  | exhausted hr hw hh _ _ =>
    exact hnone (by simp [hr.quiet.publications, hw.quiet.publications, hh.publications,
      Effect.published])

/-- A step that publishes nothing has dropped the notification. -/
theorem RetryEngine.Performs.dropped {message : KafkaValue} {tr : PyTrace P}
    (h : Performs conf T message tr .commit) (hadm : Trace.Admits Effect.Admissible tr)
    (hmute : isMute tr = true) {key : Json × Json} (hkey : Carries P message key) :
    Dropped conf T key message tr := by
  have hnone : publications tr = [] := List.isEmpty_iff.mp hmute
  rcases forwards h hadm hkey with ⟨ev, hev, m, hm, -⟩ | ⟨n, hn, -, -⟩ | hd
  · have hmem : (Topic.retry, m) ∈ publications tr := List.mem_flatMap.mpr ⟨ev, hev, hm⟩
    rw [hnone] at hmem
    cases hmem
  · have hstep : Engine.Performs T (.retry : Engine conf) 0 message tr .commit := h
    have hmem := hstep.recorded (by simp) hn
    rw [hnone] at hmem
    cases hmem
  · exact hd

/-! ## Every run without crashes -/

variable {s : SystemState W conf} {n k : Nat}

theorem runs_notification {mayCrash : Prop} {o : Nat} {m : KafkaValue} {tr : PyTrace P}
    (h : Runs ((system W conf T mayCrash).handler .notification o m) tr (.ok ())) :
    NotificationEngine.Finished conf T ⟨0, o, m⟩ tr := NotificationEngine.runs_body_finished h

/-- What an engine has counted. -/
def counted (i : Engine conf) (name : String) (s : SystemState W conf) : Nat :=
  increments name (eventsOf s i)

/--
**The counters are balanced.** Take a run without crashes in a deployment whose plugins count under
names of their own. Whenever the `NotificationEngine` is between two alarms, it has counted as many
as finished as are committed: those that it counted as unparsable or as without notification, and
one for each publish on the notification topic. It has counted as many notifications as created as
were accepted by a plugin, counted as failed, or counted as of an unconfigured type.
-/
theorem counters_balance (hT : T.Apart) (h : Reachable (system W conf T False) s)
    (hidle : s.phase .notification = .idle n) :
    counted .notification "alarms_finished_count" s = s.committed .notification ∧
      counted .notification "alarms_finished_count" s =
        counted .notification "alarms_failed_parse_count" s +
          counted .notification "alarms_no_notification_count" s +
          (eventsOf s .notification).countP isRecord ∧
      counted .notification "created_count" s =
        (deliveries (eventsOf s .notification)).length +
          counted .notification "sent_failed_count" s +
          counted .notification "invalid_type_count" s := by
  have hc := @commitsOnce P W conf T False .notification
  obtain ⟨done, hdone⟩ := exists_serial (contract W conf T False) hc id h
  refine ⟨?_, ?_, ?_⟩
  · rw [← (cursor_reachable (contract W conf T False) hc h).idle hidle]
    exact hdone.once_each (f := counter P "alarms_finished_count") hidle
      fun _ _ hrun => ((runs_notification hrun).balanced hT).finished
  · exact hdone.balance (f := counter P "alarms_finished_count")
      (g := counter P "alarms_failed_parse_count" + counter P "alarms_no_notification_count" +
        records P) hidle
      fun _ _ hrun => ((runs_notification hrun).balanced hT).alarms
  · exact hdone.balance (f := counter P "created_count")
      (g := acceptedSends P + counter P "sent_failed_count" + counter P "invalid_type_count") hidle
      fun _ _ hrun => ((runs_notification hrun).balanced hT).sends

/-! ## Where the notifications are -/

/-- The periodic engines publish on the topics of periods only. -/
theorem periodic_publishes_none {topic : Topic} (htopic : ∀ name, topic ≠ .periodic name)
    (h : Reachable (system W conf T False) s) {x : Engine conf × PyEvent P} (hx : x ∈ s.history)
    {self : PeriodicEngine conf} (hself : x.1 = .periodic self) :
    x.2.1.published.countP (onTopic topic) = 0 := by
  obtain ⟨h₁, h₂, hsplit⟩ := List.append_of_mem hx
  obtain ⟨o, m, tr, -, hΦ, -⟩ := (contract W conf T False).history_reachable h hsplit
  have hΦ : Engine.Performs T x.1 o m tr x.2.1 := hΦ
  rw [hself] at hΦ
  generalize x.2.1 = e at hΦ ⊢
  cases hΦ with
  | silent hs => rw [hs.local.published]; rfl
  | forward _ _ _ _ _ _ => rw [countP_onTopic_publish, if_neg (Ne.symm (htopic _))]
  | _ => rfl

/-- The `NotificationEngine` and the `RetryEngine` put everything on the topic that is there. -/
theorem countP_log_topic {topic : Topic} (htopic : ∀ name, topic ≠ .periodic name)
    (halarm : topic ≠ .alarm) (h : Reachable (system W conf T False) s) (κ : KafkaValue → Bool) :
    (s.log topic).countP κ =
      (publications (eventsOf s .notification)).countP (fun p => onTopic topic p && κ p.2) +
        (publications (eventsOf s .retry)).countP (fun p => onTopic topic p && κ p.2) := by
  have henv : ∀ {w pubs w'}, (system W conf T False).env w pubs w' → ∀ p ∈ pubs, p.1 ≠ topic := by
    rintro w pubs w' ⟨alarms, rfl, -⟩ p hp
    obtain ⟨m, -, rfl⟩ := List.mem_map.mp hp
    exact Ne.symm halarm
  have hlog := countP_log (f := κ) h henv
  rw [hlog, ← emittedBy_add_not (N := system W conf T False) (s := s)
    fun i => decide (i = .notification)]
  -- of the other engines, only the `RetryEngine` publishes here
  have hretry : (system W conf T False).emittedBy (fun p => decide (p.1 = topic) && κ p.2) s
      (fun i => !decide (i = .notification)) =
      (system W conf T False).emittedBy (fun p => decide (p.1 = topic) && κ p.2) s
        fun i => decide (i = .retry) := by
    refine emittedBy_congr fun x hx hne => ?_
    cases hproc : x.1 with
    | notification => simp [hproc] at hne
    | retry => simp [hproc] at hne
    | periodic self =>
      have hnone := List.countP_eq_zero.mp (periodic_publishes_none htopic h hx hproc)
      exact List.countP_eq_zero.mpr fun p hp hboth => hnone p hp (Bool.and_elim_left hboth)
  rw [hretry]
  rfl

theorem length_log {topic : Topic} (htopic : ∀ name, topic ≠ .periodic name)
    (halarm : topic ≠ .alarm) (h : Reachable (system W conf T False) s) :
    (s.log topic).length = (published P topic).of (eventsOf s .notification) +
      (published P topic).of (eventsOf s .retry) := by
  have hlog := countP_log_topic htopic halarm h fun _ => true
  simp only [List.countP_true, Bool.and_true] at hlog
  exact hlog

/-- How many steps of the `RetryEngine` gave a notification up. -/
def abandoned (s : SystemState W conf) : Nat := (tracesOf s .retry).countP isMute

theorem created_eq (hT : T.Apart) (h : Reachable (system W conf T False) s)
    (hidle : s.phase .notification = .idle n) (hretry : s.phase .retry = .idle k) :
    counted .notification "created_count" s = (s.log .notification).length +
      ((s.log .retry).length - s.committed .retry) + abandoned s +
      counted .notification "invalid_type_count" s := by
  have hc := @commitsOnce P W conf T False .notification
  have hc' := @commitsOnce P W conf T False .retry
  obtain ⟨done, hdone⟩ := exists_serial (contract W conf T False) hc id h
  obtain ⟨done', hdone'⟩ := exists_serial (contract W conf T False) hc' id h
  have hcursor := cursor_reachable (contract W conf T False) hc' h
  have hmessages : counted .notification "created_count" s =
      (published P .notification).of (eventsOf s .notification) +
        (published P .retry).of (eventsOf s .notification) +
        counted .notification "invalid_type_count" s :=
    hdone.balance (f := counter P "created_count")
      (g := published P .notification + published P .retry + counter P "invalid_type_count") hidle
      fun _ _ hrun => ((runs_notification hrun).balanced hT).messages
  have hqueued : (published P .notification).of (eventsOf s .retry) +
      (published P .retry).of (eventsOf s .retry) + abandoned s = k :=
    hdone'.once_or_traced (f := queued P) (q := isMute) hc' hretry fun _ hadm hrun => by
      obtain ⟨tr', rfl, hperf⟩ := RetryEngine.runs_body hrun
      have hno : ∀ ev ∈ tr', ev.1.isCommit = false :=
        Engine.Performs.isCommit (i := (.retry : Engine conf)) (o := 0) (T := T) hperf rfl
      rw [beforeCommit_of_not hno rfl]
      exact hperf.queued_add_mute
  have hnotified := length_log Topic.notification_ne_periodic (by simp) h
  have hput := length_log Topic.retry_ne_periodic (by simp) h
  have hk := hcursor.idle hretry
  have hbound : s.committed .retry ≤ (s.log .retry).length := hcursor.bound
  omega

/--
**Where the notifications are.** Take a run without crashes, and a state in which the
`NotificationEngine` and the `RetryEngine` are between two messages. As many notifications as were
counted as created are recorded on the notification topic, wait on the retry topic behind the
committed offset, were given up by the `RetryEngine`, or had an unconfigured type. And whoever was
given up was deleted, had an unconfigured type, or had used up its attempts.
-/
theorem created_are_somewhere (hT : T.Apart) (h : Reachable (system W conf T False) s)
    (hidle : s.phase .notification = .idle n) (hretry : s.phase .retry = .idle k) :
    counted .notification "created_count" s = (s.log .notification).length +
      ((s.log .retry).length - s.committed .retry) + abandoned s +
      counted .notification "invalid_type_count" s ∧
    ∀ st ∈ s.steps, st.proc = .retry → isMute st.trace = true →
      ∃ key, Carries P st.msg key ∧ RetryEngine.Dropped conf T key st.msg st.trace := by
  refine ⟨created_eq hT h hidle hretry, fun st hst hproc hmute => ?_⟩
  obtain ⟨hperf, hadm, hdoc⟩ := performs_of_step h hst
  rw [hproc] at hperf hdoc
  obtain ⟨m, hm⟩ := hdoc.resolve_left (by simp [Engine.source])
  have hcar : Carries P st.msg (m.id, m.rawAlarm) := ⟨m, hm, rfl, rfl⟩
  exact ⟨_, hcar, RetryEngine.Performs.dropped hperf hadm hmute hcar⟩

/-! ## The record -/

/-- The document of a notification, as the value of a message. -/
def document (n : Notification P) : KafkaValue := .dumps n.toJson

/-- This message, on the notification topic. -/
def isRecordOf (m : KafkaValue) (p : Topic × KafkaValue) : Bool :=
  onTopic .notification p && p.2 == m

/-- How often a trace records this message. -/
def recordedAs (P : Platform) (m : KafkaValue) : Meter (Effect P) Effect.Answer where
  of := fun tr => (publications tr).countP (isRecordOf m)
  of_nil := rfl
  of_append := fun tr₁ tr₂ => by rw [publications_append, List.countP_append]

/-- How many accepted notifications of a trace have this document. -/
def acceptedAs (P : Platform) (m : KafkaValue) : Meter (Effect P) Effect.Answer where
  of := fun tr => ((deliveries tr).map document).count m
  of_nil := rfl
  of_append := fun tr₁ tr₂ => by rw [deliveries_append, List.map_append, List.count_append]

theorem countP_isRecordOf_publish (m : KafkaValue) (topic : Topic) (ns : List (Notification P)) :
    ((Effect.publish (P := P) topic (ns.map Notification.toJson)).published).countP (isRecordOf m) =
      if topic = .notification then (ns.map document).count m else 0 := by
  simp only [Effect.published_publish, List.map_map, List.countP_map, List.count]
  split
  · next h =>
    refine List.countP_congr fun n _ => ?_
    simp [isRecordOf, onTopic, h, document]
  · next h =>
    refine List.countP_eq_zero.mpr fun n _ => ?_
    simp [isRecordOf, onTopic, h]

/-- What is not on the notification topic is not a record. -/
theorem countP_isRecordOf_eq_zero {m : KafkaValue} {ps : List (Topic × KafkaValue)}
    (h : ps.countP (onTopic .notification) = 0) : ps.countP (isRecordOf m) = 0 :=
  List.countP_eq_zero.mpr fun p hp hrecord =>
    List.countP_eq_zero.mp h p hp (Bool.and_elim_left hrecord)

theorem NotificationEngine.Finished.recorded {alarm : RawAlarm} {tr : PyTrace P}
    (h : Finished conf T alarm tr) (m : KafkaValue) :
    (recordedAs P m).of tr = (acceptedAs P m).of tr := by
  cases h with
  | nothing hbuilt =>
    have hquiet : Quiet _ := (AlarmProcessor.uses_toNotification alarm).runs hbuilt
    simp [recordedAs, acceptedAs, hquiet.publications, hquiet.deliveries, Effect.published,
      deliveries_cons, delivered]
  | @handled tr₁ tr₂ tr₃ p o ns ns' sent failed hbuilt hne ho hsend =>
    have hquiet : Quiet tr₁ := (AlarmProcessor.uses_toNotification alarm).runs hbuilt
    have hhandled := runs_send hsend
    have hopens := countP_isRecordOf_eq_zero (m := m)
      (ho.published Topic.notification_ne_periodic)
    have hsent := countP_isRecordOf_publish m .notification sent
    have hfailed := countP_isRecordOf_publish m .retry failed
    simp only [recordedAs, acceptedAs, publications_append, deliveries_append,
      hquiet.publications, hquiet.deliveries, ho.deliveries, hhandled.publications,
      hhandled.deliveries, List.countP_append, hopens, publications_cons, hsent, hfailed]
    simp [Effect.published, deliveries_cons, delivered]

theorem RetryEngine.Performs.recorded {message : KafkaValue} {tr : PyTrace P}
    (h : Performs conf T message tr .commit) (m : KafkaValue) :
    (recordedAs P m).of (tr ++ [⟨.commit, ()⟩]) = (acceptedAs P m).of (tr ++ [⟨.commit, ()⟩]) := by
  cases h with
  | silent hs => cases hs
  | drop hr =>
    simp [recordedAs, acceptedAs, hr.quiet.publications, hr.quiet.deliveries, Effect.published,
      deliveries_cons, delivered]
  | invalid hr hw hh =>
    simp [recordedAs, acceptedAs, hr.quiet.publications, hr.quiet.deliveries,
      hw.quiet.publications, hw.quiet.deliveries, hh.publications, hh.deliveries,
      Effect.published, deliveries_cons, delivered]
  | @sent _ _ _ _ n hr hw hh =>
    have hsent := countP_isRecordOf_publish m .notification [n]
    simp only [recordedAs, acceptedAs, publications_append, deliveries_append,
      hr.quiet.publications, hr.quiet.deliveries, hw.quiet.publications, hw.quiet.deliveries,
      hh.publications, hh.deliveries, List.countP_append, publications_cons]
    simp [Effect.published, deliveries_cons, delivered] at hsent ⊢
    exact hsent
  | @requeued _ _ _ _ n count now hr hw hh _ _ =>
    have hput := countP_isRecordOf_publish m .retry [{ n with retryCount := count }.stamp now]
    simp only [recordedAs, acceptedAs, publications_append, deliveries_append,
      hr.quiet.publications, hr.quiet.deliveries, hw.quiet.publications, hw.quiet.deliveries,
      hh.publications, hh.deliveries, List.countP_append, publications_cons]
    simp [Effect.published, deliveries_cons, delivered] at hput ⊢
    exact hput
  | exhausted hr hw hh _ _ =>
    simp [recordedAs, acceptedAs, hr.quiet.publications, hr.quiet.deliveries,
      hw.quiet.publications, hw.quiet.deliveries, hh.publications, hh.deliveries,
      Effect.published, deliveries_cons, delivered]

theorem count_record (h : Reachable (system W conf T False) s)
    (hidle : s.phase .notification = .idle n) (hretry : s.phase .retry = .idle k) (m : KafkaValue) :
    (s.log .notification).count m = ((deliveries (eventsOf s .notification) ++
      deliveries (eventsOf s .retry)).map document).count m := by
  obtain ⟨done, hdone⟩ :=
    exists_serial (contract W conf T False) (@commitsOnce P W conf T False .notification) id h
  obtain ⟨done', hdone'⟩ :=
    exists_serial (contract W conf T False) (@commitsOnce P W conf T False .retry) id h
  have hlog := countP_log_topic Topic.notification_ne_periodic (by simp) h (· == m)
  have hnotified := hdone.balance (f := recordedAs P m) (g := acceptedAs P m) hidle
    fun _ _ hrun => (runs_notification hrun).recorded m
  have hretried := hdone'.balance (f := recordedAs P m) (g := acceptedAs P m) hretry
    fun _ _ hrun => by
      obtain ⟨tr', rfl, hperf⟩ := RetryEngine.runs_body hrun
      exact hperf.recorded m
  rw [List.map_append, List.count_append]
  exact hlog.trans (congrArg₂ (· + ·) hnotified hretried)

/--
**The record is what was accepted, each as often as it was.** Take a run without crashes, and a
state in which the `NotificationEngine` and the `RetryEngine` are between two messages. The messages
on the notification topic are, up to their order, the documents of the notifications that plugins
accepted from these two engines.
-/
theorem record_perm_accepted (h : Reachable (system W conf T False) s)
    (hidle : s.phase .notification = .idle n) (hretry : s.phase .retry = .idle k) :
    (s.log .notification).Perm ((deliveries (eventsOf s .notification) ++
      deliveries (eventsOf s .retry)).map document) :=
  List.perm_iff_count.mpr (count_record h hidle hretry)

end

/-! ## In the deployment -/

namespace Deployment

theorem notifiers_apart : notifiers.Apart := Notifiers.apart_config (by decide)

end Deployment

open Deployment in
/-- The first alarm had one notification, which the plugin refused. -/
theorem counters_balance_started :
    counted .notification "created_count" (started false) = 1 ∧
    counted .notification "created_count" (started false) =
      (deliveries (eventsOf (started false) .notification)).length +
        counted .notification "sent_failed_count" (started false) +
        counted .notification "invalid_type_count" (started false) :=
  ⟨by decide +kernel,
    (counters_balance notifiers_apart (reachable_started false) (n := 1) rfl).2.2⟩

open Deployment in
/-- It waits on the retry topic. -/
theorem created_are_somewhere_started :
    ((started false).log .retry).length = 1 ∧
    counted .notification "created_count" (started false) =
      ((started false).log .notification).length +
      (((started false).log .retry).length - (started false).committed .retry) +
      abandoned (started false) + counted .notification "invalid_type_count" (started false) :=
  ⟨by decide +kernel,
    (created_are_somewhere notifiers_apart (reachable_started false) (n := 1) (k := 0) rfl
      rfl).1⟩

open Deployment in
/-- The plugin accepted the notification of the first alarm, and it is recorded once. -/
theorem record_perm_accepted_started :
    ((started true).log .notification).length = 1 ∧
    ((started true).log .notification).Perm ((deliveries (eventsOf (started true) .notification) ++
      deliveries (eventsOf (started true) .retry)).map document) :=
  ⟨by decide +kernel, record_perm_accepted (reachable_started true) (n := 1) (k := 0) rfl rfl⟩

end MonascaNotification
