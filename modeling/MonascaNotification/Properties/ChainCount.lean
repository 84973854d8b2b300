import MonascaNotification.Infra.Conservation
import MonascaNotification.Spec.System

/-!
# How many periodic chains one alarm and method can have

A chain is opened by the notification engine for every alarm message that reaches a method
with a period, and nothing looks whether one is open already. It is closed at a wake-up of the
periodic engine, which compares states and not transitions. So an alarm that leaves a state
and returns to it between two wake-ups has two chains.

What holds in runs without crashes is a count: the messages of a pair that are unread and the
chains that have ended are no more than the chains that were opened, and an alarm message opens
at most one.
-/

namespace MonascaNotification

open Infra Prog Network

section

variable {P : Platform} {W : Environment P} {conf : Config} {T : Notifiers}

/-! ## The classes that are counted -/

/-- The message is for this alarm and this notification method. -/
def isFor (alarmId id : Json) : KafkaValue → Bool
  | .dumps (.obj fields) =>
    decide (fields.lookup "alarm_id" = some alarmId ∧ fields.lookup "id" = some id)
  | _ => false

/-- A message of a periodic topic that is for this alarm and this method. -/
def isPeriodicFor (topicName : String) (alarmId id : Json) (p : Topic × KafkaValue) : Bool :=
  decide (p.1 = .periodic topicName) && isFor alarmId id p.2

/-- The value is an alarm message of this alarm. -/
def isAlarmOf (P : Platform) (alarmId : Json) (value : KafkaValue) : Bool :=
  match AlarmProcessor.parseAlarm P value with
  | .ok (.obj fields) => decide (fields.lookup "alarmId" = some alarmId)
  | _ => false

theorem isFor_toJson {alarmId id : Json} {n : Notification P} :
    isFor alarmId id (.dumps n.toJson) = true ↔ n.alarmId = alarmId ∧ n.id = id := by
  simp [isFor, Notification.toJson, List.lookup_cons]

/-- The alarm id of a notification is the one in its raw alarm. -/
theorem Notification.lookup_alarmId (n : Notification P) :
    ∃ fields, n.rawAlarm = .obj fields ∧ fields.lookup "alarmId" = some n.alarmId := by
  obtain ⟨alarmId, hid, h⟩ := bind_eq_ok.mp n.derived
  have hslot : n.alarmId = alarmId := by
    simp only [bind_eq_ok] at h
    obtain ⟨_, -, _, -, _, -, _, -, _, -, _, -, _, -, _, -, _, -, _, -, _, -, hslots⟩ := h
    rw [← Except.ok.inj hslots]
  rw [hslot]
  exact Json.getItem_eq_ok hid

/-! ## The two engines -/

variable {mayCrash : Prop} {alarmId id : Json}

theorem emitted_eq (κ : Topic × KafkaValue → Bool) (tr : PyTrace P) :
    (system W conf T mayCrash).emitted κ tr = (publications tr).countP κ := rfl

theorem countP_document {topicName topicName' : String} {n : Notification P} :
    (Effect.publish (P := P) (.periodic topicName') [n.toJson]).published.countP
        (isPeriodicFor topicName alarmId id) =
      if topicName' = topicName ∧ n.alarmId = alarmId ∧ n.id = id then 1 else 0 := by
  simp [Effect.published_publish, isPeriodicFor, isFor_toJson, List.countP_cons]

theorem countP_of_topic {topicName : String} {topic : Topic} {messages : List Json}
    (h : ∀ name, topic ≠ .periodic name) :
    (Effect.publish (P := P) topic messages).published.countP
      (isPeriodicFor topicName alarmId id) = 0 := by
  refine List.countP_eq_zero.mpr fun p hp => ?_
  obtain ⟨j, -, rfl⟩ := List.mem_map.mp hp
  simp [isPeriodicFor, h topicName]

theorem system_commit_publishes (e : Effect P)
    (he : (system W conf T mayCrash).commits e = true) :
    (system W conf T mayCrash).published e = [] := by
  cases e with
  | commit => rfl
  | _ => cases he

/-- An alarm message opens at most one chain for a method. -/
theorem notification_charged (topicName : String) (alarmId id : Json) :
    (contract W conf T mayCrash).Charged .notification (isPeriodicFor topicName alarmId id)
      (isAlarmOf P alarmId) where
  toCommitsOnce := commitsOnce _
  commit_publishes := system_commit_publishes
  bound := by
    intro o m tr e _ hadm h hpos
    rw [emitted_eq]
    change 0 < e.published.countP _ at hpos
    change _ + e.published.countP _ ≤ _ ∧ _
    cases h with
    | silent hs =>
      rw [hs.local.published] at hpos
      cases hpos
    | @opens tr₁ tr₂ pre n post pre' now topicName' hb ho hlook =>
      rw [countP_document] at hpos ⊢
      split at hpos
      · next hfor =>
        obtain ⟨rfl, halarm, hid⟩ := hfor
        simp only [Trace.admits_append] at hadm
        obtain ⟨hnodup, json, hparse, hraw⟩ := hb.rows (by simp) hadm.1.1
        -- the ids differ, so the ones before are not for this method
        have hbefore : (publications tr₂).countP (isPeriodicFor topicName' alarmId id) = 0 := by
          refine List.countP_eq_zero.mpr fun p hp hfor => ?_
          obtain ⟨t, n', hn', now', -, rfl⟩ := ho.of_mem_publications p hp
          simp only [isPeriodicFor, Bool.and_eq_true, isFor_toJson] at hfor
          rw [List.map_append, List.nodup_append] at hnodup
          refine hnodup.2.2 n'.id (List.mem_map_of_mem hn') n.id (by simp) ?_
          exact hfor.2.2.trans hid.symm
        have halarmOf : isAlarmOf P alarmId m = true := by
          obtain ⟨fields, hfields, hlookup⟩ := n.lookup_alarmId
          rw [hraw n (by simp)] at hfields
          subst hfields
          simpa [isAlarmOf, hparse, hlookup] using halarm
        refine ⟨?_, ?_⟩
        · simp only [publications_append, hb.quiet.publications, hbefore, halarmOf, if_true,
            List.countP_append, publications_cons, publications_nil, Effect.published,
            List.countP_nil]
          split <;> omega
        · intro ev hev
          rcases List.mem_append.mp hev with hev | hev
          · rcases List.mem_append.mp hev with hev | hev
            · exact hb.quiet.isCommit ev hev
            · exact ho.isCommit ev hev
          · rw [List.mem_singleton] at hev
            subst hev
            rfl
      · cases hpos
    | record _ _ _ =>
      rw [countP_of_topic (by simp)] at hpos
      cases hpos
    | requeue _ _ _ =>
      rw [countP_of_topic (by simp)] at hpos
      cases hpos
    | _ => cases hpos

/-- A step of the periodic engine passes at most one message on, and only for its own pair. -/
theorem periodic_charged (self : PeriodicEngine conf) (alarmId id : Json) :
    (contract W conf T mayCrash).Charged (.periodic self)
      (isPeriodicFor self.topicName alarmId id) (isFor alarmId id) where
  toCommitsOnce := commitsOnce _
  commit_publishes := system_commit_publishes
  bound := by
    intro o m tr e hvalid _ h hpos
    rw [emitted_eq]
    change 0 < e.published.countP _ at hpos
    change _ + e.published.countP _ ≤ _ ∧ _
    obtain ⟨n₀, rfl⟩ : IsDocument P m := hvalid.resolve_left (by simp [system, Engine.source])
    cases h with
    | silent hs =>
      rw [hs.local.published] at hpos
      cases hpos
    | @forward tr₁ tr₂ tr₃ tr₄ n current now now' sent failed hr hs hgo hw hh hm =>
      rw [countP_document] at hpos ⊢
      split at hpos
      · next hfor =>
        obtain ⟨-, halarm, hid⟩ := hfor
        obtain ⟨hid', -, -, hslots⟩ := hr.refreshed.some
        have hmessage : isFor alarmId id (.dumps n₀.toJson) = true := by
          refine isFor_toJson.mpr ⟨?_, hid'.symm.trans hid⟩
          have hsame : n.alarmId = n₀.alarmId := by rw [hslots]
          exact hsame.symm.trans halarm
        refine ⟨?_, ?_⟩
        · simp only [publications_append, hr.quiet.publications, hs.quiet.publications,
            hw.quiet.publications, hh.publications, hmessage, if_true, List.countP_append,
            publications_cons, Effect.published, List.countP_nil]
          split <;> omega
        · intro ev hev
          rcases List.mem_append.mp hev with hev | hev
          · rcases List.mem_append.mp hev with hev | hev
            · rcases List.mem_append.mp hev with hev | hev
              · exact hr.quiet.isCommit ev hev
              · exact hs.quiet.isCommit ev hev
            · exact hw.quiet.isCommit ev hev
          · rcases List.mem_cons.mp hev with rfl | hev
            · rfl
            · exact hh.isCommit ev hev
      · cases hpos
    | _ => cases hpos

/-! ## Every run without crashes -/

/-- How many messages for the pair the periodic engine has still to read. -/
def unread (self : PeriodicEngine conf) (alarmId id : Json) (s : SystemState W conf) : Nat :=
  ((s.log (.periodic self.topicName)).drop (readPos s (.periodic self))).countP (isFor alarmId id)

/-- How many chains of the pair have ended: a step on such a message committed, without one. -/
def ended (self : PeriodicEngine conf) (alarmId id : Json) (s : SystemState W conf) : Nat :=
  s.steps.countP fun st => decide (st.proc = .periodic self) && (isFor alarmId id st.msg &&
    (publications st.trace).countP (isPeriodicFor self.topicName alarmId id) == 0)

/-- How many chains of the pair the notification engine has opened. -/
def opened (self : PeriodicEngine conf) (alarmId id : Json) (s : SystemState W conf) : Nat :=
  (publications ((s.history.filter fun x => decide (x.1 = .notification)).map Prod.snd)).countP
    (isPeriodicFor self.topicName alarmId id)

/-- How many messages of the alarm the notification engine has read. -/
def alarmsRead (alarmId : Json) (s : SystemState W conf) : Nat :=
  ((s.log .alarm).take (readPos s .notification)).countP (isAlarmOf P alarmId)

/-- The retry engine publishes on no periodic topic. -/
theorem retry_publishes_none {s : SystemState W conf}
    (h : Reachable (system W conf T mayCrash) s) {x : Engine conf × PyEvent P}
    (hx : x ∈ s.history) (hretry : x.1 = .retry) (topicName : String) :
    x.2.1.published.countP (isPeriodicFor topicName alarmId id) = 0 := by
  obtain ⟨h₁, h₂, hsplit⟩ := List.append_of_mem hx
  obtain ⟨o, m, tr, -, hΦ, -⟩ := (contract W conf T mayCrash).history_reachable h hsplit
  have hΦ : Engine.Performs T x.1 o m tr x.2.1 := hΦ
  rw [hretry] at hΦ
  generalize x.2.1 = e at hΦ ⊢
  cases hΦ with
  | silent hs => rw [hs.local.published]; rfl
  | record _ _ _ => exact countP_of_topic (by simp)
  | requeue _ _ _ _ _ => exact countP_of_topic (by simp)
  | _ => rfl

/--
**How many chains there can be.** Take a run without crashes in which no other periodic engine
than `self` takes part. In every state, the unread messages of an alarm and a method together
with the chains of the pair that have ended are no more than the chains that the notification
engine has opened, and these are no more than the messages of the alarm that it has read.
-/
theorem unread_add_ended_le_opened (self : PeriodicEngine conf) (alarmId id : Json)
    {s : SystemState W conf} (h : Reachable (system W conf T False) s)
    (hself : ∀ x ∈ s.history, ∀ self', x.1 = .periodic self' → self' = self) :
    unread self alarmId id s + ended self alarmId id s ≤ opened self alarmId id s ∧
      opened self alarmId id s ≤ alarmsRead alarmId s := by
  have hcrash : ¬ (system W conf T False).mayCrash := fun hmay => hmay
  have henv : ∀ {w pubs w'}, (system W conf T False).env w pubs w' → ∀ p ∈ pubs,
      p.1 ≠ (system W conf T False).source (.periodic self) := by
    rintro w pubs w' ⟨alarms, rfl, -⟩ p hp
    obtain ⟨m, -, rfl⟩ := List.mem_map.mp hp
    simp [system, Engine.source]
  constructor
  · have hle := unread_add_ended_le (periodic_charged self alarmId id) hcrash henv h
    -- of the others, only the notification engine publishes on this topic
    have hothers : (system W conf T False).emittedBy (isPeriodicFor self.topicName alarmId id) s
        (fun x => !decide (x = .periodic self)) =
        (system W conf T False).emittedBy (isPeriodicFor self.topicName alarmId id) s
          (fun x => decide (x = .notification)) := by
      refine emittedBy_congr fun x hx hne => ?_
      cases hproc : x.1 with
      | notification => simp [hproc] at hne
      | retry => exact retry_publishes_none h hx hproc _
      | periodic self' =>
        rw [hself x hx self' hproc] at hproc
        simp [hproc] at hne
    exact Nat.le_trans hle (Nat.le_of_eq hothers)
  · have hle := charged (notification_charged self.topicName alarmId id) hcrash h
    exact Nat.le_trans (Nat.le_add_right _ _) hle

end

/-! ## Two chains of one alarm -/

namespace Deployment

/-- The first chain is open, the alarm goes back to `OK`, which reports nothing, and returns. -/
def flapped : SystemState (following cpython) conf :=
  let s := transitioned (started false) (alarm "ALARM" "OK") (.str "1") "OK"
  let s := stepped notifiers s .notification 1 (transitionMessage (alarm "ALARM" "OK")) 10
    (.ok (.bool false))
  let s := transitioned s (alarm "OK" "ALARM") (.str "1") "ALARM"
  stepped notifiers s .notification 2 (transitionMessage (alarm "OK" "ALARM")) 20
    (.ok (.bool false))

theorem reachable_flapped :
    Reachable (system (following cpython) conf notifiers False) flapped := by
  refine reachable_stepped (reachable_transitioned (reachable_stepped (reachable_transitioned
    (reachable_started false) ?_ ?_) ?_ ?_ ?_) ?_ ?_) ?_ ?_ ?_
  all_goals first | rfl | decide +kernel

end Deployment

/-- An alarm that left its state and returned within the period has two chains. -/
theorem two_chains_after_flapping :
    ¬ ∀ (P : Platform) (conf : Config) (T : Notifiers) (self : PeriodicEngine conf)
      (s : SystemState (following P) conf), Reachable (system (following P) conf T False) s →
        (∀ x ∈ s.history, ∀ self', x.1 = .periodic self' → self' = self) →
          ∀ alarmId id, unread self alarmId id s ≤ 1 := by
  intro hall
  have hproc : (Deployment.flapped.history.all fun x => decide (x.1 = .notification)) = true := by
    decide +kernel
  have hle := hall cpython Deployment.conf Deployment.notifiers Deployment.everyMinute
    Deployment.flapped Deployment.reachable_flapped
    (fun x hx self' hself => by
      have hnot := of_decide_eq_true (List.all_eq_true.mp hproc x hx)
      rw [hself] at hnot
      cases hnot)
    (.str "1") (.str "10")
  have htwo : unread Deployment.everyMinute (.str "1") (.str "10") Deployment.flapped = 2 := by
    decide +kernel
  omega

/-- The bound in the deployment, where the chain of the first alarm has gone on. -/
theorem unread_add_ended_le_opened_minuteLater :
    unread Deployment.everyMinute (.str "1") (.str "10") (Deployment.minuteLater false) = 1 ∧
    unread Deployment.everyMinute (.str "1") (.str "10") (Deployment.minuteLater false) +
        ended Deployment.everyMinute (.str "1") (.str "10") (Deployment.minuteLater false) ≤
      opened Deployment.everyMinute (.str "1") (.str "10") (Deployment.minuteLater false) :=
  ⟨by decide +kernel, (unread_add_ended_le_opened Deployment.everyMinute (.str "1") (.str "10")
    (Deployment.reachable_minuteLater false) (by
      have hall : ((Deployment.minuteLater false).history.all fun x =>
          decide (x.1 = .notification) || decide (x.1 = .periodic Deployment.everyMinute))
            = true := by decide +kernel
      intro x hx self' hself
      have hx := List.all_eq_true.mp hall x hx
      rw [hself] at hx
      simpa using hx)).1⟩

end MonascaNotification
