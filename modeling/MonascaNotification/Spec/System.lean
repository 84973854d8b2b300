import MonascaNotification.Infra.Relay
import MonascaNotification.Model.Store
import MonascaNotification.Spec.Engines

/-!
# The contract of the engines

What the engines promise each other (`contract`): every message on a topic that an engine
reads, except for the alarm topic, is the document of a notification. Every engine commits
once in each loop body (`commitsOnce`), which is what the rules for consumers ask for.
-/

namespace MonascaNotification

open Infra Prog Network

section

variable {P : Platform} {W : Environment P} {conf : Config} {T : Notifiers} {mayCrash : Prop}

/-- The message is the document of a notification. -/
def IsDocument (P : Platform) (m : KafkaValue) : Prop := ∃ n : Notification P, m = .dumps n.toJson

/-- Topics whose messages an engine decodes. -/
def Topic.IsQueue : Topic → Prop
  | .retry => True
  | .periodic _ => True
  | _ => False

/-- After which traces an engine performs which effect. -/
def Engine.Performs (T : Notifiers) :
    Engine conf → Nat → KafkaValue → PyTrace P → Effect P → Prop
  | .notification, offset, value => NotificationEngine.Performs conf T ⟨0, offset, value⟩
  | .retry, _, message => RetryEngine.Performs conf T message
  | .periodic self, _, message => PeriodicEngine.Performs self T message

theorem Engine.performs_body {i : Engine conf} {o : Nat} {m : KafkaValue} {tr : PyTrace P}
    {e : Effect P} (h : Prog.Performs (i.body P T o m) tr e) : i.Performs T o m tr e := by
  cases i with
  | notification => exact NotificationEngine.performs_body h
  | retry => exact RetryEngine.performs_body h
  | periodic self => exact PeriodicEngine.performs_body h

theorem isDocument_of_mem_published {topic : Topic} (ns : List (Notification P))
    {p : Topic × KafkaValue}
    (h : p ∈ (Effect.publish (P := P) topic (ns.map Notification.toJson)).published) :
    IsDocument P p.2 := by
  simp only [Effect.published_publish, List.map_map, List.mem_map, Function.comp] at h
  obtain ⟨n, -, rfl⟩ := h
  exact ⟨n, rfl⟩

theorem Engine.Performs.isDocument {i : Engine conf} {o : Nat} {m : KafkaValue}
    {tr : PyTrace P} {e : Effect P} (h : i.Performs T o m tr e) :
    ∀ p ∈ e.published, IsDocument P p.2 := by
  intro p hp
  have hsilent := Effect.not_silent_of_mem_published hp
  cases i with
  | notification =>
    cases h with
    | silent hs => exact absurd hs hsilent
    | @opens _ _ _ n _ _ now _ => exact isDocument_of_mem_published [n.stamp now] hp
    | @record _ _ _ _ _ sent _ => exact isDocument_of_mem_published sent hp
    | @requeue _ _ _ _ _ _ failed => exact isDocument_of_mem_published failed hp
    | _ => cases hp
  | retry =>
    cases h with
    | silent hs => exact absurd hs hsilent
    | @record _ _ _ _ m => exact isDocument_of_mem_published [m] hp
    | @requeue _ _ _ _ m count now =>
      exact isDocument_of_mem_published [{ m with retryCount := count }.stamp now] hp
    | _ => cases hp
  | periodic self =>
    cases h with
    | silent hs => exact absurd hs hsilent
    | @forward _ _ _ _ n _ _ now' => exact isDocument_of_mem_published [n.stamp now'] hp
    | _ => cases hp

/-- No engine publishes an alarm. -/
theorem Engine.Performs.ne_alarm {i : Engine conf} {o : Nat} {m : KafkaValue} {tr : PyTrace P}
    {e : Effect P} (h : i.Performs T o m tr e) {p : Topic × KafkaValue} (hp : p ∈ e.published) :
    p.1 ≠ .alarm := by
  have hsilent := Effect.not_silent_of_mem_published hp
  have htopic : ∀ {topic : Topic} {messages : List Json},
      p ∈ (Effect.publish (P := P) topic messages).published → topic ≠ .alarm →
      p.1 ≠ .alarm := by
    intro topic messages hp hne
    obtain ⟨j, -, rfl⟩ := List.mem_map.mp hp
    exact hne
  cases i with
  | notification =>
    cases h with
    | silent hs => exact absurd hs hsilent
    | opens _ _ _ => exact htopic hp nofun
    | record _ _ _ => exact htopic hp nofun
    | requeue _ _ _ => exact htopic hp nofun
    | _ => cases hp
  | retry =>
    cases h with
    | silent hs => exact absurd hs hsilent
    | record _ _ _ => exact htopic hp nofun
    | requeue _ _ _ _ _ => exact htopic hp nofun
    | _ => cases hp
  | periodic self =>
    cases h with
    | silent hs => exact absurd hs hsilent
    | forward _ _ _ _ _ => exact htopic hp nofun
    | _ => cases hp

/-! ## Admissible answers -/

theorem Environment.admissible_answer (W : Environment P) {w : W.State} {e : Effect P}
    {r : e.Answer} {w' : W.State} (h : W.answer w e r w') : e.Admissible r :=
  W.admissible h

theorem StoredAnswer.admissible {id : Json} {answer : Except PyExn (Option (List Json))}
    {tr : PyTrace P} (h : StoredAnswer P id answer tr) (hadm : Trace.Admits Effect.Admissible tr) :
    Effect.Admissible (P := P) (.getNotification id) answer :=
  hadm _ h.mem

/-- With admissible answers, nothing is left to send only when the method was deleted. -/
theorem Refreshed.deleted_of_none {n : Notification P} {tr : PyTrace P}
    (h : Refreshed n tr none) (hadm : Trace.Admits Effect.Admissible tr) :
    StoredAnswer P n.id (.ok none) tr := by
  cases h with
  | deleted h => exact h
  | shortRow h hlen =>
    rcases h.admissible hadm with hx | hx | ⟨name, type, address, period, hx⟩
    · cases hx
    · cases hx
    · cases hx
      exact absurd hlen (by simp)
  | failed h hne =>
    rcases h.admissible hadm with hx | hx | ⟨_, _, _, _, hx⟩
    · cases hx
      exact absurd rfl hne
    · cases hx
    · cases hx

/-- What `to_notification` built has different ids, and all of it is for the alarm that it read. -/
theorem NotificationEngine.Built.rows {alarm : RawAlarm} {tr : PyTrace P}
    {ns : List (Notification P)} (h : Built P conf alarm tr ns) (hne : ns ≠ [])
    (hadm : Trace.Admits Effect.Admissible tr) :
    (ns.map (·.id)).Nodup ∧ ∃ json, AlarmProcessor.parseAlarm P alarm.value = .ok json ∧
      ∀ n ∈ ns, n.rawAlarm = json := by
  obtain ⟨p, o, hrun⟩ := h
  obtain ⟨json, rows, hparse, hmem, hbuilt⟩ := AlarmProcessor.runs_toNotification hrun hne
  have hnodup : (rows.map (·.id)).Nodup := hadm _ hmem
  refine ⟨?_, json, hparse, fun n hn => (hbuilt.of_mem hn).1⟩
  rw [hbuilt.map_id]
  exact hnodup

/-! ## Commits -/

/-- No commit stands in front of a commit. -/
theorem Engine.Performs.isCommit {i : Engine conf} {o : Nat} {m : KafkaValue} {tr : PyTrace P}
    {e : Effect P} (h : i.Performs T o m tr e) (he : e.isCommit = true) :
    ∀ ev ∈ tr, ev.1.isCommit = false := by
  have hsilent := Effect.not_silent_of_isCommit he
  have happend : ∀ {tr₁ tr₂ : PyTrace P}, (∀ ev ∈ tr₁, ev.1.isCommit = false) →
      (∀ ev ∈ tr₂, ev.1.isCommit = false) → ∀ ev ∈ tr₁ ++ tr₂, ev.1.isCommit = false := by
    intro tr₁ tr₂ h₁ h₂ ev hev
    exact (List.mem_append.mp hev).elim (h₁ ev) (h₂ ev)
  cases i with
  | notification =>
    cases h with
    | silent hs => exact absurd hs hsilent
    | nothing hb => exact hb.quiet.isCommit
    | commit hb ho hh =>
      refine happend (happend (happend hb.quiet.isCommit ho.isCommit) hh.isCommit) ?_
      simp [Effect.isCommit]
    | _ => cases he
  | retry =>
    cases h with
    | silent hs => exact absurd hs hsilent
    | drop hr => exact hr.quiet.isCommit
    | invalid hr hw hh => exact happend (happend hr.quiet.isCommit hw.quiet.isCommit) hh.isCommit
    | sent hr hw hh =>
      refine happend (happend (happend hr.quiet.isCommit hw.quiet.isCommit) hh.isCommit) ?_
      simp [Effect.isCommit]
    | requeued hr hw hh _ _ =>
      refine happend (happend (happend hr.quiet.isCommit hw.quiet.isCommit) hh.isCommit) ?_
      simp [Effect.isCommit]
    | exhausted hr hw hh _ _ =>
      refine happend (happend (happend hr.quiet.isCommit hw.quiet.isCommit) hh.isCommit) ?_
      simp [Effect.isCommit]
    | _ => cases he
  | periodic self =>
    cases h with
    | silent hs => exact absurd hs hsilent
    | drop hr => exact hr.quiet.isCommit
    | stop hr hs _ => exact happend hr.quiet.isCommit hs.quiet.isCommit
    | commit hr hs _ hw hh _ =>
      refine happend (happend (happend (happend hr.quiet.isCommit hs.quiet.isCommit)
        hw.quiet.isCommit) ?_) ?_
      · simpa [Effect.isCommit] using hh.isCommit
      · simp [Effect.isCommit]
    | _ => cases he

/-- A loop body that returns has committed. -/
theorem Engine.exists_commit {i : Engine conf} {o : Nat} {m : KafkaValue} {tr : PyTrace P}
    (h : Runs (i.body P T o m) tr (.ok ())) : ∃ ev ∈ tr, ev.1.isCommit = true := by
  cases i with
  | notification =>
    obtain ⟨tr', rfl, -⟩ := NotificationEngine.runs_body h
    exact ⟨⟨.commit, ()⟩, by simp, rfl⟩
  | retry =>
    obtain ⟨tr', rfl, -⟩ := RetryEngine.runs_body h
    exact ⟨⟨.commit, ()⟩, by simp, rfl⟩
  | periodic self =>
    obtain ⟨tr', rfl, -⟩ := PeriodicEngine.runs_body h
    exact ⟨⟨.commit, ()⟩, by simp, rfl⟩

/-! ## The contract -/

/-- The contract of the engines, in any environment. -/
def contract (W : Environment P) (conf : Config) (T : Notifiers) (mayCrash : Prop) :
    Contract (system W conf T mayCrash) where
  Valid := fun t m => t = .alarm ∨ IsDocument P m
  A := Effect.Admissible
  Φ := Engine.Performs T
  Q := fun _ _ _ tr => ∃ ev ∈ tr, ev.1.isCommit = true
  answer_admits := W.admissible
  env_valid := by
    rintro w pubs w' ⟨alarms, rfl, -⟩ p hp
    obtain ⟨m, -, rfl⟩ := List.mem_map.mp hp
    exact Or.inl rfl
  handler_performs := fun _ _ h => Engine.performs_body h
  handler_returns := fun _ _ h => Engine.exists_commit h
  publish_valid := fun h p hp => Or.inr (h.isDocument p hp)

theorem commitsOnce (c : Engine conf) : (contract W conf T mayCrash).CommitsOnce c where
  once := fun h he => h.isCommit he
  before_end := fun h => h

/-- A committed step was about to commit after the trace that is recorded for it. -/
theorem performs_of_step {s : SystemState W conf} (h : Reachable (system W conf T mayCrash) s)
    {st : CommittedStep (Engine conf) KafkaValue (Effect P) Effect.Answer} (hst : st ∈ s.steps) :
    st.proc.Performs T st.offset st.msg st.trace .commit ∧
      Trace.Admits Effect.Admissible st.trace ∧
      (st.proc.source = .alarm ∨ IsDocument P st.msg) := by
  obtain ⟨hlog, hadm, e, he, hΦ⟩ := (contract W conf T mayCrash).step_reachable h st hst
  have hinv := (contract W conf T mayCrash).inv_reachable h
  have hvalid := hinv.valid _ _ (List.mem_of_getElem? hlog)
  cases e with
  | commit => exact ⟨hΦ, hadm, hvalid⟩
  | _ => cases he

/-- A run without crashes is also a run of the system that may crash. -/
theorem reachable_of_no_crash {s : SystemState W conf}
    (h : Reachable (system W conf T False) s) : Reachable (system W conf T mayCrash) s := by
  induction h with
  | init hw => exact .init hw
  | step _ hst ih =>
    cases hst with
    | env henv => exact ih.step (.env henv)
    | read hph hm => exact ih.step (.read hph hm)
    | perform hph hans => exact ih.step (.perform hph hans)
    | finish hph => exact ih.step (.finish hph)
    | crash hcrash => exact hcrash.elim

/-! ## Runs in the environment that follows the transitions -/

section Following

variable {s : SystemState (following P) conf}

/-- The state after an engine has run the body of its next message, at a time, with a plugin. -/
def stepped (T : Notifiers) (s : SystemState (following P) conf) (i : Engine conf) (o : Nat)
    (m : KafkaValue) (now : Rat) (plugin : Except PyExn Json) : SystemState (following P) conf :=
  (system (following P) conf T False).after s i o m []
    ((i.body P T o m).trace (Store.sem now plugin) s.world)
    ((i.body P T o m).run (Store.sem now plugin) s.world).2

theorem reachable_stepped (h : Reachable (system (following P) conf T False) s)
    {i : Engine conf} {o : Nat} {m : KafkaValue} {now : Rat} {plugin : Except PyExn Json}
    (hph : s.phase i = .idle o) (hm : (s.log i.source)[o]? = some m)
    (hok : ((i.body P T o m).run (Store.sem now plugin) s.world).1 = .ok ()) :
    Reachable (system (following P) conf T False) (stepped T s i o m now plugin) := by
  have hrun : Runs (i.body P T o m) ((i.body P T o m).trace (Store.sem now plugin) s.world)
      (.ok ()) := runs_trace_of_eq hok
  have hans : Answers (system (following P) conf T False) s.world
      ((i.body P T o m).trace (Store.sem now plugin) s.world)
      ((i.body P T o m).run (Store.sem now plugin) s.world).2 :=
    Answers.trace (fun w e => following_answer now plugin w e) _ _
  exact h.run_body hph hm hrun hans

/-- The state after a transition of an alarm. -/
def transitioned (s : SystemState (following P) conf) (alarm alarmId : Json) (state : String) :
    SystemState (following P) conf :=
  { s with
    world := { s.world with
      alarmState := fun id => if id = alarmId then some state else s.world.alarmState id }
    log := deliver s.log [(.alarm, transitionMessage alarm)] }

theorem reachable_transitioned (h : Reachable (system (following P) conf T mayCrash) s)
    {alarm alarmId : Json} {state : String} (hid : alarm.getItem "alarmId" = .ok alarmId)
    (hstate : alarm.getItem "newState" = .ok (.str state)) :
    Reachable (system (following P) conf T mayCrash) (transitioned s alarm alarmId state) :=
  h.step (.env ⟨[transitionMessage alarm], rfl, alarm, alarmId, state, rfl, hid, hstate, rfl⟩)

end Following

end

/-! ## Two states of the deployment -/

namespace Deployment

/-- The deployment after its first alarm, with a plugin that accepts or refuses. -/
def started (accepts : Bool) : SystemState (following cpython) conf :=
  stepped notifiers (transitioned (initial store) (alarm "OK" "ALARM") (.str "1") "ALARM")
    .notification 0 (transitionMessage (alarm "OK" "ALARM")) 0 (.ok (.bool accepts))

theorem reachable_started (accepts : Bool) :
    Reachable (system (following cpython) conf notifiers False) (started accepts) :=
  reachable_stepped (reachable_transitioned (.init trivial) (by decide +kernel) (by decide +kernel))
    rfl rfl (by cases accepts <;> decide +kernel)

/-- The message that the first alarm leaves on the retry topic when the plugin refuses it. -/
def onRetry : KafkaValue := ((started false).log .retry).headD (.text "")

/-- The message that the first alarm leaves on the periodic topic. -/
def onPeriodic : KafkaValue :=
  ((started true).log (.periodic "60-seconds-notifications")).headD (.text "")

/-- A minute later: the periodic engine has read the message that the first alarm left. -/
def minuteLater (accepts : Bool) : SystemState (following cpython) conf :=
  stepped notifiers (started accepts) (.periodic everyMinute) 0
    (((started accepts).log (.periodic "60-seconds-notifications")).headD (.text "")) 60
    (.ok (.bool accepts))

theorem reachable_minuteLater (accepts : Bool) :
    Reachable (system (following cpython) conf notifiers False) (minuteLater accepts) := by
  refine reachable_stepped (reachable_started accepts) rfl ?_ ?_
  · cases accepts <;> decide +kernel
  · cases accepts <;> decide +kernel

end Deployment

end MonascaNotification
