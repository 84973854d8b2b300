import MonascaNotification.Infra.Run
import MonascaNotification.Infra.Timed
import MonascaNotification.Properties.ChainCount

/-!
# What a crash can repeat, and what it cannot

An engine that was stopped reads its message again and may call the plugin again. That is all: a
message is given to the plugins at most once more than its engine crashed on it, no message is
skipped or committed twice, and the first calls for the alarms come in the order of their topic.
-/

namespace MonascaNotification

open Infra Prog Network

section

variable {P : Platform} {W : Environment P} {conf : Config} {T : Notifiers} {mayCrash : Prop}
  {s : SystemState W conf} {ls : List (Label (Engine conf) (Effect P) Effect.Answer)}

/-! ## One body -/

/-- A plugin call for the method with this id. -/
def isCallFor (id : Json) (ev : PyEvent P) : Bool :=
  (attempted ev).any fun n => decide (n.id = id)

theorem countP_isCallFor_eq_zero {id : Json} {tr : PyTrace P}
    (h : id ∉ (sends tr).map (·.id)) : tr.countP (isCallFor id) = 0 := by
  refine List.countP_eq_zero.mpr fun ev hev hcall => ?_
  obtain ⟨n, hn, hid⟩ := (Option.any_eq_true _ _).mp hcall
  exact h (List.mem_map.mpr ⟨n, List.mem_filterMap.mpr ⟨ev, hev, hn⟩, of_decide_eq_true hid⟩)

/-- A body does not call a plugin for a method that it has already called one for. -/
theorem Engine.not_mem_sends {i : Engine conf} {o : Nat} {m : KafkaValue} {tr : PyTrace P}
    {notifier : Notifier} {n : Notification P}
    (h : Prog.Performs (i.body P T o m) tr (.sendNotification notifier n))
    (hadm : Trace.Admits Effect.Admissible tr) : n.id ∉ (sends tr).map (·.id) := by
  cases i with
  | notification =>
    obtain ⟨tr₁, tr₂, tr₃, ns, ns', rfl, hb, ho, hh⟩ := NotificationEngine.performs_body_plugin h
    obtain ⟨m', hm', -⟩ := hh.of_mem
    obtain ⟨m, hm, -⟩ := ho.of_mem hm'
    obtain ⟨hnodup, -⟩ := hb.rows (List.ne_nil_of_mem hm) fun ev hev => hadm ev (by simp [hev])
    rw [← ho.map_id] at hnodup
    rw [sends_append, sends_append, hb.quiet.sends, ho.sends, List.nil_append, List.nil_append]
    exact hh.not_mem_sends hnodup
  | retry =>
    cases RetryEngine.performs_body h with
    | silent hs => exact hs.elim
    | plugin hr hw _ =>
      rw [sends_append, sends_append, hr.quiet.sends, hw.quiet.sends]
      simp [sends_cons, attempted]
  | periodic self =>
    cases PeriodicEngine.performs_body h with
    | silent hs => exact hs.elim
    | plugin hr hs _ hw _ =>
      rw [sends_append, sends_append, sends_append, hr.quiet.sends, hs.quiet.sends, hw.quiet.sends]
      simp [sends_cons, attempted]

/-- What the bodies do, with the answers that the environment may give. -/
def bodies (W : Environment P) (conf : Config) (T : Notifiers) (mayCrash : Prop) :
    Contract (system W conf T mayCrash) :=
  (system W conf T mayCrash).handlers.also W.admissible_answer

theorem countP_isCallFor_le (h : Reachable (system W conf T mayCrash) s) {c : Engine conf} {o : Nat}
    {m : KafkaValue} {tr : PyTrace P} {p : Py P Unit} (id : Json)
    (hph : s.phase c = .running o m tr p) : tr.countP (isCallFor id) ≤ 1 := by
  refine (bodies W conf T mayCrash).countP_running ?_ h hph
  intro o m tr e r hΦ hadm hcall
  obtain ⟨n, hn, hid⟩ := (Option.any_eq_true _ _).mp hcall
  obtain ⟨notifier, answer, hev⟩ := exists_of_attempted hn
  cases hev
  have hnot := Engine.not_mem_sends (i := c) hΦ fun ev hev => (hadm ev hev).2
  rw [of_decide_eq_true hid] at hnot
  exact countP_isCallFor_eq_zero hnot

/-! ## Every run -/

/--
**Only a crash repeats a plugin call.** In every run, the calls that an engine made for one method
while it worked on the message at one offset are at most one more than its crashes on this message.
-/
theorem calls_le_crashes (h : Run (system W conf T mayCrash) ls s) (c : Engine conf) (o : Nat)
    (id : Json) :
    ls.countP (Label.isEffect c o (isCallFor id)) ≤ ls.countP (Label.isCrash c o) + 1 := by
  have hle := h.effects_le (contract W conf T mayCrash) (commitsOnce c)
    (fun hs _ _ _ _ hph => countP_isCallFor_le hs id hph) o
  rwa [Nat.one_mul] at hle

/--
**No message is skipped, and none is committed twice.** In every run, with crashes at any point, the
committed steps of an engine are on the messages of its topic in their order, one for each up to the
committed offset, and no step of the engine is at an earlier offset than a step before it.
-/
theorem committed_in_turn (h : Run (system W conf T mayCrash) ls s) (c : Engine conf) :
    (s.steps.filter fun st => decide (st.proc = c)).map (·.offset) =
        List.range (s.committed c) ∧
      (s.steps.filter fun st => decide (st.proc = c)).map (·.msg) =
        (s.log c.source).take (s.committed c) ∧
      (ls.filterMap (Label.offset? c)).Pairwise (· ≤ ·) :=
  ⟨map_offset_steps (contract W conf T mayCrash) (commitsOnce c) h.reachable,
    map_msg_steps (contract W conf T mayCrash) (commitsOnce c) h.reachable,
    (h.pairwise_le (contract W conf T mayCrash) (commitsOnce c)).1⟩

/-- The message at the offset of the alarm topic is one of this alarm. -/
def AlarmAt (s : SystemState W conf) (o : Nat) (alarm : Json) : Prop :=
  ∃ value, (s.log .alarm)[o]? = some value ∧ AlarmProcessor.parseAlarm P value = .ok alarm

/-- A step in which a plugin is called by the `NotificationEngine`. -/
abbrev firstCall (conf : Config) (o : Nat) (notifier : Notifier) (n : Notification P)
    (answer : Except PyExn Json) : Label (Engine conf) (Effect P) Effect.Answer :=
  .effect .notification o ⟨.sendNotification notifier n, answer⟩

theorem alarmAt_of_mem (h : Run (system W conf T mayCrash) ls s) {o : Nat} {notifier : Notifier}
    {n : Notification P} {answer : Except PyExn Json}
    (hmem : firstCall conf o notifier n answer ∈ ls) : AlarmAt s o n.rawAlarm := by
  obtain ⟨value, tr, hvalue, hadm, hperf⟩ := h.effect (bodies W conf T mayCrash) hmem
  obtain ⟨tr₁, tr₂, tr₃, ns, ns', rfl, hb, ho, hh⟩ := NotificationEngine.performs_body_plugin hperf
  obtain ⟨m', hm', -, now, rfl⟩ := hh.of_mem
  obtain ⟨m, hm, hstamp⟩ := ho.of_mem hm'
  obtain ⟨-, alarm, hparse, hall⟩ := hb.rows (List.ne_nil_of_mem hm) fun ev hev =>
    (hadm ev (by simp [hev])).2
  have hraw : m'.rawAlarm = alarm := by
    rcases hstamp with rfl | ⟨now', rfl⟩
    · exact hall _ hm
    · exact hall m hm
  exact ⟨value, hvalue, by rw [Notification.stamp_rawAlarm, hraw]; exact hparse⟩

/--
**First calls come in the order of the alarms.** In every run, crashes or not, of two plugin calls
of the `NotificationEngine` the earlier one is for an alarm at the same offset of the alarm topic or
at a smaller one.
-/
theorem first_calls_in_order (h : Run (system W conf T mayCrash) ls s) {o o' : Nat}
    {notifier notifier' : Notifier} {n n' : Notification P} {answer answer' : Except PyExn Json}
    (hcalls : [firstCall conf o notifier n answer, firstCall conf o' notifier' n' answer'].Sublist
      ls) : o ≤ o' ∧ AlarmAt s o n.rawAlarm ∧ AlarmAt s o' n'.rawAlarm := by
  have hfirst := hcalls.subset List.mem_cons_self
  have hsecond := hcalls.subset (List.mem_cons_of_mem _ List.mem_cons_self)
  refine ⟨?_, alarmAt_of_mem h hfirst, alarmAt_of_mem h hsecond⟩
  have hoffsets : [o, o'].Sublist (ls.filterMap (Label.offset? .notification)) := by
    simpa [Label.offset?] using hcalls.filterMap (Label.offset? .notification)
  have hsorted := (h.pairwise_le (contract W conf T mayCrash) (commitsOnce .notification)).1
  simpa using hsorted.sublist hoffsets

/-- No answer changes the store. -/
theorem answers_following {d d' : Store} {tr : PyTrace P}
    (h : Answers (system (following P) conf T mayCrash) d tr d') : d' = d := by
  induction h with
  | nil => rfl
  | cons hone _ ih => rw [ih, hone.1]

end

/-! ## In the deployment -/

namespace Deployment

/-- The first alarm is on its topic. -/
def alarmed : SystemState (following cpython) conf :=
  transitioned (initial store) (alarm "OK" "ALARM") (.str "1") "ALARM"

/-- The body for it. -/
abbrev alarmedBody : Py cpython Unit :=
  (.notification : Engine conf).body cpython notifiers 0 (transitionMessage (alarm "OK" "ALARM"))

/-- What it does when the plugin accepts. -/
abbrev alarmedTrace : PyTrace cpython :=
  alarmedBody.trace (Store.sem 0 (.ok (.bool true))) alarmed.world

theorem runs_alarmedBody : Runs alarmedBody alarmedTrace (.ok ()) := by
  have hok : (alarmedBody.run (Store.sem 0 (.ok (.bool true))) alarmed.world).1 = .ok () := by
    decide +kernel
  exact runs_trace_of_eq hok

theorem countP_alarmedTrace : alarmedTrace.countP (isCallFor (.str "10")) = 1 := by decide +kernel

/-- The body calls the plugin before it commits. -/
theorem alarmedTrace_eq : ∃ tr,
    alarmedTrace = tr ++ [⟨.commit, ()⟩, ⟨.increment "alarms_finished_count" 1, ()⟩] ∧
    tr.countP (isCallFor (.str "10")) = 1 ∧ (tr.any fun ev => ev.1.isCommit) = false := by
  have hcommits : alarmedTrace.countP (fun ev => ev.1.isCommit) = 1 := by decide +kernel
  have hcalls := countP_alarmedTrace
  obtain ⟨tr, htr, -⟩ := NotificationEngine.runs_body runs_alarmedBody
  rw [htr, List.countP_append] at hcalls hcommits
  have hzero : tr.countP (fun ev => ev.1.isCommit) = 0 :=
    Nat.add_right_cancel (hcommits.trans (Nat.zero_add 1).symm)
  exact ⟨tr, htr, hcalls, List.any_eq_false.mpr (List.countP_eq_zero.mp hzero)⟩

/--
The notification engine crashes when the plugin has taken its only notification, before it commits,
and reads the message once more.
-/
theorem exists_crashed_run : ∃ ls s, Run (system (following cpython) conf notifiers True) ls s ∧
    ls.countP (Label.isEffect .notification 0 (isCallFor (.str "10"))) = 2 ∧
    ls.countP (Label.isCrash .notification 0) = 1 ∧ s.committed .notification = 1 := by
  have hans : Answers (system (following cpython) conf notifiers True) alarmed.world alarmedTrace
      (alarmedBody.run (Store.sem 0 (.ok (.bool true))) alarmed.world).2 :=
    Answers.trace (fun w e => following_answer 0 _ w e) _ _
  have hcommit : (alarmedTrace.any fun ev => ev.1.isCommit) = true := by decide +kernel
  obtain ⟨tr, htr, hpartCalls, hbefore⟩ := alarmedTrace_eq
  have hpart : Answers (system (following cpython) conf notifiers True) alarmed.world tr
      alarmed.world := by
    rw [htr] at hans
    obtain ⟨w, hpart, -⟩ := answers_append.mp hans
    rwa [answers_following hpart] at hpart
  obtain ⟨q, hreach, -⟩ : ∃ q, Reaches alarmedBody tr q ∧ Runs q _ (.ok ()) :=
    Runs.exists_reaches (htr ▸ runs_alarmedBody)
  have halarmed : Run (system (following cpython) conf notifiers True) [.env] alarmed :=
    (Run.init trivial).step (.env ⟨[transitionMessage (alarm "OK" "ALARM")], rfl,
      alarm "OK" "ALARM", .str "1", "ALARM", rfl, rfl, rfl, rfl⟩)
  obtain ⟨s, hcrashed, hworld, hidle, hlog⟩ :=
    halarmed.crash_body (i := .notification) trivial rfl rfl rfl hreach hpart hbefore
  rw [← hworld] at hans
  obtain ⟨s', hend, hcommitted⟩ := hcrashed.finish_body hidle hlog runs_alarmedBody hans hcommit
  refine ⟨_, s', hend, ?_, ?_, hcommitted⟩
  · simp only [List.countP_append, List.countP_cons, List.countP_nil, Label.countP_isEffect_map,
      Label.isEffect, Bool.false_eq_true, if_false, countP_alarmedTrace, hpartCalls]
  · simp only [List.countP_append, List.countP_cons, List.countP_nil, Label.countP_isCrash_map,
      Label.isCrash, decide_true, and_self, Bool.false_eq_true, if_true, if_false]

end Deployment

open Deployment in
/-- Two calls for one message, and one crash. -/
theorem calls_le_crashes_crashed : ∃ ls s,
    Run (system (following cpython) conf notifiers True) ls s ∧
    ls.countP (Label.isEffect .notification 0 (isCallFor (.str "10"))) = 2 ∧
    ls.countP (Label.isEffect .notification 0 (isCallFor (.str "10"))) ≤
      ls.countP (Label.isCrash .notification 0) + 1 := by
  obtain ⟨ls, s, hrun, hcalls, -, -⟩ := exists_crashed_run
  exact ⟨ls, s, hrun, hcalls, calls_le_crashes hrun .notification 0 (.str "10")⟩

open Deployment in
/-- Its message is committed once. -/
theorem committed_in_turn_crashed : ∃ ls s,
    Run (system (following cpython) conf notifiers True) ls s ∧
    ls.countP (Label.isCrash .notification 0) = 1 ∧
    (s.steps.filter fun st => decide (st.proc = .notification)).map (·.offset) = [0] ∧
    (ls.filterMap (Label.offset? (.notification : Engine conf))).Pairwise (· ≤ ·) := by
  obtain ⟨ls, s, hrun, -, hcrash, hone⟩ := exists_crashed_run
  obtain ⟨hoffsets, -, hsorted⟩ := committed_in_turn hrun .notification
  rw [hone] at hoffsets
  exact ⟨ls, s, hrun, hcrash, hoffsets, hsorted⟩

open Deployment in
/-- The first and the third alarm of the run in which the alarm returned are reported. -/
theorem first_calls_in_order_flapped : ∃ ls o o' notifier notifier' n n' answer answer',
    Run (system (following cpython) conf notifiers False) ls flapped ∧
    [firstCall conf o notifier n answer, firstCall conf o' notifier' n' answer'].Sublist ls ∧
    o ≤ o' ∧ AlarmAt flapped o n.rawAlarm ∧ AlarmAt flapped o' n'.rawAlarm := by
  obtain ⟨ls, hrun⟩ := reachable_iff_exists_run.mp reachable_flapped
  have htwo : (flapped.history.filter fun x =>
      decide (x.1 = .notification) && (attempted x.2).isSome).length = 2 := by decide +kernel
  obtain ⟨x, y, hxy⟩ := List.length_eq_two.mp htwo
  have hcall : ∀ z ∈ [x, y], ∃ notifier n answer,
      z = (.notification, ⟨.sendNotification notifier n, answer⟩) := by
    rintro ⟨i, ev⟩ hz
    rw [← hxy] at hz
    obtain ⟨-, hz⟩ := List.mem_filter.mp hz
    simp only [Bool.and_eq_true, decide_eq_true_eq] at hz
    obtain ⟨rfl, hsome⟩ := hz
    obtain ⟨n, hn⟩ := Option.isSome_iff_exists.mp hsome
    obtain ⟨notifier, answer, rfl⟩ := exists_of_attempted hn
    exact ⟨notifier, n, answer, rfl⟩
  have hsub : [x, y].Sublist (ls.filterMap Label.performed?) := by
    rw [← hrun.history, ← hxy]
    exact List.filter_sublist
  obtain ⟨ls', hls', hall⟩ := exists_sublist_of_history hsub
  obtain ⟨notifier, n, answer, rfl⟩ := hcall x List.mem_cons_self
  obtain ⟨notifier', n', answer', rfl⟩ := hcall y (List.mem_cons_of_mem _ List.mem_cons_self)
  cases hall with
  | cons hx hall =>
    cases hall with
    | cons hy hall =>
      cases hall
      obtain ⟨o, rfl⟩ := hx
      obtain ⟨o', rfl⟩ := hy
      exact ⟨ls, o, o', notifier, notifier', n, n', answer, answer', hrun, hls',
        first_calls_in_order hrun hls'⟩

end MonascaNotification
