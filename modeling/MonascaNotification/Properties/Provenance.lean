import MonascaNotification.Infra.Evidence
import MonascaNotification.Spec.System

/-!
# Nothing comes from nowhere

Whatever the engines hand to a plugin or write on a topic rests on an alarm that somebody published
and that the `NotificationEngine` reported, and on rows that the repository gave. This holds in
every reachable state, with crashes at any point: a process that starts again works only on what
is on its topic.
-/

namespace MonascaNotification

open Infra Prog Network

section

variable {P : Platform} {W : Environment P} {conf : Config} {T : Notifiers} {mayCrash : Prop}
  {s s' : SystemState W conf} {n : Notification P}

/-! ## What a notification rests on -/

/-- The alarm is on the alarm topic, and the `NotificationEngine` found it enabled and young. -/
structure Raised (s : SystemState W conf) (alarm : Json) : Prop where
  published : ∃ value ∈ s.log .alarm, AlarmProcessor.parseAlarm P value = .ok alarm
  reported : ∃ now, (Engine.notification, (⟨.time, now⟩ : PyEvent P)) ∈ s.history ∧
    AlarmProcessor.ReportedAt P conf alarm now

/-- The repository listed the id for the alarm. -/
def Listed (s : SystemState W conf) (alarm id : Json) : Prop :=
  ∃ rows, (Engine.notification, (⟨.fetchNotifications alarm, (⟨rows, none⟩ : RowStream)⟩ :
    PyEvent P)) ∈ s.history ∧ ∃ row ∈ rows, row.id = id

/-- The four columns of the method are those of one answer of the repository for its id. -/
inductive MethodGiven (s : SystemState W conf) (n : Notification P) : Prop where
  | listed {rows : List ActionRow} {row : ActionRow} :
      (Engine.notification, (⟨.fetchNotifications n.rawAlarm, (⟨rows, none⟩ : RowStream)⟩ :
        PyEvent P)) ∈ s.history →
      row ∈ rows → row.id = n.id → row.name = n.name → .str row.type = n.type →
      row.address = n.address → row.period = n.period → MethodGiven s n
  | stored {i : Engine conf} {rest : List Json} :
      (i, (⟨.getNotification n.id,
        (.ok (some (n.name :: n.type :: n.address :: n.period :: rest)) :
          Except PyExn (Option (List Json)))⟩ : PyEvent P)) ∈ s.history → MethodGiven s n

structure Founded (s : SystemState W conf) (n : Notification P) : Prop where
  raised : Raised s n.rawAlarm
  listed : Listed s n.rawAlarm n.id
  method : MethodGiven s n

theorem Founded.grows (h : Founded s n) (hg : Grows s s') : Founded s' n := by
  obtain ⟨⟨⟨value, hvalue, hparse⟩, ⟨now, hnow, hreported⟩⟩, ⟨rows, hrows, hrow⟩, hmethod⟩ := h
  refine ⟨⟨⟨value, hg.log _ _ hvalue, hparse⟩, ⟨now, hg.history _ hnow, hreported⟩⟩,
    ⟨rows, hg.history _ hrows, hrow⟩, ?_⟩
  cases hmethod with
  | listed hmem hrow hid hname htype haddress hperiod =>
    exact .listed (hg.history _ hmem) hrow hid hname htype haddress hperiod
  | stored hmem => exact .stored (hg.history _ hmem)

/-- The count and the timestamp rest on nothing. -/
theorem Founded.counted (h : Founded s n) (count stamp : Json) :
    Founded s { n with retryCount := count, notificationTimestamp := stamp } := by
  refine ⟨h.raised, h.listed, ?_⟩
  cases h.method with
  | listed hmem hrow hid hname htype haddress hperiod =>
    exact .listed hmem hrow hid hname htype haddress hperiod
  | stored hmem => exact .stored hmem

theorem Founded.stamp (h : Founded s n) (now : Rat) : Founded s (n.stamp now) :=
  h.counted n.retryCount (.float (.fin now))

/-- What `to_notification` built from a message of the alarm topic is founded. -/
theorem NotificationEngine.Built.founded {o : Nat} {value : KafkaValue} {tr : PyTrace P}
    {ns : List (Notification P)} (h : Built P conf ⟨0, o, value⟩ tr ns)
    (hvalue : value ∈ s.log .alarm) (htr : ∀ ev ∈ tr, (Engine.notification, ev) ∈ s.history)
    (hn : n ∈ ns) : Founded s n := by
  obtain ⟨p, o', hrun⟩ := h
  have hne := List.ne_nil_of_mem hn
  obtain ⟨alarm, rows, hparse, hmem, hbuilt⟩ := AlarmProcessor.runs_toNotification hrun hne
  obtain ⟨now, hnow, hreported⟩ :=
    AlarmProcessor.reportedAt_of_runs_toNotification hrun hne hparse
  obtain ⟨row, hrow, hinit⟩ : ∃ row ∈ rows, Notification.init P row.id (.str row.type) row.name
      row.address row.period (.int 0) alarm = .ok n := by
    clear hmem hrun hne
    induction hbuilt with
    | nil => cases hn
    | cons hone _ ih =>
      rcases List.mem_cons.mp hn with rfl | hn
      · exact ⟨_, List.mem_cons_self, hone⟩
      · obtain ⟨row, hrow, hinit⟩ := ih hn
        exact ⟨row, List.mem_cons_of_mem _ hrow, hinit⟩
  obtain ⟨hid, htype, hname, haddress, hperiod, -, hraw, -⟩ := Notification.init_eq_ok hinit
  subst hraw
  exact ⟨⟨⟨value, hvalue, hparse⟩, ⟨now, htr _ hnow, hreported⟩⟩,
    ⟨rows, htr _ hmem, row, hrow, hid.symm⟩,
    .listed (htr _ hmem) hrow hid.symm hname.symm htype.symm haddress.symm hperiod.symm⟩

/-- The objects of a send are those that were built, stamped or not. -/
theorem NotificationEngine.Opens.founded {o : Nat} {value : KafkaValue} {tr₁ tr₂ : PyTrace P}
    {ns ns' : List (Notification P)} (h : Opens conf ns tr₂ ns')
    (hb : Built P conf ⟨0, o, value⟩ tr₁ ns) (hvalue : value ∈ s.log .alarm)
    (htr : ∀ ev ∈ tr₁, (Engine.notification, ev) ∈ s.history) (hn : n ∈ ns') : Founded s n := by
  obtain ⟨m, hm, rfl | ⟨now, rfl⟩⟩ := h.of_mem hn
  · exact hb.founded hvalue htr hm
  · exact (hb.founded hvalue htr hm).stamp now

/-- A notification that is read from a queue is founded when the document was. -/
theorem Read.founded {i : Engine conf} {m : Notification P} {tr : PyTrace P}
    (h : Read (.dumps n.toJson) tr (some m)) (htr : ∀ ev ∈ tr, (i, ev) ∈ s.history)
    (hn : Founded s n) : Founded s m := by
  have hcached := hn.counted n.retryCount .null
  cases h.refreshed with
  | stored hans => exact ⟨hn.raised, hn.listed, .stored (htr _ hans.mem)⟩
  | cached _ => exact hcached

/-! ## What is on the topics -/

/-- The plugin of its type got the notification, and accepted it or not. -/
def Called (T : Notifiers) (s : SystemState W conf) (n : Notification P) (outcome : Bool) : Prop :=
  ∃ (i : Engine conf) (notifier : Notifier) (answer : Except PyExn Json),
    (i, (⟨.sendNotification notifier n, answer⟩ : PyEvent P)) ∈ s.history ∧
    T.find? n.type = some notifier ∧ accepted answer = outcome

theorem Called.grows {outcome : Bool} (h : Called T s n outcome) (hg : Grows s s') :
    Called T s' n outcome := by
  obtain ⟨i, notifier, answer, hmem, hrest⟩ := h
  exact ⟨i, notifier, answer, hg.history _ hmem, hrest⟩

/--
What a document on a topic says about the past. One on the notification topic was accepted by its
plugin, and one on the retry topic was refused, up to its count and its timestamp.
-/
def Documented (T : Notifiers) (s : SystemState W conf) : Topic → KafkaValue → Prop
  | .alarm, _ => True
  | .notification, m => ∃ n : Notification P, m = .dumps n.toJson ∧ Founded s n ∧ Called T s n true
  | .retry, m => ∃ (n : Notification P) (count stamp : Json),
      m = .dumps { n with retryCount := count, notificationTimestamp := stamp }.toJson ∧
      Founded s n ∧ Called T s n false
  | .periodic _, m => ∃ n : Notification P, m = .dumps n.toJson ∧ Founded s n

theorem Documented.grows {topic : Topic} {m : KafkaValue} (h : Documented T s topic m)
    (hg : Grows s s') : Documented T s' topic m := by
  cases topic with
  | alarm => trivial
  | notification =>
    obtain ⟨n, hm, hn, hcall⟩ := h
    exact ⟨n, hm, hn.grows hg, hcall.grows hg⟩
  | retry =>
    obtain ⟨n, count, stamp, hm, hn, hcall⟩ := h
    exact ⟨n, count, stamp, hm, hn.grows hg, hcall.grows hg⟩
  | periodic name =>
    obtain ⟨n, hm, hn⟩ := h
    exact ⟨n, hm, hn.grows hg⟩

/-- A document on a queue is that of a founded notification. -/
theorem Documented.founded {topic : Topic} (hqueue : topic.IsQueue) {m : KafkaValue}
    (h : Documented T s topic m) : ∃ n : Notification P, m = .dumps n.toJson ∧ Founded s n := by
  cases topic with
  | alarm => cases hqueue
  | notification => cases hqueue
  | retry =>
    obtain ⟨n, count, stamp, hm, hn, -⟩ := h
    exact ⟨_, hm, hn.counted count stamp⟩
  | periodic name => exact h

theorem Handled.called_of_mem_sent {i : Engine conf} {ns : List (Notification P)}
    {tr : PyTrace P} {sent failed : List (Notification P)} (h : Handled T ns tr sent failed)
    (htr : ∀ ev ∈ tr, (i, ev) ∈ s.history) (hn : n ∈ sent) : Called T s n true := by
  obtain ⟨-, notifier, answer, hfind, hacc, hmem⟩ := h.call_of_mem_sent hn
  exact ⟨i, notifier, answer, htr _ hmem, hfind, hacc⟩

theorem Handled.called_of_mem_failed {i : Engine conf} {ns : List (Notification P)}
    {tr : PyTrace P} {sent failed : List (Notification P)} (h : Handled T ns tr sent failed)
    (htr : ∀ ev ∈ tr, (i, ev) ∈ s.history) (hn : n ∈ failed) : Called T s n false := by
  obtain ⟨notifier, answer, hfind, hacc, hmem⟩ := h.call_of_mem_failed hn
  exact ⟨i, notifier, answer, htr _ hmem, hfind, hacc⟩

/-! ## One publish -/

/-- What the `NotificationEngine` publishes is documented by what it did before. -/
theorem NotificationEngine.Performs.documented {o : Nat} {value : KafkaValue} {tr : PyTrace P}
    {e : Effect P} (h : NotificationEngine.Performs conf T ⟨0, o, value⟩ tr e)
    (hvalue : value ∈ s.log .alarm) (htr : ∀ ev ∈ tr, (Engine.notification, ev) ∈ s.history)
    {p : Topic × KafkaValue} (hp : p ∈ e.published) : Documented T s p.1 p.2 := by
  cases h with
  | silent hs => exact absurd hs (Effect.not_silent_of_mem_published hp)
  | @opens _ _ pre m post _ now topicName hb _ _ =>
    obtain rfl : p = (.periodic topicName, .dumps (m.stamp now).toJson) := by simpa using hp
    have hm : Founded s m :=
      hb.founded hvalue (fun ev hev => htr ev (by simp [hev])) (by simp)
    exact ⟨m.stamp now, rfl, hm.stamp now⟩
  | record hb ho hh =>
    simp only [Effect.published_publish, List.map_map, List.mem_map, Function.comp] at hp
    obtain ⟨m, hm, rfl⟩ := hp
    obtain ⟨⟨m', hm', now, rfl⟩, -⟩ := hh.call_of_mem_sent hm
    have hm' : Founded s m' := ho.founded hb hvalue (fun ev hev => htr ev (by simp [hev])) hm'
    exact ⟨_, rfl, hm'.stamp now, hh.called_of_mem_sent (fun ev hev => htr ev (by simp [hev])) hm⟩
  | requeue hb ho hh =>
    simp only [Effect.published_publish, List.map_map, List.mem_map, Function.comp] at hp
    obtain ⟨m, hm, rfl⟩ := hp
    obtain ⟨m', hm', -, now, -, rfl⟩ := hh.of_mem_failed hm
    have hm' : Founded s m' := ho.founded hb hvalue (fun ev hev => htr ev (by simp [hev])) hm'
    exact ⟨m'.stamp now, m'.retryCount, .float (.fin now), rfl, hm'.stamp now,
      hh.called_of_mem_failed (fun ev hev => htr ev (by simp [hev])) hm⟩
  | _ => cases hp

theorem RetryEngine.Performs.documented {m : KafkaValue} {tr : PyTrace P} {e : Effect P}
    (h : RetryEngine.Performs conf T m tr e) (hm : Documented T s .retry m)
    (htr : ∀ ev ∈ tr, ((.retry : Engine conf), ev) ∈ s.history) {p : Topic × KafkaValue}
    (hp : p ∈ e.published) : Documented T s p.1 p.2 := by
  obtain ⟨n₀, rfl, hn₀⟩ := Documented.founded (show Topic.IsQueue .retry from trivial) hm
  cases h with
  | silent hs => exact absurd hs (Effect.not_silent_of_mem_published hp)
  | @record _ _ _ n m hr _ hh =>
    obtain rfl : p = (.notification, .dumps m.toJson) := by simpa using hp
    have hn : Founded s n := hr.founded (fun ev hev => htr ev (by simp [hev])) hn₀
    obtain ⟨-, -, now, rfl⟩ := hh.of_sent
    exact ⟨_, rfl, hn.stamp now,
      hh.called_of_mem_sent (fun ev hev => htr ev (by simp [hev])) (by simp)⟩
  | @requeue _ _ _ n m count now hr _ hh _ _ =>
    obtain rfl : p = (.retry, .dumps ({ m with retryCount := count }.stamp now).toJson) := by
      simpa using hp
    have hn : Founded s n := hr.founded (fun ev hev => htr ev (by simp [hev])) hn₀
    obtain ⟨-, -, now', rfl⟩ := hh.of_failed
    exact ⟨n.stamp now', count, .float (.fin now), rfl, hn.stamp now',
      hh.called_of_mem_failed (fun ev hev => htr ev (by simp [hev])) (by simp)⟩
  | _ => cases hp

theorem PeriodicEngine.Performs.documented {self : PeriodicEngine conf} {m : KafkaValue}
    {tr : PyTrace P} {e : Effect P} (h : PeriodicEngine.Performs self T m tr e)
    (hm : Documented T s (.periodic self.topicName) m)
    (htr : ∀ ev ∈ tr, (Engine.periodic self, ev) ∈ s.history) {p : Topic × KafkaValue}
    (hp : p ∈ e.published) : Documented T s p.1 p.2 := by
  obtain ⟨n₀, rfl, hn₀⟩ := hm
  cases h with
  | silent hs => exact absurd hs (Effect.not_silent_of_mem_published hp)
  | @forward _ _ _ _ n _ now now' _ _ hr _ _ _ _ _ =>
    obtain rfl : p = (.periodic self.topicName, .dumps (n.stamp now').toJson) := by simpa using hp
    have hn : Founded s n := hr.founded (fun ev hev => htr ev (by simp [hev])) hn₀
    exact ⟨n.stamp now', rfl, hn.stamp now'⟩
  | _ => cases hp

/-! ## Every run -/

/-- What the messages of the engines rest on. -/
def evidence (W : Environment P) (conf : Config) (T : Notifiers) (mayCrash : Prop) :
    Evidence (system W conf T mayCrash) where
  Valid := Documented T
  grows := fun hg h => h.grows hg
  env_valid := by
    rintro w pubs w' s ⟨alarms, rfl, -⟩ p hp
    obtain ⟨m, -, rfl⟩ := List.mem_map.mp hp
    trivial
  publish_valid := by
    intro s i o m tr e hm hvalid htr hperf p hp
    cases i with
    | notification =>
      exact (NotificationEngine.performs_body hperf).documented hm htr hp
    | retry => exact (RetryEngine.performs_body hperf).documented hvalid htr hp
    | periodic self => exact (PeriodicEngine.performs_body hperf).documented hvalid htr hp

/-- A plugin gets founded notifications only. -/
theorem founded_of_behind {i : Engine conf} {notifier : Notifier}
    (h : (evidence W conf T mayCrash).Behind s i (.sendNotification notifier n)) :
    T.find? n.type = some notifier ∧ Founded s n := by
  obtain ⟨o, m, tr, hm, hvalid, htr, hperf⟩ := h
  cases i with
  | notification =>
    obtain ⟨tr₁, tr₂, tr₃, ns, ns', rfl, hb, ho, hh⟩ :=
      NotificationEngine.performs_body_plugin hperf
    obtain ⟨m', hm', hfind, now, rfl⟩ := hh.of_mem
    have hn : Founded s m' := ho.founded hb hm (fun ev hev => htr ev (by simp [hev])) hm'
    exact ⟨hfind, hn.stamp now⟩
  | retry =>
    obtain ⟨n₀, rfl, hn₀⟩ := Documented.founded (show Topic.IsQueue .retry from trivial) hvalid
    cases RetryEngine.performs_body hperf with
    | silent hs => exact hs.elim
    | @plugin _ _ n' _ now hr _ hfind =>
      have hn : Founded s n' := hr.founded (fun ev hev => htr ev (by simp [hev])) hn₀
      exact ⟨hfind, hn.stamp now⟩
  | periodic self =>
    obtain ⟨n₀, rfl, hn₀⟩ := hvalid
    cases PeriodicEngine.performs_body hperf with
    | silent hs => exact hs.elim
    | @plugin _ _ _ n' _ _ now now' hr _ _ _ hfind =>
      have hn : Founded s n' := hr.founded (fun ev hev => htr ev (by simp [hev])) hn₀
      exact ⟨hfind, hn.stamp now'⟩

/--
**No plugin call comes from nowhere.** Whenever a plugin was called, the alarm in the notification
is on the alarm topic, the `NotificationEngine` had found it enabled and no older than the ttl, the
repository had listed the method for this alarm, the four columns of the method are those of one
answer of the repository for its id, and the plugin is the one that is configured for the type.
-/
theorem calls_founded (h : Reachable (system W conf T mayCrash) s) {i : Engine conf}
    {notifier : Notifier} {answer : Except PyExn Json}
    (hcall : (i, (⟨.sendNotification notifier n, answer⟩ : PyEvent P)) ∈ s.history) :
    T.find? n.type = some notifier ∧ Founded s n :=
  founded_of_behind ((evidence W conf T mayCrash).performed_reachable h _ hcall)

/-- The call of the periodic engine a minute after the first alarm. -/
theorem calls_founded_minuteLater : ∃ notifier n answer,
    (Engine.periodic Deployment.everyMinute,
      (⟨.sendNotification notifier n, answer⟩ : PyEvent cpython)) ∈
        (Deployment.minuteLater true).history ∧
    Deployment.notifiers.find? n.type = some notifier ∧
    Founded (Deployment.minuteLater true) n := by
  have hany : (Deployment.minuteLater true).history.any (fun x =>
      decide (x.1 = .periodic Deployment.everyMinute) && (attempted x.2).isSome) = true := by
    decide +kernel
  obtain ⟨⟨i, ev⟩, hmem, hx⟩ := List.any_eq_true.mp hany
  simp only [Bool.and_eq_true, decide_eq_true_eq] at hx
  obtain ⟨rfl, hsome⟩ := hx
  obtain ⟨n, hn⟩ := Option.isSome_iff_exists.mp hsome
  obtain ⟨notifier, answer, rfl⟩ := exists_of_attempted hn
  exact ⟨notifier, n, answer, hmem, calls_founded (Deployment.reachable_minuteLater true) hmem⟩

/--
**No document comes from nowhere.** Every message that an engine wrote is the document of a founded
notification. On the notification topic its plugin had accepted just this notification, and on the
retry topic its plugin had refused it, up to its count and its timestamp.
-/
theorem documents_founded (h : Reachable (system W conf T mayCrash) s) (topic : Topic)
    {m : KafkaValue} (hm : m ∈ s.log topic) : Documented T s topic m :=
  (evidence W conf T mayCrash).valid_reachable h topic m hm

/-- What the first alarm leaves on the retry topic. -/
theorem documents_founded_onRetry :
    Documented Deployment.notifiers (Deployment.started false) .retry Deployment.onRetry :=
  documents_founded (Deployment.reachable_started false) .retry (by decide +kernel)

end

end MonascaNotification
