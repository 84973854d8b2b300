import MonascaNotification.Properties.AlarmRobustness
import MonascaNotification.Python.Text
import MonascaNotification.Spec.Encoding

/-!
# The alarm schema of the parser and of the plugins

`_parse_alarm` lists the fields it expects, and the constructor of the notification and the
plugins index the alarm on their own. The list has no `alarmDescription`, which four of the six
plugins read: an alarm without it is accepted, and then fails at every send.

`messages_build_iff` gives the alarms of the normal form for which the notification and all
six messages can be built. Its strings may hold lone surrogates, which only the e-mail encodes.
-/

namespace MonascaNotification

open Infra

variable {P : Platform} {R : Rendering} {conf : EmailConf} {date : String}
  {fields : List (String × Json)}

/-! ## The normal form of an alarm -/

/-- The fields of an alarm that are strings. -/
def stringFields : List String :=
  ["alarmId", "alarmDefinitionId", "alarmName", "alarmDescription", "newState", "oldState",
   "stateChangeReason", "severity", "link", "lifecycleState", "tenantId"]

/-- The fields that are there have their normal types. -/
structure NormallyTyped (fields : List (String × Json)) : Prop where
  strings : ∀ field ∈ stringFields, ∀ v, fields.lookup field = some v → ∃ s, v = .str s
  timestamp : ∀ v, fields.lookup "timestamp" = some v →
    (∃ n, v = .int n) ∨ ∃ x, v = .float x
  metrics : ∀ v, fields.lookup "metrics" = some v →
    ∃ metrics, v = .arr metrics ∧ metrics ≠ [] ∧ ∀ metric ∈ metrics, IsMetric metric

/-- A thousandth of the timestamp is finite, and the C library has a date for its seconds. -/
def Datable (P : Platform) (R : Rendering) (timestamp : Json) : Prop :=
  ∃ seconds n text, timestamp.divByFloat P 1000 = .ok seconds ∧ seconds.toInt = .ok n ∧
    R.asctime n = .ok text

/-! ## The slots of an accepted alarm -/

/-- What the constructor reads of the alarm, as far as the builders depend on it. -/
theorem ofAlarm_slots {slots : AlarmSlots} (h : AlarmSlots.ofAlarm P (.obj fields) = .ok slots) :
    (∃ timestamp seconds, fields.lookup "timestamp" = some timestamp ∧
      timestamp.divByFloat P 1000 = .ok seconds ∧ seconds.toInt = .ok slots.alarmTimestamp) ∧
    fields.lookup "stateChangeReason" = some slots.message ∧
    fields.lookup "severity" = some slots.severity ∧
    fields.lookup "metrics" = some slots.metrics := by
  have hlookup : ∀ {key v}, (Json.obj fields).getItem key = .ok v → fields.lookup key = some v := by
    intro key v hv
    obtain ⟨_, heq, hl⟩ := Json.getItem_eq_ok hv
    cases heq
    exact hl
  obtain ⟨_, -, h⟩ := bind_eq_ok.mp h
  obtain ⟨_, -, h⟩ := bind_eq_ok.mp h
  obtain ⟨timestamp, htimestamp, h⟩ := bind_eq_ok.mp h
  obtain ⟨seconds, hseconds, h⟩ := bind_eq_ok.mp h
  obtain ⟨n, hn, h⟩ := bind_eq_ok.mp h
  obtain ⟨message, hmessage, h⟩ := bind_eq_ok.mp h
  obtain ⟨_, -, h⟩ := bind_eq_ok.mp h
  obtain ⟨severity, hseverity, h⟩ := bind_eq_ok.mp h
  obtain ⟨_, -, h⟩ := bind_eq_ok.mp h
  obtain ⟨_, -, h⟩ := bind_eq_ok.mp h
  obtain ⟨_, -, h⟩ := bind_eq_ok.mp h
  obtain ⟨metrics, hmetrics, h⟩ := bind_eq_ok.mp h
  cases h
  exact ⟨⟨timestamp, seconds, hlookup htimestamp, hseconds, hn⟩, hlookup hmessage,
    hlookup hseverity, hlookup hmetrics⟩

/-! ## Which messages can be built -/

theorem IsMetric.hasHosts {metric : Json} (h : IsMetric metric) :
    EmailNotifier.HasHosts metric where
  hasDimensions := h.hasDimensions
  texts := by
    obtain ⟨fields, name, dimensions, rfl, -, hdimensions, hstrings⟩ := h
    intro dimensions' hdimensions' field _ v hv
    rw [Json.getItem_obj_of_lookup hdimensions] at hdimensions'
    cases hdimensions'
    obtain ⟨before, after, rfl, -⟩ := List.lookup_eq_some_iff.mp hv
    exact hstrings (field, v) (by simp)

/-- What a plugin needs of an accepted alarm of the normal form. -/
def Plugin.Needs (P : Platform) (R : Rendering) (conf : EmailConf) (fields : List (String × Json))
    (alarmTimestamp : Int) : Plugin → Prop
  | .slack | .hipchat | .webhook | .jira => (fields.lookup "alarmDescription").isSome
  | .pagerduty => True
  | .email => (∃ text, R.asctime alarmTimestamp = .ok text) ∧
      EmailNotifier.Mailable P R conf (.obj fields)

/-- For a notification of an accepted alarm, each plugin gets what it needs or fails. -/
theorem exists_message_iff {n : Notification P} (hraw : n.rawAlarm = .obj fields)
    (hexpected : ∀ field ∈ AlarmProcessor.expectedFields, ∃ v, fields.lookup field = some v)
    (hty : NormallyTyped fields) (plugin : Plugin) :
    (∃ m, plugin.message R conf date n = .ok m) ↔
      plugin.Needs P R conf fields n.alarmTimestamp := by
  have hslots := n.derived
  rw [hraw] at hslots
  obtain ⟨-, hmessage, hseverity, hmetrics⟩ := ofAlarm_slots hslots
  obtain ⟨message, hmessage⟩ := hty.strings _ (by decide) _ hmessage
  obtain ⟨severity, hseverity⟩ := hty.strings _ (by decide) _ hseverity
  obtain ⟨metrics, hmetrics, hne, hall⟩ := hty.metrics _ hmetrics
  have hbody : (∃ body, alarmBody n = .ok body) ↔
      (fields.lookup "alarmDescription").isSome := by
    obtain ⟨definition, hdefinition⟩ := hexpected "alarmDefinitionId" (by decide)
    obtain ⟨oldState, holdState⟩ := hexpected "oldState" (by decide)
    rw [exists_alarmBody hraw, hdefinition, holdState]
    simp
  cases plugin with
  | slack => exact exists_map_eq_ok.trans (SlackNotifier.exists_message.trans hbody)
  | hipchat => exact exists_map_eq_ok.trans ((HipChatNotifier.exists_message hseverity).trans hbody)
  | webhook => exact exists_map_eq_ok.trans hbody
  | jira => exact exists_map_eq_ok.trans (JiraNotifier.exists_message.trans hbody)
  | pagerduty => exact iff_of_true ⟨_, rfl⟩ trivial
  | email =>
    have hmail : (∃ m, EmailNotifier.message R conf date n = .ok m) ↔ _ :=
      EmailNotifier.exists_message_iff hmetrics (fun metric hm => (hall metric hm).hasHosts)
        hmessage
    rw [and_iff_right hne, hraw] at hmail
    exact exists_map_eq_ok.trans hmail

/--
**Which accepted alarms all plugins can report.** For every alarm of the normal form that the
parser accepts and that has `metrics`, and for every row of the method table: the notification
is constructed and every message can be built if and only if the alarm has an
`alarmDescription`, its timestamp has a date, and an e-mail about it can be encoded.
-/
theorem messages_build_iff {value : KafkaValue}
    (hparse : AlarmProcessor.parseAlarm P value = .ok (.obj fields))
    (hmetrics : (fields.lookup "metrics").isSome) (hty : NormallyTyped fields)
    (R : Rendering) (conf : EmailConf) (date : String)
    (id type name address period retryCount : Json) :
    (∃ n, Notification.init P id type name address period retryCount (.obj fields) = .ok n ∧
      ∀ plugin : Plugin, ∃ m, plugin.message R conf date n = .ok m) ↔
    (fields.lookup "alarmDescription").isSome ∧
      (∀ timestamp, fields.lookup "timestamp" = some timestamp → Datable P R timestamp) ∧
        EmailNotifier.Mailable P R conf (.obj fields) := by
  have hexpected := AlarmProcessor.parseAlarm_obj hparse
  obtain ⟨timestamp, htimestamp⟩ := hexpected "timestamp" (by decide)
  constructor
  · rintro ⟨n, hn, hall⟩
    have hraw : n.rawAlarm = .obj fields := by
      obtain ⟨-, -, -, -, -, -, hraw, -⟩ := Notification.init_eq_ok hn
      exact hraw
    have hneeds := fun plugin => (exists_message_iff hraw hexpected hty plugin).mp (hall plugin)
    refine ⟨hneeds .slack, ?_, (hneeds .email).2⟩
    intro timestamp' htimestamp'
    have hslots := n.derived
    rw [hraw] at hslots
    obtain ⟨⟨t, seconds, ht, hseconds, hint⟩, -⟩ := ofAlarm_slots hslots
    rw [htimestamp'] at ht
    cases ht
    obtain ⟨⟨text, htext⟩, -⟩ := hneeds .email
    exact ⟨seconds, n.alarmTimestamp, text, hseconds, hint, htext⟩
  · rintro ⟨hdescription, hdatable, hmailable⟩
    obtain ⟨seconds, k, text, hseconds, hint, htext⟩ := hdatable timestamp htimestamp
    have hfinite : ∃ q, timestamp.divByFloat P 1000 = .ok (.fin q) := by
      cases seconds with
      | fin q => exact ⟨q, hseconds⟩
      | _ => cases hint
    obtain ⟨slots, hslots⟩ :=
      (AlarmProcessor.ofAlarm_obj_iff hexpected htimestamp).mpr ⟨hmetrics, hfinite⟩
    cases hn : Notification.init P id type name address period retryCount (.obj fields) with
    | error x =>
      rw [Notification.init_eq_error, hslots] at hn
      cases hn
    | ok n =>
      refine ⟨n, rfl, fun plugin => ?_⟩
      obtain ⟨-, -, -, -, -, -, hraw, -⟩ := Notification.init_eq_ok hn
      rw [exists_message_iff hraw hexpected hty]
      cases plugin with
      | pagerduty => exact trivial
      | email =>
        have hslots := n.derived
        rw [hraw] at hslots
        obtain ⟨⟨t, seconds', ht, hseconds', hint'⟩, -⟩ := ofAlarm_slots hslots
        rw [htimestamp] at ht
        cases ht
        rw [hseconds] at hseconds'
        cases hseconds'
        rw [hint] at hint'
        cases hint'
        exact ⟨⟨text, htext⟩, hmailable⟩
      | _ => exact hdescription

/-! ## Two alarms -/

/-- The fields of an alarm on one host, which may have a description. -/
def hostAlarm (description : Option String) : List (String × Json) :=
  description.toList.map (fun s => ("alarmDescription", .str s)) ++
    [("tenantId", .str "0"), ("alarmId", .str "1"), ("alarmDefinitionId", .str "2"),
     ("alarmName", .str "test Alarm"), ("oldState", .str "OK"), ("newState", .str "ALARM"),
     ("stateChangeReason", .str "I am alarming!"), ("severity", .str "LOW"), ("link", .str ""),
     ("lifecycleState", .str "OPEN"), ("timestamp", .int 1429023453632),
     ("actionsEnabled", .int 1),
     ("metrics", .arr [.obj [("name", .str "cpu"),
       ("dimensions", .obj [("hostname", .str "foo1"), ("service", .str "bar1")])]])]

def hostAlarmMessage (description : Option String) : KafkaValue :=
  .dumps (.obj [("alarm-transitioned", .obj (hostAlarm description))])

theorem normallyTyped_hostAlarm (description : Option String) :
    NormallyTyped (hostAlarm description) where
  strings := by
    intro field hfield v hv
    simp only [stringFields, List.mem_cons, List.not_mem_nil, or_false] at hfield
    rcases hfield with rfl | rfl | rfl | rfl | rfl | rfl | rfl | rfl | rfl | rfl | rfl
    all_goals
      cases description <;> simp [hostAlarm, List.lookup_cons] at hv <;> exact ⟨_, hv.symm⟩
  timestamp := by
    intro v hv
    have hv' : some (Json.int 1429023453632) = some v := by
      cases description <;> simpa [hostAlarm, List.lookup_cons] using hv
    cases hv'
    exact Or.inl ⟨_, rfl⟩
  metrics := by
    intro v hv
    have hv' : some (Json.arr [.obj [("name", .str "cpu"),
        ("dimensions", .obj [("hostname", .str "foo1"), ("service", .str "bar1")])]]) = some v := by
      cases description <;> simpa [hostAlarm, List.lookup_cons] using hv
    cases hv'
    refine ⟨_, rfl, List.cons_ne_nil _ _, fun metric hmetric => ?_⟩
    obtain rfl := List.mem_singleton.mp hmetric
    refine ⟨_, "cpu", [("hostname", .str "foo1"), ("service", .str "bar1")], rfl, rfl, rfl, ?_⟩
    intro d hd
    rcases List.mem_cons.mp hd with rfl | hd
    · exact ⟨"foo1", rfl⟩
    · obtain rfl := List.mem_singleton.mp hd
      exact ⟨"bar1", rfl⟩

/-- An e-mail configuration without Grafana. -/
def emailConf : EmailConf where
  fromAddr := some "hpcs.mon@hp.com"
  grafanaUrl := none

/-- Nothing in it is beyond ASCII. -/
theorem mailable_described :
    EmailNotifier.Mailable cpython cpythonText emailConf
      (.obj (hostAlarm (some "CPU over 90 %"))) where
  subject := by
    simp only [List.forall_mem_cons]
    refine ⟨?_, ?_, ?_, by simp⟩ <;>
    · intro v hv
      cases hv
      decide +kernel
  fields := by
    simp only [List.forall_mem_cons]
    refine ⟨?_, ?_, ?_, by simp⟩ <;>
    · intro v hv
      cases hv
      decide +kernel
  message := by
    intro v text hv htext
    cases hv
    cases htext
    decide +kernel
  metrics := by
    intro metrics hmetrics
    cases hmetrics
    constructor
    · decide +kernel
    · intro metric hmetric dimensions hdimensions
      obtain rfl := List.mem_singleton.mp hmetric
      cases hdimensions
      have hall : ∀ item ∈ [("hostname", Json.str "foo1"), ("service", .str "bar1")],
          cpythonText.Escapable item.1 ∧ cpythonText.Escapable (item.2.toStr cpython) := by
        decide +kernel
      exact hall
    · exact fun _ _ => nofun

/-- With a description, the notification and all the messages are built. -/
theorem messages_build_described :
    ∃ n, Notification.init cpython (.str "1") (.str "slack") (.str "name") (.str "address")
        (.int 0) (.int 0) (.obj (hostAlarm (some "CPU over 90 %"))) = .ok n ∧
      ∀ plugin : Plugin, ∃ m, plugin.message cpythonText emailConf
        "Tue, 14 Apr 2015 14:57:33 +0000" n = .ok m := by
  have hparse : AlarmProcessor.parseAlarm cpython (hostAlarmMessage (some "CPU over 90 %")) =
      .ok (.obj (hostAlarm (some "CPU over 90 %"))) := by decide +kernel
  refine (messages_build_iff hparse (by decide) (normallyTyped_hostAlarm _) cpythonText emailConf
    "Tue, 14 Apr 2015 14:57:33 +0000" _ _ _ _ _ _).mpr ⟨by decide, ?_, mailable_described⟩
  intro timestamp htimestamp
  cases htimestamp
  exact ⟨.fin (374609924228907 / 262144), 1429023453, "Tue Apr 14 14:57:33 2015", by decide +kernel,
    by decide +kernel, by decide +kernel⟩

/-- An accepted alarm without a description, from which the Slack plugin builds no message. -/
theorem accepted_alarm_unreported :
    ∃ (value : KafkaValue) (fields : List (String × Json)) (n : Notification cpython),
      AlarmProcessor.parseAlarm cpython value = .ok (.obj fields) ∧
      (fields.lookup "metrics").isSome ∧ NormallyTyped fields ∧
      Notification.init cpython (.str "1") (.str "slack") (.str "name") (.str "address")
        (.int 0) (.int 0) (.obj fields) = .ok n ∧
      Plugin.slack.message cpythonText emailConf "Tue, 14 Apr 2015 14:57:33 +0000" n =
        .error (.keyError "alarmDescription") := by
  have hinit : ((Notification.init cpython (.str "1") (.str "slack") (.str "name")
      (.str "address") (.int 0) (.int 0) (.obj (hostAlarm none))).bind fun n =>
        Plugin.slack.message cpythonText emailConf "Tue, 14 Apr 2015 14:57:33 +0000" n) =
      .error (.keyError "alarmDescription") := by decide +kernel
  cases hn : Notification.init cpython (.str "1") (.str "slack") (.str "name") (.str "address")
      (.int 0) (.int 0) (.obj (hostAlarm none)) with
  | error x =>
    have hslots : (AlarmSlots.ofAlarm cpython (.obj (hostAlarm none))).isOk = true := by
      decide +kernel
    rw [Notification.init_eq_error.mp hn] at hslots
    cases hslots
  | ok n =>
    rw [hn] at hinit
    exact ⟨hostAlarmMessage none, hostAlarm none, n, by decide +kernel, by decide,
      normallyTyped_hostAlarm none, hn, hinit⟩

/-! ## An e-mail about any metrics -/

def alarmWith (metrics : List Json) : List (String × Json) :=
  [("tenantId", .str "0"), ("alarmId", .str "1"), ("alarmDefinitionId", .str "2"),
   ("alarmName", .str "test Alarm"), ("oldState", .str "OK"), ("newState", .str "ALARM"),
   ("stateChangeReason", .str "I am alarming!"), ("severity", .str "LOW"), ("link", .str ""),
   ("lifecycleState", .str "OPEN"), ("timestamp", .int 1429023453632), ("metrics", .arr metrics)]

theorem ofAlarm_alarmWith (metrics : List Json) :
    AlarmSlots.ofAlarm cpython (.obj (alarmWith metrics)) = .ok
      { alarmId := .str "1", alarmName := .str "test Alarm", alarmTimestamp := 1429023453
        message := .str "I am alarming!", state := .str "ALARM", severity := .str "LOW"
        link := .str "", lifecycleState := .str "OPEN", tenantId := .str "0"
        metrics := .arr metrics } := by
  have htimestamp : (Json.int 1429023453632).divByFloat cpython 1000 =
      .ok (.fin (374609924228907 / 262144)) := by decide +kernel
  have hseconds : (PyFloat.fin (374609924228907 / 262144)).toInt = .ok 1429023453 := by
    decide +kernel
  simp [AlarmSlots.ofAlarm, alarmWith, Json.getItem, List.lookup_cons, htimestamp, hseconds]

/-- A metric of one host, perhaps with a target. -/
def hostMetric (host : String) (target : Option String) : Json :=
  .obj [("name", .str "cpu"), ("dimensions", .obj (("hostname", .str host) ::
    target.toList.map fun t => ("target_host", .str t)))]

theorem hasDimensions_hostMetric (host : String) (target : Option String) :
    HasDimensions (hostMetric host target) := ⟨⟨_, rfl⟩, _, rfl⟩

theorem hasHosts_hostMetric (host : String) (target : Option String) :
    EmailNotifier.HasHosts (hostMetric host target) := by
  refine ⟨hasDimensions_hostMetric host target, fun dimensions hdimensions field hfield v hv => ?_⟩
  have hobj : Json.obj _ = Json.obj dimensions := Except.ok.inj hdimensions
  obtain rfl := Json.obj.inj hobj
  rcases List.mem_cons.mp hfield with rfl | hfield
  · exact ⟨host, Option.some.inj hv.symm⟩
  · obtain rfl := List.mem_singleton.mp hfield
    cases target with
    | none => cases hv
    | some target => exact ⟨target, Option.some.inj hv.symm⟩

/-- A notification by e-mail about these metrics. -/
def mailAbout (metrics : List Json) : Notification cpython where
  alarmId := .str "1"
  alarmName := .str "test Alarm"
  alarmTimestamp := 1429023453
  message := .str "I am alarming!"
  state := .str "ALARM"
  severity := .str "LOW"
  link := .str ""
  lifecycleState := .str "OPEN"
  tenantId := .str "0"
  metrics := .arr metrics
  id := .str "10"
  type := .str "email"
  name := .str "email notification"
  address := .str "me@here.com"
  period := .int 0
  retryCount := .int 0
  notificationTimestamp := .null
  rawAlarm := .obj (alarmWith metrics)
  derived := ofAlarm_alarmWith metrics

/-- Metrics of one host, with a name in ASCII. -/
theorem mailable_mailAbout {metrics : List Json} {host : String} (hhost : IsAscii host)
    (hall : ∀ metric ∈ metrics, metric = hostMetric host none)
    (hnamed : ∀ host ∈ (EmailNotifier.kindOf metrics).named, cpythonText.Encodable host) :
    EmailNotifier.Mailable cpython cpythonText emailConf (mailAbout metrics).rawAlarm := by
  have hsubject : ∀ v ∈ [Json.str "ALARM", .str "LOW", .str "test Alarm"],
      cpythonText.Encodable (v.toStr cpython) := by decide +kernel
  have hfields : ∀ v ∈ [Json.str "1", .str "", .str "OPEN"],
      cpythonText.Escapable (v.toStr cpython) := by decide +kernel
  have hname : IsAscii "hostname" := by decide
  refine (EmailNotifier.mailable_iff rfl).mpr ⟨hsubject, hfields, fun text htext => ?_, hnamed,
    fun metric hmetric dimensions hdimensions => ?_, fun _ _ => nofun⟩
  · cases htext
    decide +kernel
  · rw [hall metric hmetric] at hdimensions
    cases hdimensions
    intro item hitem
    obtain rfl := List.mem_singleton.mp hitem
    exact ⟨cpythonText.escapable_of_isAscii hname, cpythonText.escapable_of_isAscii hhost⟩

end MonascaNotification
