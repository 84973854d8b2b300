import MonascaNotification.Model.Notification

/-!
# The messages of `plugins/`

What each plugin builds from a notification before it contacts its service, in the format that
is used when no template is configured. The builders run outside of the handlers that the
plugins have around the contact itself.
-/

namespace MonascaNotification

variable {P : Platform} (R : Rendering)

/-! ## The document about an alarm -/

/-- The `body` that the Slack, HipChat, webhook and Jira plugins build, each for itself. -/
def alarmBody (n : Notification P) : Except PyExn Json := do
  let alarmDefinitionId ← n.rawAlarm.getItem "alarmDefinitionId"
  let alarmDescription ← n.rawAlarm.getItem "alarmDescription"
  let oldState ← n.rawAlarm.getItem "oldState"
  return .obj
    [("alarm_id", n.alarmId),
     ("alarm_definition_id", alarmDefinitionId),
     ("alarm_name", n.alarmName),
     ("alarm_description", alarmDescription),
     ("alarm_timestamp", .int n.alarmTimestamp),
     ("state", n.state),
     ("old_state", oldState),
     ("message", n.message),
     ("tenant_id", n.tenantId),
     ("metrics", n.metrics)]

/-- `SlackNotifier._build_slack_message`. -/
def SlackNotifier.buildSlackMessage (n : Notification P) : Except PyExn Json := do
  let body ← alarmBody n
  return .obj [("text", .str (R.dumps body))]

/-! ## HipChat -/

namespace HipChatNotifier

def severityColors : List (String × String) :=
  [("low", "green"), ("medium", "gray"), ("high", "yellow"), ("critical", "red")]

/-- `HipChatNotifier._get_color`. -/
def getColor (severity : String) : String := (severityColors.lookup severity).getD "purple"

/-- `HipChatNotifier._build_hipchat_message`. -/
def buildHipchatMessage (n : Notification P) : Except PyExn Json := do
  let body ← alarmBody n
  let severity ← n.severity.lowered P
  return .obj
    [("color", .str (getColor severity)),
     ("message_format", .str "text"),
     ("message", .str (R.dumps body))]

end HipChatNotifier

/-! ## Webhook and PagerDuty -/

/-- The `body` of `WebhookNotifier.send_notification`. -/
def WebhookNotifier.body (n : Notification P) : Except PyExn Json := alarmBody n

/-- The `body` of `PagerdutyNotifier.send_notification`, which reads no field of the alarm. -/
def PagerdutyNotifier.body (n : Notification P) : Except PyExn Json :=
  .ok (.obj
    [("service_key", n.address),
     ("event_type", .str "trigger"),
     ("description", n.message),
     ("client", .str "Monasca"),
     ("client_url", .str ""),
     ("details", .obj
       [("alarm_id", n.alarmId),
        ("alarm_name", n.alarmName),
        ("current", n.state),
        ("message", n.message)])])

/-! ## Jira -/

/-- The fields of an issue that the default format fills. -/
structure JiraFields where
  summary : String
  comments : String
  description : String
  deriving DecidableEq

namespace JiraNotifier

/-- `summary_format_string.format(alarm_name, state, alarm_id)` -/
def summary (n : Notification P) : String :=
  "Monasca alarm for alarm_defintion " ++ n.alarmName.toStr P ++ " status changed to " ++
    n.state.toStr P ++ " for the alarm_id " ++ n.alarmId.toStr P

/-- `JiraNotifier._build_default_jira_message`. -/
def buildDefaultJiraMessage (n : Notification P) : Except PyExn JiraFields := do
  let body ← alarmBody n
  return { summary := summary n
           comments := "{code}" ++ R.dumps body ++ "{code}"
           description := "Monasca alarm" }

end JiraNotifier

/-! ## E-mail -/

/-- The options of the e-mail plugin that a message depends on. -/
structure EmailConf where
  fromAddr : Option String
  grafanaUrl : Option String

structure EmailMessage where
  text : String
  subject : String
  sender : Option String
  recipient : Json
  date : String
  deriving DecidableEq

namespace EmailNotifier

variable (P) in
/-- `if field in dimap and not dimap[field] in found: found.append(dimap[field])` -/
def addHost (field : String) (dimap : Json) (found : List Json) : Except PyExn (List Json) := do
  if !(← dimap.contains field) then
    return found
  let host ← dimap.getItem field
  return if found.any host.pyEq then found else found ++ [host]

/-- The loop of `send_notification` over the metrics, with `hostname` and `targethost`. -/
def collectHosts (hostname targethost : List Json) :
    List Json → Except PyExn (List Json × List Json)
  | [] => .ok (hostname, targethost)
  | metric :: rest => do
    let dimap ← metric.getItem "dimensions"
    let hostname ← addHost "hostname" dimap hostname
    let targethost ← addHost "target_host" dimap targethost
    collectHosts hostname targethost rest

variable (P) in
/-- `EmailNotifier._get_link_url`. -/
def getLinkUrl (conf : EmailConf) (metric : Json) (timestampMs : Int) :
    Except PyExn (Option String) :=
  match conf.grafanaUrl with
  | none => .ok none
  | some grafanaUrl => do
    let name ← metric.getItem "name"
    let dimensions ← metric.getItem "dimensions"
    let items ← dimensions.items
    let metricQuery := items.foldl
      (fun query item => query ++ "&" ++ item.1 ++ "=" ++ item.2.toStr P)
      ("?metric=" ++ name.toStr P)
    -- ten minutes before and after the alarm occurred
    let offset : Int := 600000
    let timeQuery := "&from=" ++ toString (timestampMs - offset) ++
      "&to=" ++ toString (timestampMs + offset)
    return some (grafanaUrl ++ "/dashboard/script/drilldown.js" ++ metricQuery ++ timeQuery)

variable (P) in
/-- One dimension set, as `_format_dimensions` writes it. -/
def formatDimensionSet (dimensionSet : Json) : Except PyExn String := do
  let items ← dimensionSet.items
  let keyValuePairs := items.map fun item => "    " ++ item.1 ++ ": " ++ item.2.toStr P
  return "  \x7b\n" ++ ",\n".intercalate keyValuePairs ++ "\n  \x7d"

/-- `_format_dimensions`. -/
def formatDimensions (n : Notification P) : Except PyExn String := do
  let metrics ← n.metrics.iterate
  let dimensionSets ← metrics.mapM fun metric => metric.getItem "dimensions"
  let dimSetStrings ← dimensionSets.mapM (formatDimensionSet P)
  return "[\n" ++ ",\n".intercalate dimSetStrings ++ " \n]"

/-- What the three templates are filled with, beside the hosts. -/
structure Values where
  message : String
  alarmName : String
  state : String
  timestamp : String
  alarmId : String
  metricDimensions : String
  link : String
  grafanaUrl : String
  lifecycleState : String

/-- The common form of the templates. They differ in the first line and in two labels. -/
def template (firstLine idLabel dimensionsLabel : String) (v : Values) : String :=
  firstLine ++ v.message ++ "\n\n" ++
  "Alarm \"" ++ v.alarmName ++ "\" transitioned to the " ++ v.state ++ " state at " ++
    v.timestamp ++ " UTC\n" ++
  idLabel ++ v.alarmId ++ "\n\n" ++
  "Lifecycle state: " ++ v.lifecycleState ++ "\n" ++
  "Link: " ++ v.link ++ "\n" ++
  "Link to Grafana: " ++ v.grafanaUrl ++ "\n\n" ++
  dimensionsLabel ++ "\n" ++
  v.metricDimensions

def emailSingleHostBase (hostname targetHost : String) : Values → String :=
  template ("On host \"" ++ hostname ++ "\" for target \"" ++ targetHost ++ "\" ") "alarm_id: "
    "With dimensions:"

def emailMultipleHostBase (hostname : String) : Values → String :=
  template ("On host \"" ++ hostname ++ "\" ") "alarm_id: " "With dimensions:"

def emailNoHostBase : Values → String :=
  template "On multiple hosts " "Alarm_id: " "With dimensions"

/-- The texts of `_create_msg`, with the `Date` that `formatdate` gives. -/
def composeMsg (conf : EmailConf) (date : String) (hostname : List Json) (n : Notification P)
    (targethost : List Json) : Except PyExn EmailMessage := do
  let timestamp ← R.asctime n.alarmTimestamp
  let alarmMs := n.alarmTimestamp * 1000
  let metric ← n.metrics.first
  let grafUrl ← getLinkUrl P conf metric alarmMs
  let metricDimensions ← formatDimensions n
  let message ← n.message.lowered P
  let values : Values :=
    { message, timestamp, metricDimensions
      alarmName := n.alarmName.toStr P
      state := n.state.toStr P
      alarmId := n.alarmId.toStr P
      link := n.link.toStr P
      grafanaUrl := grafUrl.getD "None"
      lifecycleState := n.lifecycleState.toStr P }
  let subject := n.state.toStr P ++ " " ++ n.severity.toStr P ++ " \"" ++ n.alarmName.toStr P ++
    "\" "
  let (text, subject) :=
    match hostname, targethost with
    | [host], target :: _ =>
      (emailSingleHostBase (host.toStr P) (target.toStr P) values,
        subject ++ "for Host: " ++ host.toStr P ++ " Target: " ++ target.toStr P)
    | [host], [] =>
      (emailMultipleHostBase (host.toStr P) values, subject ++ "for Host: " ++ host.toStr P)
    | _, _ => (emailNoHostBase values, subject)
  return { text, subject, date, sender := conf.fromAddr, recipient := n.address }

/-- `EmailNotifier._create_msg`. -/
def createMsg (conf : EmailConf) (date : String) (hostname : List Json) (n : Notification P)
    (targethost : List Json) : Except PyExn EmailMessage := do
  let msg ← composeMsg R conf date hostname n targethost
  R.mimeText msg.text
  R.header msg.subject
  return msg

/-- The e-mail as `_create_msg` writes it, before its texts are encoded. -/
def composed (conf : EmailConf) (date : String) (n : Notification P) :
    Except PyExn EmailMessage := do
  let metrics ← n.metrics.iterate
  let (hostname, targethost) ← collectHosts [] [] metrics
  composeMsg R conf date hostname n targethost

/-- The part of `EmailNotifier.send_notification` before it contacts the server. -/
def message (conf : EmailConf) (date : String) (n : Notification P) :
    Except PyExn EmailMessage := do
  let metrics ← n.metrics.iterate
  let (hostname, targethost) ← collectHosts [] [] metrics
  createMsg R conf date hostname n targethost

end EmailNotifier

/-! ## All of them -/

inductive Plugin where
  | slack
  | hipchat
  | webhook
  | jira
  | pagerduty
  | email
  deriving DecidableEq

/-- What a plugin hands to its service. -/
inductive Message where
  | document (body : Json)
  | issue (fields : JiraFields)
  | mail (message : EmailMessage)
  deriving DecidableEq

/-- The message that a plugin builds for a notification. -/
def Plugin.message (conf : EmailConf) (date : String) (n : Notification P) :
    Plugin → Except PyExn Message
  | .slack => (SlackNotifier.buildSlackMessage R n).map .document
  | .hipchat => (HipChatNotifier.buildHipchatMessage R n).map .document
  | .webhook => (WebhookNotifier.body n).map .document
  | .jira => (JiraNotifier.buildDefaultJiraMessage R n).map .issue
  | .pagerduty => (PagerdutyNotifier.body n).map .document
  | .email => (EmailNotifier.message R conf date n).map .mail

end MonascaNotification
