import MonascaNotification.Infra.Prog
import MonascaNotification.Model.Plugins
import MonascaNotification.Python.Url

/-!
# `plugins/jira_notifier.py`

`JiraNotifier.send_notification` as a program over the calls of the Jira client. Everything
from the connection on stands inside one `try`, so each of the calls may raise, and the result
is then `False`.

A custom format replaces the default one as a whole. It may have no comments, and then none is
added.
-/

namespace MonascaNotification.JiraNotifier

open Infra

/-! ## The client -/

/--
The options of the group `jira_notifier` for the client. The user is the account of the plugin: the
reporter of its issues, and the one it searches for.
-/
structure Conf where
  user : String
  password : Option String
  proxy : Option String

/-- An issue object: which issue it is, and its status when it was fetched. -/
structure Issue where
  key : Nat
  status : String
  deriving DecidableEq

structure Transition where
  id : String
  name : String
  deriving DecidableEq

/-- `issue_dict`. -/
structure IssueDict where
  project : String
  summary : String
  description : String
  issuetype : String
  components : List String
  deriving DecidableEq

/-- What is filled into `"project={} and reporter='{}' and summary ~ '{}'"`. -/
structure SearchQuery where
  project : String
  reporter : String
  text : String
  deriving DecidableEq

inductive JiraCall where
  | connect (url : String) (auth : String × Option String) (proxies : Option String)
  | searchIssues (query : SearchQuery)
  | createIssue (fields : IssueDict)
  | transitions (issue : Issue)
  | transitionIssue (issue : Issue) (transition : String)
  | addComment (issue : Issue) (body : String)
  deriving DecidableEq

@[reducible] def JiraCall.Answer : JiraCall → Type
  | .connect _ _ _ => Except PyExn Unit
  | .searchIssues _ => Except PyExn (List Issue)
  | .createIssue _ => Except PyExn Issue
  | .transitions _ => Except PyExn (List Transition)
  | .transitionIssue _ _ => Except PyExn Unit
  | .addComment _ _ => Except PyExn Unit

/-- A function that calls Jira. -/
abbrev JiraPy (α : Type) := Prog JiraCall JiraCall.Answer PyExn α

abbrev JiraTrace := Trace JiraCall JiraCall.Answer

/-- `jira.JIRA(url, basic_auth=auth, proxies=proxy_dict)` -/
def connect (conf : Conf) (url : String) : JiraPy Unit :=
  .perform (.connect url (conf.user, conf.password) conf.proxy) fun (answer : Except PyExn Unit) =>
    .ofExcept answer

def searchIssues (query : SearchQuery) : JiraPy (List Issue) :=
  .perform (.searchIssues query) fun (answer : Except PyExn (List Issue)) => .ofExcept answer

def createIssue (fields : IssueDict) : JiraPy Issue :=
  .perform (.createIssue fields) fun (answer : Except PyExn Issue) => .ofExcept answer

def transitions (issue : Issue) : JiraPy (List Transition) :=
  .perform (.transitions issue) fun (answer : Except PyExn (List Transition)) => .ofExcept answer

def transitionIssue (issue : Issue) (transition : String) : JiraPy Unit :=
  .perform (.transitionIssue issue transition) fun (answer : Except PyExn Unit) =>
    .ofExcept answer

def addComment (issue : Issue) (body : String) : JiraPy Unit :=
  .perform (.addComment issue body) fun (answer : Except PyExn Unit) => .ofExcept answer

/-! ## `_build_jira_message` -/

/-- `jira_fields` as the message is built. A custom format may leave fields out. -/
structure Fields where
  summary : Option String
  comments : Option String
  description : Option String
  deriving DecidableEq

/--
The option `custom_formatter`, and what `jinja2` makes of a template. The file is read for each
notification, and taken to stay as it is.
-/
structure CustomFormat (P : Platform) where
  /-- `open`, then `yaml.safe_load`, with those values of YAML that JSON has. -/
  file : Except PyExn Json
  /-- `Template(source).render(notification=notification)` -/
  render : Json → Notification P → Except PyExn String

section

variable {P : Platform}

/-- `_get_jira_custom_format_fields`, which removes the top element. -/
def CustomFormat.fields (format : CustomFormat P) : Except PyExn Json := do
  (← format.file).getItem "jira_format"

/-- `jira_fields_format.get(field, None)`, rendered if there is something. -/
def CustomFormat.renderField (format : CustomFormat P) (formatFields : Json) (n : Notification P)
    (field : String) : Except PyExn (Option String) :=
  match formatFields with
  | .obj entries =>
    match entries.lookup field with
    | some source => if source.truthy then (format.render source n).map some else .ok none
    | none => .ok none
  | _ => .error .attributeError

/-- `_build_custom_jira_message`. -/
def buildCustomJiraMessage (format : CustomFormat P) (n : Notification P) :
    Except PyExn Fields := do
  let formatFields ← format.fields
  let summary ← format.renderField formatFields n "summary"
  let comments ← format.renderField formatFields n "comments"
  let description ← format.renderField formatFields n "description"
  return { summary, comments, description }

/-- The dict of the default format, which has all of them. -/
def defaultFields (fields : JiraFields) : Fields :=
  ⟨some fields.summary, some fields.comments, some fields.description⟩

/-- `_build_jira_message`. -/
def buildJiraMessage (format : Option (CustomFormat P)) (R : Rendering) (n : Notification P) :
    Except PyExn Fields :=
  match format with
  | some format => buildCustomJiraMessage format n
  | none => (buildDefaultJiraMessage R n).map defaultFields

/-- The fields as `jira_workflow` takes them. Comments that are left out count as empty. -/
def Fields.given (fields : Fields) : Except PyExn JiraFields :=
  match fields.summary, fields.description with
  | some summary, some description =>
    .ok { summary, comments := fields.comments.getD "", description }
  | none, _ => .error (.keyError "summary")
  | some _, none => .error (.keyError "description")

end

/-! ## `jira_workflow` -/

/-- What is read out of the address. -/
structure Target where
  url : String
  project : String
  component : Option String

/-- `jira_fields`, with the id of the alarm as it stands in the search. -/
structure Request extends Target where
  fields : JiraFields
  alarmId : String

def Request.issueDict (request : Request) : IssueDict where
  project := request.project
  summary := request.fields.summary
  description := request.fields.description
  issuetype := "Bug"
  -- an empty name counts as none
  components := request.component.toList.filter (· ≠ "")

def Request.query (request : Request) (conf : Conf) : SearchQuery where
  project := request.project
  reporter := conf.user
  text := request.alarmId

variable (P : Platform) (conf : Conf)

/-- `current_state.lower() in ["resolved", "closed"]` -/
def IsClosed (status : String) : Prop := P.lower status = "resolved" ∨ P.lower status = "closed"

/-- `"reopen" in t['name'].lower()` -/
def IsReopening (t : Transition) : Prop := "reopen".toList <:+: (P.lower t.name).toList

instance (status : String) : Decidable (IsClosed P status) := inferInstanceAs (Decidable (_ ∨ _))

instance (t : Transition) : Decidable (IsReopening P t) :=
  inferInstanceAs (Decidable (_ <:+: _))

/-- Open the issue, if there is an allowed transition. -/
def reopen (issue : Issue) : JiraPy Unit := do
  let transitions ← transitions issue
  match transitions.filter fun t => decide (IsReopening P t) with
  | t :: _ => transitionIssue issue t.id
  | [] => return ()

/-- The issue for the comment: the first one that is found, or a new one. -/
def findIssue (request : Request) : JiraPy Issue := do
  let issueList ← searchIssues (request.query conf)
  match issueList with
  | [] => createIssue request.issueDict
  | issue :: _ =>
    if IsClosed P issue.status then
      reopen P issue
    return issue

/-- `JiraNotifier.jira_workflow`. -/
def jiraWorkflow (request : Request) : JiraPy Unit := do
  let issue ← findIssue P conf request
  if request.fields.comments ≠ "" then
    addComment issue request.fields.comments

/-! ## `send_notification` -/

/-- `query_params["project"][0]` -/
def firstProject (params : QueryParams) : Except PyExn String :=
  match params.lookup "project" with
  | some (project :: _) => .ok project
  | some [] => .error .indexError
  | none => .error (.keyError "project")

variable {P}

/-- `notification.address`, taken apart. -/
def target (U : Urllib) (n : Notification P) : Except PyExn Target := do
  let address ← addressText n.address
  let query ← U.query address
  let queryParams := U.parseQs query
  let url ← U.withoutQuery address
  let project ← firstProject queryParams
  return { url, project, component := (queryParams.lookup "component").bind List.head? }

/-- `JiraNotifier.send_notification`. -/
def sendNotification (format : Option (CustomFormat P)) (R : Rendering) (U : Urllib)
    (n : Notification P) : JiraPy Bool := do
  let jiraFields ← .ofExcept (buildJiraMessage format R n)
  let target ← .ofExcept (target U n)
  Prog.tryCatch
    (do
      connect conf target.url
      let fields ← .ofExcept jiraFields.given
      jiraWorkflow P conf { target with fields, alarmId := n.alarmId.toStr P }
      return true)
    (fun _ => return false)

end MonascaNotification.JiraNotifier
