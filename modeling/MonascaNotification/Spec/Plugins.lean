import MonascaNotification.Infra.Except
import MonascaNotification.Model.Plugins

/-!
# When a message can be built

For each builder of `Model/Plugins.lean`, the notifications it succeeds on. The document about
an alarm needs three fields that the constructor of the notification does not read; the e-mail
needs a timestamp that can be written as a date.
-/

namespace MonascaNotification

open Infra

variable {P : Platform} {R : Rendering} {conf : EmailConf} {date : String} {n : Notification P}

theorem Json.exists_getItem_obj {fields : List (String × Json)} {key : String} :
    (∃ v, (Json.obj fields).getItem key = .ok v) ↔ (fields.lookup key).isSome := by
  rw [Json.getItem]
  cases fields.lookup key <;> simp

/-! ## Documents -/

/-- The `body` needs the fields that it takes from the raw alarm. -/
theorem exists_alarmBody {fields : List (String × Json)} (h : n.rawAlarm = .obj fields) :
    (∃ body, alarmBody n = .ok body) ↔ (fields.lookup "alarmDefinitionId").isSome ∧
      (fields.lookup "alarmDescription").isSome ∧ (fields.lookup "oldState").isSome := by
  rw [alarmBody, h, exists_bind_eq_ok, ← Json.exists_getItem_obj, ← Json.exists_getItem_obj,
    ← Json.exists_getItem_obj]
  constructor
  · rintro ⟨definition, hdefinition, hrest⟩
    obtain ⟨description, hdescription, hrest⟩ := exists_bind_eq_ok.mp hrest
    obtain ⟨oldState, holdState, -⟩ := exists_bind_eq_ok.mp hrest
    exact ⟨⟨definition, hdefinition⟩, ⟨description, hdescription⟩, ⟨oldState, holdState⟩⟩
  · rintro ⟨⟨definition, hdefinition⟩, ⟨description, hdescription⟩, ⟨oldState, holdState⟩⟩
    refine ⟨definition, hdefinition, ?_⟩
    rw [hdescription, holdState]
    exact ⟨_, rfl⟩

theorem SlackNotifier.exists_message :
    (∃ message, buildSlackMessage R n = .ok message) ↔ ∃ body, alarmBody n = .ok body := by
  rw [buildSlackMessage, exists_bind_eq_ok]
  constructor
  · rintro ⟨body, hbody, -⟩
    exact ⟨body, hbody⟩
  · rintro ⟨body, hbody⟩
    exact ⟨body, hbody, _, rfl⟩

theorem HipChatNotifier.exists_message {severity : String} (h : n.severity = .str severity) :
    (∃ message, buildHipchatMessage R n = .ok message) ↔ ∃ body, alarmBody n = .ok body := by
  rw [buildHipchatMessage, exists_bind_eq_ok, h]
  constructor
  · rintro ⟨body, hbody, -⟩
    exact ⟨body, hbody⟩
  · rintro ⟨body, hbody⟩
    exact ⟨body, hbody, _, rfl⟩

theorem JiraNotifier.exists_message :
    (∃ message, buildDefaultJiraMessage R n = .ok message) ↔ ∃ body, alarmBody n = .ok body := by
  rw [buildDefaultJiraMessage, exists_bind_eq_ok]
  constructor
  · rintro ⟨body, hbody, -⟩
    exact ⟨body, hbody⟩
  · rintro ⟨body, hbody⟩
    exact ⟨body, hbody, _, rfl⟩

/-! ## E-mail -/

/-- A metric with its name, and with dimensions that are strings. -/
def IsMetric (metric : Json) : Prop :=
  ∃ (fields : List (String × Json)) (name : String) (dimensions : List (String × Json)),
    metric = .obj fields ∧ fields.lookup "name" = some (.str name) ∧
      fields.lookup "dimensions" = some (.obj dimensions) ∧ ∀ d ∈ dimensions, ∃ s, d.2 = .str s

/-- A metric with a name and a dict of dimensions, whatever their values. -/
def HasDimensions (metric : Json) : Prop :=
  (∃ name, metric.getItem "name" = .ok name) ∧
    ∃ dimensions, metric.getItem "dimensions" = .ok (.obj dimensions)

theorem IsMetric.hasDimensions {metric : Json} (h : IsMetric metric) : HasDimensions metric := by
  obtain ⟨fields, name, dimensions, rfl, hname, hdimensions, -⟩ := h
  exact ⟨⟨_, Json.getItem_obj_of_lookup hname⟩, _, Json.getItem_obj_of_lookup hdimensions⟩

namespace EmailNotifier

theorem exists_addHost (field : String) (dimensions : List (String × Json)) (found : List Json) :
    ∃ found', addHost field (.obj dimensions) found = .ok found' := by
  rw [addHost]
  show ∃ found', (if (!(dimensions.lookup field).isSome) = true then _ else _) = Except.ok found'
  split
  · exact ⟨found, rfl⟩
  · next h =>
    rw [Bool.not_eq_true, Bool.not_eq_false'] at h
    obtain ⟨host, hhost⟩ := Json.exists_getItem_obj.mpr h
    rw [hhost]
    exact ⟨_, rfl⟩

theorem exists_collectHosts {metrics : List Json} (h : ∀ metric ∈ metrics, HasDimensions metric)
    (hostname targethost : List Json) :
    ∃ hosts, collectHosts hostname targethost metrics = .ok hosts := by
  induction metrics generalizing hostname targethost with
  | nil => exact ⟨_, rfl⟩
  | cons metric metrics ih =>
    obtain ⟨dimensions, hdimensions⟩ := (h metric List.mem_cons_self).2
    obtain ⟨hostname', hhost⟩ := exists_addHost "hostname" dimensions hostname
    obtain ⟨targethost', htarget⟩ := exists_addHost "target_host" dimensions targethost
    rw [collectHosts, hdimensions, ok_bind, hhost, ok_bind, htarget, ok_bind]
    exact ih (fun m hm => h m (List.mem_cons_of_mem _ hm)) hostname' targethost'

theorem exists_getLinkUrl {metric : Json} (h : HasDimensions metric) (timestampMs : Int) :
    ∃ url, getLinkUrl P conf metric timestampMs = .ok url := by
  obtain ⟨⟨name, hname⟩, dimensions, hdimensions⟩ := h
  rw [getLinkUrl]
  split
  · exact ⟨none, rfl⟩
  · rw [hname, hdimensions]
    exact ⟨_, rfl⟩

theorem exists_formatDimensions {metrics : List Json} (hmetrics : n.metrics = .arr metrics)
    (h : ∀ metric ∈ metrics, HasDimensions metric) : ∃ text, formatDimensions n = .ok text := by
  rw [formatDimensions, hmetrics]
  have hsets : ∃ sets, metrics.mapM (fun metric => metric.getItem "dimensions") = .ok sets :=
    exists_mapM_eq_ok fun metric hm =>
      let ⟨dimensions, hd⟩ := (h metric hm).2
      ⟨_, hd⟩
  obtain ⟨sets, hsets⟩ := hsets
  have hstrings : ∃ strings, sets.mapM (formatDimensionSet P) = .ok strings := by
    refine exists_mapM_eq_ok fun set hset => ?_
    obtain ⟨metric, hm, hitem⟩ := exists_mem_of_mapM_eq_ok hsets hset
    obtain ⟨dimensions, hd⟩ := (h metric hm).2
    rw [hd] at hitem
    cases hitem
    exact ⟨_, rfl⟩
  obtain ⟨strings, hstrings⟩ := hstrings
  show ∃ text, (do
    let sets ← metrics.mapM (fun metric => metric.getItem "dimensions")
    let strings ← sets.mapM (formatDimensionSet P)
    return "[\n" ++ ",\n".intercalate strings ++ " \n]") = Except.ok text
  rw [hsets, ok_bind, hstrings]
  exact ⟨_, rfl⟩

/-- The metrics have the form that the plugin reads, so that only the date can fail. -/
theorem exists_composed {metrics : List Json} {message : String}
    (hmetrics : n.metrics = .arr metrics) (hne : metrics ≠ [])
    (h : ∀ metric ∈ metrics, HasDimensions metric) (hmessage : n.message = .str message) :
    (∃ m, composed R conf date n = .ok m) ↔
      ∃ text, R.asctime n.alarmTimestamp = .ok text := by
  obtain ⟨⟨hostname, targethost⟩, hhosts⟩ := exists_collectHosts h [] []
  obtain ⟨metric, rest, rfl⟩ := List.exists_cons_of_ne_nil hne
  have hlink : ∃ url, getLinkUrl P conf metric (n.alarmTimestamp * 1000) = .ok url :=
    exists_getLinkUrl (h metric List.mem_cons_self) _
  obtain ⟨url, hurl⟩ := hlink
  obtain ⟨dimensions, hdimensions⟩ := exists_formatDimensions hmetrics h
  rw [composed, hmetrics]
  show (∃ m, (collectHosts [] [] (metric :: rest) >>= _) = Except.ok m) ↔ _
  rw [hhosts, ok_bind]
  simp only [composeMsg]
  rw [exists_bind_eq_ok]
  refine exists_congr fun text => and_iff_left ?_
  rw [hmetrics, hmessage, hdimensions]
  show ∃ m, (getLinkUrl P conf metric (n.alarmTimestamp * 1000) >>= _) = Except.ok m
  rw [hurl]
  exact ⟨_, rfl⟩

end EmailNotifier

end MonascaNotification
