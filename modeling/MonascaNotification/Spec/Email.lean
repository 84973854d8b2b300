import MonascaNotification.Infra.Cache
import MonascaNotification.Spec.Plugins

/-!
# The hosts in an e-mail

`hosts field metrics` are the values of a dimension over all metrics that have it. The e-mail
plugin goes by the distinct ones, in the order in which they come: `kindOf` is its choice between
the templates, and text and subject are of that kind (`isOfKind_message`).
-/

namespace MonascaNotification.EmailNotifier

open Infra

variable {P : Platform} {R : Rendering} {conf : EmailConf} {date : String} {n : Notification P}

/-! ## Dimensions -/

/-- The value of a dimension, where it is a text. -/
def hostOf (field : String) (metric : Json) : Option String :=
  match metric.getItem "dimensions" with
  | .ok (.obj dimensions) =>
    match dimensions.lookup field with
    | some (.str host) => some host
    | _ => none
  | _ => none

def hosts (field : String) (metrics : List Json) : List String := metrics.filterMap (hostOf field)

/-- A metric with a name and dimensions, of which the two that name hosts are texts. -/
structure HasHosts (metric : Json) : Prop where
  hasDimensions : HasDimensions metric
  texts : ∀ dimensions, metric.getItem "dimensions" = .ok (.obj dimensions) →
    ∀ field ∈ ["hostname", "target_host"], ∀ v, dimensions.lookup field = some v →
      ∃ host, v = .str host

theorem addHost_eq {field : String} {metric : Json} {dimensions : List (String × Json)}
    (hdimensions : metric.getItem "dimensions" = .ok (.obj dimensions))
    (h : ∀ v, dimensions.lookup field = some v → ∃ host, v = .str host) (found : List String) :
    addHost field (.obj dimensions) (found.map .str) =
      .ok (((hostOf field metric).toList.foldl addNew found).map .str) := by
  rw [hostOf, hdimensions]
  dsimp only
  cases hlookup : dimensions.lookup field with
  | none =>
    have hcontains : (Json.obj dimensions).contains field = .ok false := by
      rw [Json.contains, hlookup]
      rfl
    rw [addHost, hcontains]
    rfl
  | some v =>
    obtain ⟨host, rfl⟩ := h v hlookup
    have hcontains : (Json.obj dimensions).contains field = .ok true := by
      rw [Json.contains, hlookup]
      rfl
    have hany : (found.map Json.str).any (Json.str host).pyEq = decide (host ∈ found) := by
      rw [List.any_map, Bool.eq_iff_iff, List.any_eq_true, decide_eq_true_iff]
      constructor
      · rintro ⟨host', hmem, heq⟩
        have heq : (host == host') = true := heq
        rw [beq_iff_eq] at heq
        exact heq ▸ hmem
      · exact fun hmem => ⟨host, hmem, beq_self_eq_true host⟩
    rw [addHost, hcontains, Json.getItem_obj_of_lookup hlookup]
    show Except.ok (if (found.map Json.str).any (Json.str host).pyEq = true then _ else _) =
      Except.ok ((addNew found host).map Json.str)
    rw [hany, addNew]
    by_cases hmem : host ∈ found
    · rw [if_pos (decide_eq_true hmem), if_pos hmem]
    · rw [if_neg (by simpa using hmem), if_neg hmem, List.map_append]
      rfl

theorem collectHosts_eq {metrics : List Json} (h : ∀ metric ∈ metrics, HasHosts metric)
    (hostname targethost : List String) :
    collectHosts (hostname.map .str) (targethost.map .str) metrics =
      .ok (((hosts "hostname" metrics).foldl addNew hostname).map .str,
        ((hosts "target_host" metrics).foldl addNew targethost).map .str) := by
  induction metrics generalizing hostname targethost with
  | nil => rfl
  | cons metric metrics ih =>
    have hmetric := h metric List.mem_cons_self
    obtain ⟨dimensions, hdimensions⟩ := hmetric.hasDimensions.2
    have htexts := hmetric.texts dimensions hdimensions
    rw [collectHosts, hdimensions, ok_bind, addHost_eq hdimensions (htexts _ (by simp)), ok_bind,
      addHost_eq hdimensions (htexts _ (by simp)), ok_bind,
      ih fun m hm => h m (List.mem_cons_of_mem _ hm)]
    -- a metric adds one host or none, to each of the two lists
    have hcons : ∀ field found, (hosts field (metric :: metrics)).foldl addNew found =
        (hosts field metrics).foldl addNew ((hostOf field metric).toList.foldl addNew found) := by
      intro field found
      rw [hosts, List.filterMap_cons]
      cases hostOf field metric <;> rfl
    rw [hcons, hcons]

/-- The distinct hosts, as they are found. -/
theorem collectHosts_nil {metrics : List Json} (h : ∀ metric ∈ metrics, HasHosts metric) :
    collectHosts [] [] metrics =
      .ok ((hosts "hostname" metrics).eraseDups.map .str,
        (hosts "target_host" metrics).eraseDups.map .str) := by
  rw [← foldl_addNew, ← foldl_addNew]
  exact collectHosts_eq h [] []

/-! ## Kinds of messages -/

/-- The kinds of e-mails: about one host, perhaps with a target, or about no host. -/
inductive Kind where
  | singleHost (host : String) (target : Option String)
  | noHost
  deriving DecidableEq

namespace Kind

def host? : Kind → Option String
  | singleHost host _ => some host
  | noHost => none

def target? : Kind → Option String
  | singleHost _ target => target
  | noHost => none

def text : Kind → Values → String
  | singleHost host (some target) => emailSingleHostBase host target
  | singleHost host none => emailMultipleHostBase host
  | noHost => emailNoHostBase

/-- What the subject says after the alarm. -/
def suffix : Kind → String
  | singleHost host (some target) => "for Host: " ++ host ++ " Target: " ++ target
  | singleHost host none => "for Host: " ++ host
  | noHost => ""

end Kind

/-- The beginning of every subject. -/
def subjectPrefix (n : Notification P) : String :=
  n.state.toStr P ++ " " ++ n.severity.toStr P ++ " \"" ++ n.alarmName.toStr P ++ "\" "

/-- An e-mail of this kind about the notification. -/
structure IsOfKind (n : Notification P) (kind : Kind) (m : EmailMessage) : Prop where
  text : ∃ values, m.text = kind.text values
  subject : m.subject = subjectPrefix n ++ kind.suffix

/-- The choice of `_create_msg`. -/
def kindOf (metrics : List Json) : Kind :=
  match (hosts "hostname" metrics).eraseDups with
  | [host] => .singleHost host (hosts "target_host" metrics).head?
  | _ => .noHost

/-- What the templates are filled with. -/
structure Filled (R : Rendering) (conf : EmailConf) (n : Notification P) (metric : Json)
    (v : Values) : Prop where
  message : n.message.lowered P = .ok v.message
  alarmName : v.alarmName = n.alarmName.toStr P
  state : v.state = n.state.toStr P
  timestamp : R.asctime n.alarmTimestamp = .ok v.timestamp
  alarmId : v.alarmId = n.alarmId.toStr P
  metricDimensions : formatDimensions n = .ok v.metricDimensions
  link : v.link = n.link.toStr P
  grafanaUrl : ∃ url, getLinkUrl P conf metric (n.alarmTimestamp * 1000) = .ok url ∧
    v.grafanaUrl = url.getD "None"
  lifecycleState : v.lifecycleState = n.lifecycleState.toStr P

/-- The texts of an e-mail, of the kind that the hosts lead to. -/
theorem composeMsg_eq_ok {hostname targethost : List String} {kind : Kind} {m : EmailMessage}
    (hkind : kind = match hostname with
      | [host] => .singleHost host targethost.head?
      | _ => .noHost)
    (hm : composeMsg R conf date (hostname.map .str) n (targethost.map .str) = .ok m) :
    ∃ metric values, n.metrics.first = .ok metric ∧ Filled R conf n metric values ∧
      m.text = kind.text values ∧ m.subject = subjectPrefix n ++ kind.suffix := by
  rw [composeMsg] at hm
  obtain ⟨timestamp, htimestamp, hm⟩ := bind_eq_ok.mp hm
  obtain ⟨metric, hmetric, hm⟩ := bind_eq_ok.mp hm
  obtain ⟨grafUrl, hurl, hm⟩ := bind_eq_ok.mp hm
  obtain ⟨metricDimensions, hdimensions, hm⟩ := bind_eq_ok.mp hm
  obtain ⟨message, hmessage, hm⟩ := bind_eq_ok.mp hm
  refine ⟨metric,
    { message, timestamp, metricDimensions
      alarmName := n.alarmName.toStr P
      state := n.state.toStr P
      alarmId := n.alarmId.toStr P
      link := n.link.toStr P
      grafanaUrl := grafUrl.getD "None"
      lifecycleState := n.lifecycleState.toStr P },
    hmetric,
    ⟨hmessage, rfl, rfl, htimestamp, rfl, hdimensions, rfl, ⟨grafUrl, hurl, rfl⟩, rfl⟩, ?_⟩
  cases hostname with
  | nil =>
    obtain rfl := Except.ok.inj hm
    subst hkind
    exact ⟨rfl, (String.append_empty).symm⟩
  | cons host rest =>
    cases rest with
    | nil =>
      cases targethost with
      | nil =>
        obtain rfl := Except.ok.inj hm
        subst hkind
        exact ⟨rfl, by simp [subjectPrefix, Kind.suffix, String.append_assoc]; rfl⟩
      | cons target targets =>
        obtain rfl := Except.ok.inj hm
        subst hkind
        exact ⟨rfl, by simp [subjectPrefix, Kind.suffix, String.append_assoc]; rfl⟩
    | cons host' rest =>
      obtain rfl := Except.ok.inj hm
      subst hkind
      exact ⟨rfl, (String.append_empty).symm⟩

theorem composed_eq_ok {metrics : List Json} {m : EmailMessage}
    (hmetrics : n.metrics = .arr metrics) (h : ∀ metric ∈ metrics, HasHosts metric)
    (hm : composed R conf date n = .ok m) :
    ∃ metric values, metrics.head? = some metric ∧ Filled R conf n metric values ∧
      m.text = (kindOf metrics).text values ∧
        m.subject = subjectPrefix n ++ (kindOf metrics).suffix := by
  rw [composed, hmetrics] at hm
  obtain ⟨metrics', hiterate, hm⟩ := bind_eq_ok.mp hm
  cases hiterate
  rw [collectHosts_nil h, ok_bind] at hm
  have hkind : kindOf metrics = match (hosts "hostname" metrics).eraseDups with
      | [host] => .singleHost host (hosts "target_host" metrics).eraseDups.head?
      | _ => .noHost := by
    rw [kindOf, head?_eraseDups]
  obtain ⟨metric, values, hfirst, hfilled, htexts⟩ := composeMsg_eq_ok hkind hm
  refine ⟨metric, values, ?_, hfilled, htexts⟩
  rw [hmetrics] at hfirst
  cases metrics with
  | nil => cases hfirst
  | cons metric' rest =>
    cases hfirst
    rfl

/-- The e-mail is of the kind that was chosen. -/
theorem isOfKind_composed {metrics : List Json} {m : EmailMessage}
    (hmetrics : n.metrics = .arr metrics) (h : ∀ metric ∈ metrics, HasHosts metric)
    (hm : composed R conf date n = .ok m) : IsOfKind n (kindOf metrics) m := by
  obtain ⟨_, values, -, -, htext, hsubject⟩ := composed_eq_ok hmetrics h hm
  exact ⟨⟨values, htext⟩, hsubject⟩

theorem composed_nil (hmetrics : n.metrics = .arr []) : ¬ ∃ m, composed R conf date n = .ok m := by
  rintro ⟨m, hm⟩
  rw [composed, hmetrics] at hm
  obtain ⟨metrics, hiterate, hm⟩ := bind_eq_ok.mp hm
  obtain ⟨⟨hostname, targethost⟩, -, hm⟩ := bind_eq_ok.mp hm
  dsimp only at hm
  rw [composeMsg, hmetrics] at hm
  obtain ⟨timestamp, -, hm⟩ := bind_eq_ok.mp hm
  obtain ⟨metric, hmetric, -⟩ := bind_eq_ok.mp hm
  cases hmetric

/-- An e-mail is written when there is a metric and a date. -/
theorem exists_composed_iff {metrics : List Json} {message : String}
    (hmetrics : n.metrics = .arr metrics) (h : ∀ metric ∈ metrics, HasHosts metric)
    (hmessage : n.message = .str message) :
    (∃ m, composed R conf date n = .ok m) ↔
      metrics ≠ [] ∧ ∃ text, R.asctime n.alarmTimestamp = .ok text := by
  by_cases hne : metrics = []
  · subst hne
    exact iff_of_false (composed_nil hmetrics) fun h => h.1 rfl
  · rw [exists_composed hmetrics hne (fun metric hmem => (h metric hmem).hasDimensions) hmessage]
    exact (and_iff_right hne).symm

end MonascaNotification.EmailNotifier
