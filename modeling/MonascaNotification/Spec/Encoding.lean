import MonascaNotification.Python.Integer
import MonascaNotification.Spec.Email

/-!
# Which e-mails can be encoded

`_create_msg` hands the subject to `Header`, which refuses every lone surrogate, and the text to
`MIMEText`, which takes those that `surrogateescape` writes. Both were put together from fields of
the alarm (`Mailable`), of which `json.loads` lets in any.
-/

namespace MonascaNotification.EmailNotifier

open Infra

variable {P : Platform} {R : Rendering} {conf : EmailConf} {date : String} {n : Notification P}

/-! ## Texts that are put together -/

theorem escapable_ascii_append {s t : String} (hs : IsAscii s) :
    R.Escapable (s ++ t) ↔ R.Escapable t :=
  R.escapable_append.trans (and_iff_right (R.escapable_of_isAscii hs))

theorem escapable_append_ascii {s t : String} (ht : IsAscii t) :
    R.Escapable (s ++ t) ↔ R.Escapable s :=
  R.escapable_append.trans (and_iff_left (R.escapable_of_isAscii ht))

theorem escapable_intercalate {sep : String} (hsep : IsAscii sep) (l : List String) :
    R.Escapable (sep.intercalate l) ↔ ∀ s ∈ l, R.Escapable s := by
  induction l with
  | nil =>
    rw [String.intercalate_nil]
    exact iff_of_true (R.escapable_of_isAscii (by decide)) (by simp)
  | cons s l ih =>
    cases l with
    | nil => simp
    | cons t l =>
      rw [String.intercalate_cons_cons, R.escapable_append, R.escapable_append, ih,
        and_iff_left (R.escapable_of_isAscii hsep)]
      exact List.forall_mem_cons.symm

/-- The items of a dict can be written. -/
def EscapableItems (P : Platform) (R : Rendering) (items : List (String × Json)) : Prop :=
  ∀ item ∈ items, R.Escapable item.1 ∧ R.Escapable (item.2.toStr P)

/-! ## What the templates are filled with -/

theorem escapable_formatDimensionSet {items : List (String × Json)} {text : String}
    (h : formatDimensionSet P (.obj items) = .ok text) :
    R.Escapable text ↔ EscapableItems P R items := by
  obtain rfl := Except.ok.inj h
  have hclose : R.Escapable "\n  \x7d" := R.escapable_of_isAscii (by decide)
  have hpair : ∀ item : String × Json, R.Escapable ("    " ++ item.1 ++ ": " ++ item.2.toStr P) ↔
      R.Escapable item.1 ∧ R.Escapable (item.2.toStr P) := by
    intro item
    have hcolon : R.Escapable ": " := R.escapable_of_isAscii (by decide)
    rw [R.escapable_append, R.escapable_append, escapable_ascii_append (by decide)]
    exact and_congr_left' (and_iff_left hcolon)
  rw [R.escapable_append, escapable_ascii_append (by decide), escapable_intercalate (by decide),
    List.forall_mem_map, and_iff_left hclose]
  exact forall₂_congr fun item _ => hpair item

/-- The dimensions of the metrics can be written. -/
def EscapableDimensions (P : Platform) (R : Rendering) (metrics : List Json) : Prop :=
  ∀ metric ∈ metrics, ∀ dimensions, metric.getItem "dimensions" = .ok (.obj dimensions) →
    EscapableItems P R dimensions

theorem escapable_formatDimensions {metrics : List Json} (hmetrics : n.metrics = .arr metrics)
    (h : ∀ metric ∈ metrics, HasDimensions metric) {text : String}
    (htext : formatDimensions n = .ok text) :
    R.Escapable text ↔ EscapableDimensions P R metrics := by
  rw [formatDimensions, hmetrics] at htext
  obtain ⟨metrics', hiterate, htext⟩ := bind_eq_ok.mp htext
  cases hiterate
  obtain ⟨sets, hsets, htext⟩ := bind_eq_ok.mp htext
  obtain ⟨strings, hstrings, htext⟩ := bind_eq_ok.mp htext
  obtain rfl := Except.ok.inj htext
  have hclose : R.Escapable " \n]" := R.escapable_of_isAscii (by decide)
  rw [R.escapable_append, escapable_ascii_append (by decide), escapable_intercalate (by decide),
    and_iff_left hclose]
  constructor
  · intro hall metric hmem dimensions hdimensions
    obtain ⟨set, hset, hitem⟩ := exists_of_mem_of_mapM_eq_ok hsets hmem
    rw [hdimensions] at hitem
    cases hitem
    obtain ⟨string, hstring, hformat⟩ := exists_of_mem_of_mapM_eq_ok hstrings hset
    exact (escapable_formatDimensionSet hformat).mp (hall string hstring)
  · intro hall string hstring
    obtain ⟨set, hset, hformat⟩ := exists_mem_of_mapM_eq_ok hstrings hstring
    obtain ⟨metric, hmem, hitem⟩ := exists_mem_of_mapM_eq_ok hsets hset
    obtain ⟨dimensions, hdimensions⟩ := (h metric hmem).2
    rw [hdimensions] at hitem
    cases hitem
    exact (escapable_formatDimensionSet hformat).mpr (hall metric hmem dimensions hdimensions)

/-- The address of Grafana and the name of the metric can be written, where there is a link. -/
def EscapableLink (P : Platform) (R : Rendering) (conf : EmailConf) (metric : Json) : Prop :=
  ∀ grafanaUrl ∈ conf.grafanaUrl, R.Escapable grafanaUrl ∧
    ∀ name, metric.getItem "name" = .ok name → R.Escapable (name.toStr P)

theorem escapable_query (items : List (String × Json)) (start : String) :
    R.Escapable (items.foldl (fun query item => query ++ "&" ++ item.1 ++ "=" ++ item.2.toStr P)
      start) ↔ R.Escapable start ∧ EscapableItems P R items := by
  induction items generalizing start with
  | nil => exact (and_iff_left (by simp [EscapableItems])).symm
  | cons item items ih =>
    have hamp : R.Escapable "&" := R.escapable_of_isAscii (by decide)
    have heq : R.Escapable "=" := R.escapable_of_isAscii (by decide)
    have hcons : EscapableItems P R (item :: items) ↔
        (R.Escapable item.1 ∧ R.Escapable (item.2.toStr P)) ∧ EscapableItems P R items :=
      List.forall_mem_cons
    rw [List.foldl_cons, ih, hcons, R.escapable_append, R.escapable_append, R.escapable_append,
      R.escapable_append, and_iff_left hamp, and_iff_left heq, and_assoc, and_assoc, and_assoc]

theorem escapable_getLinkUrl {metric : Json} {dimensions : List (String × Json)} {ms : Int}
    {url : Option String} (hdimensions : metric.getItem "dimensions" = .ok (.obj dimensions))
    (hitems : EscapableItems P R dimensions) (h : getLinkUrl P conf metric ms = .ok url) :
    R.Escapable (url.getD "None") ↔ EscapableLink P R conf metric := by
  rw [getLinkUrl] at h
  unfold EscapableLink
  cases hconf : conf.grafanaUrl with
  | none =>
    rw [hconf] at h
    obtain rfl := Except.ok.inj h
    exact iff_of_true (R.escapable_of_isAscii (by decide)) (by simp)
  | some grafanaUrl =>
    rw [hconf] at h
    obtain ⟨name, hname, h⟩ := bind_eq_ok.mp h
    rw [hdimensions, ok_bind] at h
    obtain rfl := Except.ok.inj h
    have hpage : R.Escapable "/dashboard/script/drilldown.js" :=
      R.escapable_of_isAscii (by decide)
    have htime : ∀ a b : Int, R.Escapable ("&from=" ++ toString a ++ "&to=" ++ toString b) := by
      intro a b
      refine R.escapable_of_isAscii (isAscii_append.mpr ⟨?_, isAscii_toString b⟩)
      refine isAscii_append.mpr ⟨isAscii_append.mpr ⟨by decide, isAscii_toString a⟩, by decide⟩
    rw [Option.getD_some, R.escapable_append, R.escapable_append, R.escapable_append,
      escapable_query, escapable_ascii_append (by decide), and_iff_left hpage,
      and_iff_left (htime _ _), and_iff_left hitems, hname]
    simp

/-! ## Text and subject -/

/-- What a template is filled with can be written. -/
structure Values.Escapable (R : Rendering) (v : Values) : Prop where
  message : R.Escapable v.message
  alarmName : R.Escapable v.alarmName
  state : R.Escapable v.state
  timestamp : R.Escapable v.timestamp
  alarmId : R.Escapable v.alarmId
  metricDimensions : R.Escapable v.metricDimensions
  link : R.Escapable v.link
  grafanaUrl : R.Escapable v.grafanaUrl
  lifecycleState : R.Escapable v.lifecycleState

theorem escapable_template {firstLine idLabel dimensionsLabel : String} (hid : IsAscii idLabel)
    (hlabel : IsAscii dimensionsLabel) (v : Values) :
    R.Escapable (template firstLine idLabel dimensionsLabel v) ↔
      R.Escapable firstLine ∧ v.Escapable R := by
  have hnewline : IsAscii "\n" := by decide
  have hblank : IsAscii "\n\n" := by decide
  have halarm : IsAscii "Alarm \"" := by decide
  have hstate : IsAscii "\" transitioned to the " := by decide
  have htime : IsAscii " state at " := by decide
  have hutc : IsAscii " UTC\n" := by decide
  have hlifecycle : IsAscii "Lifecycle state: " := by decide
  have hlink : IsAscii "Link: " := by decide
  have hgrafana : IsAscii "Link to Grafana: " := by decide
  -- from the end of the text to its beginning
  unfold template
  rw [R.escapable_append, escapable_append_ascii hnewline, escapable_append_ascii hlabel,
    escapable_append_ascii hblank, R.escapable_append, escapable_append_ascii hgrafana,
    escapable_append_ascii hnewline, R.escapable_append, escapable_append_ascii hlink,
    escapable_append_ascii hnewline, R.escapable_append, escapable_append_ascii hlifecycle,
    escapable_append_ascii hblank, R.escapable_append, escapable_append_ascii hid,
    escapable_append_ascii hutc, R.escapable_append, escapable_append_ascii htime,
    R.escapable_append, escapable_append_ascii hstate, R.escapable_append,
    escapable_append_ascii halarm, escapable_append_ascii hblank, R.escapable_append]
  constructor
  · rintro ⟨⟨⟨⟨⟨⟨⟨⟨⟨hfirst, h1⟩, h2⟩, h3⟩, h4⟩, h5⟩, h6⟩, h7⟩, h8⟩, h9⟩
    exact ⟨hfirst, h1, h2, h3, h4, h5, h9, h7, h8, h6⟩
  · rintro ⟨hfirst, h1, h2, h3, h4, h5, h9, h7, h8, h6⟩
    exact ⟨⟨⟨⟨⟨⟨⟨⟨⟨hfirst, h1⟩, h2⟩, h3⟩, h4⟩, h5⟩, h6⟩, h7⟩, h8⟩, h9⟩

/-- The hosts that an e-mail of this kind names. -/
def Kind.named : Kind → List String
  | singleHost host target => host :: target.toList
  | noHost => []

theorem escapable_text (kind : Kind) (v : Values) :
    R.Escapable (kind.text v) ↔ (∀ host ∈ kind.named, R.Escapable host) ∧ v.Escapable R := by
  have hquote : R.Escapable "\" " := R.escapable_of_isAscii (by decide)
  match kind with
  | .singleHost host (some target) =>
    have hfor : R.Escapable "\" for target \"" := R.escapable_of_isAscii (by decide)
    have hfirst : R.Escapable ("On host \"" ++ host ++ "\" for target \"" ++ target ++ "\" ") ↔
        R.Escapable host ∧ R.Escapable target := by
      rw [R.escapable_append, R.escapable_append, R.escapable_append,
        escapable_ascii_append (by decide), and_iff_left hquote, and_iff_left hfor]
    rw [Kind.text, emailSingleHostBase, escapable_template (by decide) (by decide), hfirst]
    simp [Kind.named]
  | .singleHost host none =>
    have hfirst : R.Escapable ("On host \"" ++ host ++ "\" ") ↔ R.Escapable host := by
      rw [R.escapable_append, escapable_ascii_append (by decide), and_iff_left hquote]
    rw [Kind.text, emailMultipleHostBase, escapable_template (by decide) (by decide), hfirst]
    simp [Kind.named]
  | .noHost =>
    rw [Kind.text, emailNoHostBase, escapable_template (by decide) (by decide)]
    exact and_congr_left' (iff_of_true (R.escapable_of_isAscii (by decide)) (by simp [Kind.named]))

theorem encodable_suffix (kind : Kind) :
    R.Encodable kind.suffix ↔ ∀ host ∈ kind.named, R.Encodable host := by
  have hfor : R.Encodable "for Host: " := R.encodable_of_isAscii (by decide)
  have htarget : R.Encodable " Target: " := R.encodable_of_isAscii (by decide)
  match kind with
  | .singleHost host (some target) =>
    rw [Kind.suffix, R.encodable_append, R.encodable_append, R.encodable_append, and_iff_right hfor,
      and_iff_left htarget]
    simp [Kind.named]
  | .singleHost host none =>
    rw [Kind.suffix, R.encodable_append, and_iff_right hfor]
    simp [Kind.named]
  | .noHost => exact iff_of_true (R.encodable_of_isAscii (by decide)) (by simp [Kind.named])

theorem encodable_subjectPrefix (n : Notification P) :
    R.Encodable (subjectPrefix n) ↔
      ∀ v ∈ [n.state, n.severity, n.alarmName], R.Encodable (v.toStr P) := by
  have hblank : R.Encodable " " := R.encodable_of_isAscii (by decide)
  have hopen : R.Encodable " \"" := R.encodable_of_isAscii (by decide)
  have hclose : R.Encodable "\" " := R.encodable_of_isAscii (by decide)
  rw [subjectPrefix, R.encodable_append, R.encodable_append, R.encodable_append,
    R.encodable_append, R.encodable_append, and_iff_left hblank, and_iff_left hopen,
    and_iff_left hclose]
  simp [and_assoc]

/-! ## The alarm -/

/-- What an e-mail takes from the metrics can be encoded. -/
structure MailableMetrics (P : Platform) (R : Rendering) (conf : EmailConf)
    (metrics : List Json) : Prop where
  hosts : ∀ host ∈ (kindOf metrics).named, R.Encodable host
  dimensions : EscapableDimensions P R metrics
  link : ∀ metric ∈ metrics.head?, EscapableLink P R conf metric

/--
An e-mail about the alarm can be encoded: there is no lone surrogate in what its subject names, and
none but U+DC80 to U+DCFF in the rest of its text.
-/
structure Mailable (P : Platform) (R : Rendering) (conf : EmailConf) (alarm : Json) : Prop where
  subject : ∀ key ∈ ["newState", "severity", "alarmName"], ∀ v, alarm.getItem key = .ok v →
    R.Encodable (v.toStr P)
  fields : ∀ key ∈ ["alarmId", "link", "lifecycleState"], ∀ v, alarm.getItem key = .ok v →
    R.Escapable (v.toStr P)
  message : ∀ v text, alarm.getItem "stateChangeReason" = .ok v → v.lowered P = .ok text →
    R.Escapable text
  metrics : ∀ metrics, alarm.getItem "metrics" = .ok (.arr metrics) →
    MailableMetrics P R conf metrics

theorem getItem_of_derived (n : Notification P) :
    ∀ slot ∈ [("alarmId", n.alarmId), ("alarmName", n.alarmName), ("stateChangeReason", n.message),
      ("newState", n.state), ("severity", n.severity), ("link", n.link),
      ("lifecycleState", n.lifecycleState), ("metrics", n.metrics)],
      n.rawAlarm.getItem slot.1 = .ok slot.2 := by
  have h := n.derived
  obtain ⟨_, halarmId, h⟩ := bind_eq_ok.mp h
  obtain ⟨_, halarmName, h⟩ := bind_eq_ok.mp h
  obtain ⟨_, -, h⟩ := bind_eq_ok.mp h
  obtain ⟨_, -, h⟩ := bind_eq_ok.mp h
  obtain ⟨_, -, h⟩ := bind_eq_ok.mp h
  obtain ⟨_, hmessage, h⟩ := bind_eq_ok.mp h
  obtain ⟨_, hstate, h⟩ := bind_eq_ok.mp h
  obtain ⟨_, hseverity, h⟩ := bind_eq_ok.mp h
  obtain ⟨_, hlink, h⟩ := bind_eq_ok.mp h
  obtain ⟨_, hlifecycle, h⟩ := bind_eq_ok.mp h
  obtain ⟨_, -, h⟩ := bind_eq_ok.mp h
  obtain ⟨_, hmetrics, h⟩ := bind_eq_ok.mp h
  have hslots := Except.ok.inj h
  simp only [← hslots, List.forall_mem_cons, List.not_mem_nil, false_implies, implies_true,
    and_true]
  exact ⟨halarmId, halarmName, hmessage, hstate, hseverity, hlink, hlifecycle, hmetrics⟩

/-- The same of the slots of a notification. -/
theorem mailable_iff {metrics : List Json} (hmetrics : n.metrics = .arr metrics) :
    Mailable P R conf n.rawAlarm ↔
      (∀ v ∈ [n.state, n.severity, n.alarmName], R.Encodable (v.toStr P)) ∧
      (∀ v ∈ [n.alarmId, n.link, n.lifecycleState], R.Escapable (v.toStr P)) ∧
      (∀ text, n.message.lowered P = .ok text → R.Escapable text) ∧
        MailableMetrics P R conf metrics := by
  have hslots := getItem_of_derived n
  simp only [List.forall_mem_cons, List.not_mem_nil, false_implies, implies_true, and_true]
    at hslots
  obtain ⟨halarmId, halarmName, hmessage, hstate, hseverity, hlink, hlifecycle, hitem⟩ := hslots
  rw [hmetrics] at hitem
  constructor
  · rintro ⟨hsubject, hfields, htext, hall⟩
    refine ⟨?_, ?_, fun text => htext _ text hmessage, hall metrics hitem⟩
    · simp only [List.forall_mem_cons] at hsubject ⊢
      exact ⟨hsubject.1 _ hstate, hsubject.2.1 _ hseverity, hsubject.2.2.1 _ halarmName, by simp⟩
    · simp only [List.forall_mem_cons] at hfields ⊢
      exact ⟨hfields.1 _ halarmId, hfields.2.1 _ hlink, hfields.2.2.1 _ hlifecycle, by simp⟩
  · rintro ⟨hsubject, hfields, htext, hall⟩
    simp only [List.forall_mem_cons] at hsubject hfields
    constructor
    · simp only [List.forall_mem_cons, hstate, hseverity, halarmName, Except.ok.injEq, forall_eq']
      exact ⟨hsubject.1, hsubject.2.1, hsubject.2.2.1, by simp⟩
    · simp only [List.forall_mem_cons, halarmId, hlink, hlifecycle, Except.ok.injEq, forall_eq']
      exact ⟨hfields.1, hfields.2.1, hfields.2.2.1, by simp⟩
    · intro v text hv
      rw [hmessage] at hv
      cases hv
      exact htext text
    · intro metrics' hmetrics'
      rw [hitem] at hmetrics'
      cases hmetrics'
      exact hall

/-- The encoder takes text and subject exactly if it takes the fields of the alarm. -/
theorem encodes_iff {metrics : List Json} {m : EmailMessage} (hmetrics : n.metrics = .arr metrics)
    (h : ∀ metric ∈ metrics, HasHosts metric) (hm : composed R conf date n = .ok m) :
    R.Escapable m.text ∧ R.Encodable m.subject ↔ Mailable P R conf n.rawAlarm := by
  obtain ⟨metric, values, hhead, hfilled, htext, hsubject⟩ := composed_eq_ok hmetrics h hm
  have hmem : metric ∈ metrics := List.mem_of_mem_head? hhead
  obtain ⟨dimensions, hdimensions⟩ := (h metric hmem).hasDimensions.2
  have hdims := escapable_formatDimensions (R := R) hmetrics
    (fun metric hmem => (h metric hmem).hasDimensions) hfilled.metricDimensions
  obtain ⟨url, hurl, hgrafana⟩ := hfilled.grafanaUrl
  have hlink : EscapableDimensions P R metrics →
      (R.Escapable values.grafanaUrl ↔ EscapableLink P R conf metric) := by
    intro hall
    rw [hgrafana]
    exact escapable_getLinkUrl hdimensions (hall metric hmem dimensions hdimensions) hurl
  rw [htext, hsubject, escapable_text, R.encodable_append, encodable_subjectPrefix,
    encodable_suffix, mailable_iff hmetrics]
  simp only [List.forall_mem_cons, List.not_mem_nil, false_implies, implies_true, and_true]
  constructor
  · rintro ⟨⟨-, hvalues⟩, hsub, hhosts⟩
    have hall := hdims.mp hvalues.metricDimensions
    refine ⟨hsub, ⟨?_, ?_, ?_⟩, ?_, hhosts, hall, ?_⟩
    · exact hfilled.alarmId ▸ hvalues.alarmId
    · exact hfilled.link ▸ hvalues.link
    · exact hfilled.lifecycleState ▸ hvalues.lifecycleState
    · intro text hlowered
      rw [hfilled.message] at hlowered
      cases hlowered
      exact hvalues.message
    · intro metric' hmetric'
      rw [hhead] at hmetric'
      cases hmetric'
      exact (hlink hall).mp hvalues.grafanaUrl
  · rintro ⟨hsub, ⟨halarmId, hlinkField, hlifecycle⟩, hmessage, hhosts, hall, hgraf⟩
    refine ⟨⟨fun host hhost => (hhosts host hhost).escapable, ?_⟩, hsub, hhosts⟩
    exact
      { message := hmessage _ hfilled.message
        alarmName := hfilled.alarmName ▸ hsub.2.2.escapable
        state := hfilled.state ▸ hsub.1.escapable
        timestamp := R.escapable_of_isAscii (R.asctime_ascii hfilled.timestamp)
        alarmId := hfilled.alarmId ▸ halarmId
        metricDimensions := hdims.mpr hall
        link := hfilled.link ▸ hlinkField
        grafanaUrl := (hlink hall).mpr (hgraf metric hhead)
        lifecycleState := hfilled.lifecycleState ▸ hlifecycle }

/-! ## The message -/

/-- The message is what was written, if it can be encoded. -/
theorem message_eq_ok {m : EmailMessage} : EmailNotifier.message R conf date n = .ok m ↔
    composed R conf date n = .ok m ∧ R.Escapable m.text ∧ R.Encodable m.subject := by
  have hmessage : EmailNotifier.message R conf date n = (do
      let msg ← composed R conf date n
      R.mimeText msg.text
      R.header msg.subject
      return msg) := by
    rw [EmailNotifier.message, composed, bind_assoc]
    refine bind_congr fun metrics => ?_
    rw [bind_assoc]
    exact bind_congr fun _ => rfl
  rw [hmessage, bind_eq_ok]
  constructor
  · rintro ⟨m', hm', h⟩
    obtain ⟨_, htext, h⟩ := bind_eq_ok.mp h
    obtain ⟨_, hsubject, h⟩ := bind_eq_ok.mp h
    cases h
    exact ⟨hm', R.mimeText_eq_ok.mp htext, R.header_eq_ok.mp hsubject⟩
  · rintro ⟨hm, htext, hsubject⟩
    refine ⟨m, hm, ?_⟩
    have htext : R.mimeText m.text = .ok () := R.mimeText_eq_ok.mpr htext
    have hsubject : R.header m.subject = .ok () := R.header_eq_ok.mpr hsubject
    rw [htext, ok_bind, hsubject]
    rfl

/-- An e-mail is built when there is a metric and a date, and all can be encoded. -/
theorem exists_message_iff {metrics : List Json} {message : String}
    (hmetrics : n.metrics = .arr metrics) (h : ∀ metric ∈ metrics, HasHosts metric)
    (hmessage : n.message = .str message) :
    (∃ m, EmailNotifier.message R conf date n = .ok m) ↔
      metrics ≠ [] ∧ (∃ text, R.asctime n.alarmTimestamp = .ok text) ∧
        Mailable P R conf n.rawAlarm := by
  have hcomposed : (∃ m, composed R conf date n = .ok m) ↔ _ :=
    exists_composed_iff hmetrics h hmessage
  rw [← and_assoc, ← hcomposed]
  constructor
  · rintro ⟨m, hm⟩
    obtain ⟨hm, hencodes⟩ := message_eq_ok.mp hm
    exact ⟨⟨m, hm⟩, (encodes_iff hmetrics h hm).mp hencodes⟩
  · rintro ⟨⟨m, hm⟩, hmailable⟩
    exact ⟨m, message_eq_ok.mpr ⟨hm, (encodes_iff hmetrics h hm).mpr hmailable⟩⟩

end MonascaNotification.EmailNotifier
