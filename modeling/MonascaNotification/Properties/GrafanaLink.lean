import MonascaNotification.Model.Plugins
import MonascaNotification.Python.Binary64
import MonascaNotification.Python.Integer
import MonascaNotification.Spec.Query

/-!
# The link to Grafana

`_get_link_url` puts the name and the dimensions of a metric into a query as they are. They come
back exactly when a query can hold them so, and no dimension has the name of another parameter
(`link_decodes_iff`).
-/

namespace MonascaNotification.EmailNotifier

open Infra Urlparse

/-! ## Metrics -/

/-- A metric with a name, and dimensions with values, that are no empty texts. -/
structure Metric where
  name : String
  dimensions : List (String × String)
  name_ne : name ≠ ""
  value_ne : ∀ dimension ∈ dimensions, dimension.2 ≠ ""
  nodup : (dimensions.map Prod.fst).Nodup

/-- The JSON object that has this name and these dimensions. -/
def Metric.IsIn (metric : Metric) (j : Json) : Prop :=
  j.getItem "name" = .ok (.str metric.name) ∧
    j.getItem "dimensions" = .ok (.obj (metric.dimensions.map fun d => (d.1, .str d.2)))

/-- Name and dimensions that a query holds as they are, next to the other parameters. -/
def Metric.IsPlain (metric : Metric) : Prop :=
  Urlparse.IsPlain metric.name.toList ∧ ∀ dimension ∈ metric.dimensions,
    IsPlainPair dimension ∧ dimension.1 ∉ ["metric", "from", "to"]

instance (metric : Metric) : Decidable metric.IsPlain := inferInstanceAs (Decidable (_ ∧ _))

/-- The parameters of the link: the metric, and ten minutes before and after. -/
def linkPairs (metric : Metric) (timestampMs : Int) : List (String × String) :=
  ("metric", metric.name) :: (metric.dimensions ++
    [("from", toString (timestampMs - 600000)), ("to", toString (timestampMs + 600000))])

/-- `parse_qs(urlparse(link).query)` -/
def parsedQuery (C : NetlocChecks) (link : String) : Except PyExn QueryParams :=
  (urlparse C link.toList []).map fun parsed => parseQs parsed.query

/-! ## Timestamps -/

theorem isPlain_toString (n : Int) : IsPlain (toString n).toList := by
  refine ⟨fun c hc => ?_, hasEscape_of_not_mem (not_mem_toString n (by decide) rfl)⟩
  have hne : ∀ d : Char, d ≠ '-' → d.isDigit = false → c ≠ d := fun d hminus hdigit heq =>
    not_mem_toString n hminus hdigit (heq ▸ hc)
  have hsafe : isSafe c = true := by
    simp only [isSafe, Bool.and_eq_true, bne_iff_ne]
    exact ⟨⟨hne _ (by decide) rfl, hne _ (by decide) rfl⟩, hne _ (by decide) rfl⟩
  exact ⟨hne _ (by decide) rfl, hne _ (by decide) rfl, hne _ (by decide) rfl, hsafe⟩

/-! ## The link -/

variable {P : Platform} {C : NetlocChecks} {conf : EmailConf}

theorem toList_foldl_dimensions (items : List (String × Json)) (start : String) :
    (items.foldl (fun query item => query ++ "&" ++ item.1 ++ "=" ++ item.2.toStr P) start).toList =
      start.toList ++
        items.flatMap fun item => '&' :: pairItem (item.1, item.2.toStr P) := by
  induction items generalizing start with
  | nil => simp
  | cons item items ih =>
    rw [List.foldl_cons, ih, List.flatMap_cons]
    simp [pairItem]

/-- The link is the page and the parameters, one after the other. -/
theorem getLinkUrl_eq {grafanaUrl : String} (hconf : conf.grafanaUrl = some grafanaUrl)
    {metric : Metric} {j : Json} (hj : metric.IsIn j) (timestampMs : Int) :
    ∃ link, getLinkUrl P conf j timestampMs = .ok (some link) ∧ link.toList =
      (grafanaUrl ++ "/dashboard/script/drilldown.js").toList ++
        '?' :: queryText (linkPairs metric timestampMs) := by
  obtain ⟨hname, hdimensions⟩ := hj
  rw [getLinkUrl, hconf]
  dsimp only
  rw [hname, ok_bind, hdimensions, ok_bind]
  refine ⟨_, rfl, ?_⟩
  rw [String.toList_append, String.toList_append, toList_foldl_dimensions, queryText, linkPairs,
    List.map_cons, intercalate_cons, List.map_append, List.flatMap_append]
  simp [pairItem, Json.toStr, List.flatMap_map]

theorem parsedQuery_append {s query : List Char} {link : String}
    (hlink : link.toList = s ++ '?' :: query) (h : ∃ c ∈ s, 32 < c.toNat)
    (hquery : '?' ∉ s) (hfragment : '#' ∉ s) :
    parsedQuery C link = (urlsplit C s []).map fun _ => parseQs (received query) := by
  have hparse : ∀ url : List Char, (urlparse C url []).map (fun parsed => parseQs parsed.query) =
      (urlsplit C url []).map fun parts => parseQs parts.query := by
    intro url
    rw [urlparse]
    cases urlsplit C url [] with
    | error x => rfl
    | ok parts =>
      rw [ok_bind]
      split
      · rfl
      · rfl
  rw [parsedQuery, hlink, hparse, urlsplit_append_query h hquery hfragment]
  cases urlsplit C s [] <;> rfl

/-- The page is the address of Grafana and a path, which adds no delimiter. -/
theorem not_mem_page {grafanaUrl : String} {d : Char} (h : d ∉ grafanaUrl.toList)
    (hpage : d ∉ "/dashboard/script/drilldown.js".toList) :
    d ∉ (grafanaUrl ++ "/dashboard/script/drilldown.js").toList := by
  rw [String.toList_append, List.mem_append]
  rintro (hd | hd)
  · exact h hd
  · exact hpage hd

theorem parsedQuery_link {grafanaUrl : String} (hquery : '?' ∉ grafanaUrl.toList)
    (hfragment : '#' ∉ grafanaUrl.toList) {query : List Char} {link : String}
    (hlink : link.toList =
      (grafanaUrl ++ "/dashboard/script/drilldown.js").toList ++ '?' :: query) :
    parsedQuery C link =
      (urlsplit C (grafanaUrl ++ "/dashboard/script/drilldown.js").toList []).map fun _ =>
        parseQs (received query) := by
  have hslash : ∃ c ∈ (grafanaUrl ++ "/dashboard/script/drilldown.js").toList, 32 < c.toNat := by
    refine ⟨'/', ?_, by decide⟩
    rw [String.toList_append]
    exact List.mem_append_right _ (by decide +kernel)
  exact parsedQuery_append hlink hslash (not_mem_page hquery (by decide +kernel))
    (not_mem_page hfragment (by decide +kernel))

/-! ## Plain parameters -/

theorem linkPairs_ne_nil (metric : Metric) (timestampMs : Int) :
    linkPairs metric timestampMs ≠ [] :=
  List.cons_ne_nil _ _

theorem linkPairs_value_ne (metric : Metric) (timestampMs : Int) :
    ∀ pair ∈ linkPairs metric timestampMs, pair.2 ≠ "" := by
  intro pair hpair
  rcases List.mem_cons.mp hpair with rfl | hpair
  · exact metric.name_ne
  · rcases List.mem_append.mp hpair with hpair | hpair
    · exact metric.value_ne pair hpair
    · rcases List.mem_pair.mp hpair with rfl | rfl
      · exact toString_ne_empty _
      · exact toString_ne_empty _

theorem nodup_linkPairs_iff (metric : Metric) (timestampMs : Int) :
    ((linkPairs metric timestampMs).map Prod.fst).Nodup ↔
      ∀ dimension ∈ metric.dimensions, dimension.1 ∉ ["metric", "from", "to"] := by
  have hkeys := metric.nodup
  rw [linkPairs, List.map_cons, List.map_append, List.nodup_cons, List.nodup_append]
  constructor
  · rintro ⟨hmetric, -, -, htimes⟩ dimension hdimension hmem
    have hkey : dimension.1 ∈ metric.dimensions.map Prod.fst := List.mem_map_of_mem hdimension
    rcases List.mem_cons.mp hmem with heq | hmem
    · exact hmetric (List.mem_append_left _ (heq ▸ hkey))
    · exact htimes _ hkey _ hmem rfl
  · intro h
    have hreserved : ∀ key ∈ metric.dimensions.map Prod.fst, key ∉ ["metric", "from", "to"] := by
      intro key hkey
      obtain ⟨dimension, hdimension, rfl⟩ := List.mem_map.mp hkey
      exact h dimension hdimension
    have htimes : ["from", "to"].Nodup := by decide
    refine ⟨fun hmem => ?_, hkeys, htimes, fun key hkey other hother heq => ?_⟩
    · rcases List.mem_append.mp hmem with hmem | hmem
      · exact hreserved _ hmem List.mem_cons_self
      · have hnot : "metric" ∉ ["from", "to"] := by decide
        exact hnot hmem
    · exact hreserved key hkey (List.mem_cons_of_mem _ (heq ▸ hother))

theorem isPlain_iff (metric : Metric) (timestampMs : Int) :
    (∀ pair ∈ linkPairs metric timestampMs, IsPlainPair pair) ∧
      ((linkPairs metric timestampMs).map Prod.fst).Nodup ↔ metric.IsPlain := by
  rw [nodup_linkPairs_iff]
  constructor
  · rintro ⟨hplain, hreserved⟩
    refine ⟨(hplain _ List.mem_cons_self).2.2, fun dimension hdimension => ⟨?_, ?_⟩⟩
    · exact hplain dimension (List.mem_cons_of_mem _ (List.mem_append_left _ hdimension))
    · exact hreserved dimension hdimension
  · rintro ⟨hname, hdimensions⟩
    have hkey : ∀ key ∈ ["metric", "from", "to"],
        Urlparse.IsPlain key.toList ∧ '=' ∉ key.toList := by decide +kernel
    obtain ⟨hmetric, hmetric'⟩ := hkey "metric" (by decide)
    obtain ⟨hfrom, hfrom'⟩ := hkey "from" (by decide)
    obtain ⟨hto, hto'⟩ := hkey "to" (by decide)
    refine ⟨fun pair hpair => ?_, fun dimension hdimension => (hdimensions dimension hdimension).2⟩
    rcases List.mem_cons.mp hpair with rfl | hpair
    · exact ⟨hmetric, hmetric', hname⟩
    · rcases List.mem_append.mp hpair with hpair | hpair
      · exact (hdimensions pair hpair).1
      · rcases List.mem_pair.mp hpair with rfl | rfl
        · exact ⟨hfrom, hfrom', isPlain_toString _⟩
        · exact ⟨hto, hto', isPlain_toString _⟩

/-- The query decodes to the parameters exactly when the metric is plain. -/
theorem perm_parseQs_link_iff (metric : Metric) (timestampMs : Int) :
    (parseQs (received (queryText (linkPairs metric timestampMs)))).Perm
      (singles (linkPairs metric timestampMs)) ↔ metric.IsPlain := by
  rw [perm_parseQs_queryText_iff (linkPairs_ne_nil _ _) (linkPairs_value_ne _ _), isPlain_iff]

/-- The same parameters: the same metric. -/
theorem metric_of_perm {metric metric' : Metric} (h : metric.IsPlain) (h' : metric'.IsPlain)
    {timestampMs timestampMs' : Int}
    (hperm : (linkPairs metric timestampMs).Perm (linkPairs metric' timestampMs')) :
    metric.name = metric'.name ∧ metric.dimensions.Perm metric'.dimensions := by
  have hname : ∀ (m : Metric) (t : Int), m.IsPlain →
      (linkPairs m t).filter (fun pair => pair.1 = "metric") = [("metric", m.name)] := by
    intro m t hm
    have hdimensions : m.dimensions.filter (fun pair => pair.1 = "metric") = [] := by
      refine List.filter_eq_nil_iff.mpr fun d hd heq => (hm.2 d hd).2 ?_
      rw [of_decide_eq_true heq]
      exact List.mem_cons_self
    rw [linkPairs, List.filter_cons_of_pos rfl, List.filter_append, hdimensions]
    rfl
  have hdimensions : ∀ (m : Metric) (t : Int), m.IsPlain →
      (linkPairs m t).filter (fun pair => pair.1 ∉ ["metric", "from", "to"]) = m.dimensions := by
    intro m t hm
    have hself : m.dimensions.filter (fun pair => pair.1 ∉ ["metric", "from", "to"]) =
        m.dimensions :=
      List.filter_eq_self.mpr fun d hd => decide_eq_true (hm.2 d hd).2
    rw [linkPairs, List.filter_cons_of_neg (by simp), List.filter_append, hself]
    simp
  constructor
  · have hfilter := hperm.filter fun pair => pair.1 = "metric"
    rw [hname metric _ h, hname metric' _ h'] at hfilter
    exact congrArg Prod.snd (List.singleton_perm_singleton.mp hfilter)
  · have hfilter := hperm.filter fun pair => pair.1 ∉ ["metric", "from", "to"]
    rwa [hdimensions metric _ h, hdimensions metric' _ h'] at hfilter

/-! ## What the link decodes to -/

/--
**The link.** It decodes to the metric and the two timestamps exactly when `urlsplit` accepts the
page and the metric is plain, and then no other plain metric has a link that decodes to the same.
-/
theorem link_decodes_iff (P : Platform) (C : NetlocChecks) {conf : EmailConf} {grafanaUrl : String}
    (hconf : conf.grafanaUrl = some grafanaUrl) (hquery : '?' ∉ grafanaUrl.toList)
    (hfragment : '#' ∉ grafanaUrl.toList) {metric : Metric} {j : Json} (hj : metric.IsIn j)
    (timestampMs : Int) :
    ∃ link, getLinkUrl P conf j timestampMs = .ok (some link) ∧
      ((∃ params, parsedQuery C link = .ok params ∧
          params.Perm (singles (linkPairs metric timestampMs))) ↔
        (∃ parts, urlsplit C (grafanaUrl ++ "/dashboard/script/drilldown.js").toList [] =
          .ok parts) ∧ metric.IsPlain) ∧
      (metric.IsPlain → ∀ (metric' : Metric) (j' : Json) (timestampMs' : Int) (link' : String)
        (params params' : QueryParams), metric'.IsPlain → metric'.IsIn j' →
        getLinkUrl P conf j' timestampMs' = .ok (some link') → parsedQuery C link = .ok params →
        parsedQuery C link' = .ok params' → params.Perm params' →
        metric.name = metric'.name ∧ metric.dimensions.Perm metric'.dimensions) := by
  obtain ⟨link, hget, hlink⟩ := getLinkUrl_eq (P := P) hconf hj timestampMs
  refine ⟨link, hget, ?_, ?_⟩
  · rw [parsedQuery_link hquery hfragment hlink, ← perm_parseQs_link_iff metric timestampMs]
    constructor
    · rintro ⟨params, hparams, hperm⟩
      obtain ⟨parts, hparts, rfl⟩ := map_eq_ok.mp hparams
      exact ⟨⟨parts, hparts⟩, hperm⟩
    · rintro ⟨⟨parts, hparts⟩, hperm⟩
      exact ⟨_, map_eq_ok.mpr ⟨parts, hparts, rfl⟩, hperm⟩
  · intro hplain metric' j' timestampMs' link' params params' hplain' hj' hget' hparams hparams'
      hsame
    obtain ⟨link₂, hget₂, hlink₂⟩ := getLinkUrl_eq (P := P) hconf hj' timestampMs'
    rw [hget'] at hget₂
    cases hget₂
    rw [parsedQuery_link hquery hfragment hlink] at hparams
    rw [parsedQuery_link hquery hfragment hlink₂] at hparams'
    obtain ⟨parts, -, rfl⟩ := map_eq_ok.mp hparams
    obtain ⟨parts', -, rfl⟩ := map_eq_ok.mp hparams'
    have hdecoded := (perm_parseQs_link_iff metric timestampMs).mpr hplain
    have hdecoded' := (perm_parseQs_link_iff metric' timestampMs').mpr hplain'
    -- both queries decode to their own parameters, which are then the same
    have hsingles := (hdecoded.symm.trans hsame).trans hdecoded'
    have hpairs : (flatten (singles (linkPairs metric timestampMs))).Perm
        (flatten (singles (linkPairs metric' timestampMs'))) := hsingles.flatMap_right _
    rw [flatten_singles, flatten_singles] at hpairs
    exact metric_of_perm hplain hplain' hpairs

def grafana : EmailConf where
  fromAddr := some "hpcs.mon@hp.com"
  grafanaUrl := some "http://127.0.0.1:3000"

def Metric.toJson (metric : Metric) : Json :=
  .obj [("name", .str metric.name),
    ("dimensions", .obj (metric.dimensions.map fun d => (d.1, .str d.2)))]

def cpuPercent : Metric where
  name := "cpu.percent"
  dimensions := [("hostname", "foo1"), ("service", "bar1")]
  name_ne := by decide
  value_ne := by decide
  nodup := by decide

/-- The dimensions of `cpuPercent`, in the value of one. -/
def cpuPercentOnce : Metric where
  name := "cpu.percent"
  dimensions := [("hostname", "foo1&service=bar1")]
  name_ne := by decide
  value_ne := by decide
  nodup := by decide

theorem link_decodes_documented :
    ∃ link, getLinkUrl cpython grafana cpuPercent.toJson 1496858400000 = .ok (some link) ∧
      ∃ params, parsedQuery asciiChecks link = .ok params ∧
        params.Perm (singles (linkPairs cpuPercent 1496858400000)) := by
  obtain ⟨link, hget, hdecodes, -⟩ := link_decodes_iff cpython asciiChecks
    (show grafana.grafanaUrl = some "http://127.0.0.1:3000" from rfl) (by decide +kernel)
    (by decide +kernel) (show cpuPercent.IsIn cpuPercent.toJson from ⟨rfl, rfl⟩) 1496858400000
  exact ⟨link, hget, hdecodes.mpr ⟨⟨_, rfl⟩, by decide +kernel⟩⟩

def cpuLink : String :=
  "http://127.0.0.1:3000/dashboard/script/drilldown.js?metric=cpu.percent" ++
    "&hostname=foo1&service=bar1&from=1496857800000&to=1496859000000"

/-- Two metrics have one link, and it decodes to only one of them. -/
theorem link_of_two_metrics :
    getLinkUrl cpython grafana cpuPercent.toJson 1496858400000 = .ok (some cpuLink) ∧
    getLinkUrl cpython grafana cpuPercentOnce.toJson 1496858400000 = .ok (some cpuLink) ∧
    ¬ cpuPercentOnce.dimensions.Perm cpuPercent.dimensions ∧
    ¬ ∃ params, parsedQuery asciiChecks cpuLink = .ok params ∧
      params.Perm (singles (linkPairs cpuPercentOnce 1496858400000)) := by
  refine ⟨by decide +kernel, by decide +kernel, by decide +kernel, ?_⟩
  rintro ⟨params, hparams, hperm⟩
  have hlength : (parsedQuery asciiChecks cpuLink).map List.length = .ok 5 := by decide +kernel
  rw [hparams] at hlength
  have hfive : params.length = 5 := Except.ok.inj hlength
  rw [hperm.length_eq] at hfive
  exact absurd hfive (by decide +kernel)

end MonascaNotification.EmailNotifier
