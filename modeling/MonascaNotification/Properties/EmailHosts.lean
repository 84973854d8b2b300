import MonascaNotification.Properties.AlarmSchema
import MonascaNotification.Spec.Encoding

/-!
# Which hosts an e-mail names

The plugin reports the hostname only if there is only one. Two things in `_create_msg` do not go
with this. The link to Grafana is built from the first metric, so that a notification without
metrics raises. And the target is the first of those found, however many there are, so that it
depends on the order of the metrics.
-/

namespace MonascaNotification.EmailNotifier

open Infra

variable {P : Platform} {R : Rendering} {conf : EmailConf} {date : String} {n : Notification P}

/-! ## The kind of an e-mail -/

theorem kindOf_host?_eq_some {metrics : List Json} {host : String} :
    (kindOf metrics).host? = some host ↔ Only (hosts "hostname" metrics) host := by
  rw [← eraseDups_eq_singleton, kindOf]
  split
  · next host' heq =>
    rw [heq]
    simp [Kind.host?]
  · next hnot =>
    refine iff_of_false (by simp [Kind.host?]) fun h => hnot host h

/--
**The right kind of e-mail.** For every list of metrics, the message is built, and it names `h`
exactly if `h` is the only hostname, if and only if there is a metric at all, the time of the
alarm can be written as a date, and what is written about the alarm can be encoded.
-/
theorem right_kind_iff {metrics : List Json} {message : String}
    (hmetrics : n.metrics = .arr metrics) (h : ∀ metric ∈ metrics, HasHosts metric)
    (hmessage : n.message = .str message) :
    (∃ m kind, EmailNotifier.message R conf date n = .ok m ∧ IsOfKind n kind m ∧
      ∀ host, kind.host? = some host ↔ Only (hosts "hostname" metrics) host) ↔
    metrics ≠ [] ∧ (∃ text, R.asctime n.alarmTimestamp = .ok text) ∧
      Mailable P R conf n.rawAlarm := by
  rw [← exists_message_iff hmetrics h hmessage]
  constructor
  · rintro ⟨m, kind, hm, -⟩
    exact ⟨m, hm⟩
  · rintro ⟨m, hm⟩
    exact ⟨m, kindOf metrics, hm, isOfKind_composed hmetrics h (message_eq_ok.mp hm).1,
      fun _ => kindOf_host?_eq_some⟩

/-- Two metrics of one host. -/
theorem right_kind_web :
    ∃ m kind, EmailNotifier.message cpythonText emailConf "Tue, 14 Apr 2015 14:57:33 +0000"
        (mailAbout [hostMetric "web1" none, hostMetric "web1" none]) = .ok m ∧
      IsOfKind (mailAbout [hostMetric "web1" none, hostMetric "web1" none]) kind m ∧
      ∀ host, kind.host? = some host ↔
        Only (hosts "hostname" [hostMetric "web1" none, hostMetric "web1" none]) host :=
  (right_kind_iff rfl (by simp [hasHosts_hostMetric]) rfl).mpr
    ⟨List.cons_ne_nil _ _, ⟨"Tue Apr 14 14:57:33 2015", by decide +kernel⟩,
      mailable_mailAbout (by decide : IsAscii "web1") (by simp) (by decide +kernel)⟩

/-- An alarm without metrics, as for changes made through the API: the list is indexed anyway. -/
theorem no_email_without_metrics :
    (mailAbout []).metrics = .arr [] ∧
    EmailNotifier.message cpythonText emailConf "Tue, 14 Apr 2015 14:57:33 +0000" (mailAbout []) =
      .error .indexError ∧
    ¬ ∃ m kind, EmailNotifier.message cpythonText emailConf "Tue, 14 Apr 2015 14:57:33 +0000"
        (mailAbout []) = .ok m ∧ IsOfKind (mailAbout []) kind m ∧
      ∀ host, kind.host? = some host ↔ Only (hosts "hostname" []) host := by
  refine ⟨rfl, by decide +kernel, ?_⟩
  rintro ⟨m, kind, hm, -⟩
  exact composed_nil rfl ⟨m, (message_eq_ok.mp hm).1⟩

/-! ## The same metrics in another order -/

/-- Equal but for the order of the metrics, in the slot and in the raw alarm. -/
structure Reordered (n n' : Notification P) : Prop where
  metrics : ∃ metrics metrics', n.metrics = .arr metrics ∧ n'.metrics = .arr metrics' ∧
    metrics.Perm metrics'
  slots : n'.toAlarmSlots = { n.toAlarmSlots with metrics := n'.metrics }
  rawAlarm : ∀ key, key ≠ "metrics" → n'.rawAlarm.getItem key = n.rawAlarm.getItem key
  id : n'.id = n.id
  type : n'.type = n.type
  name : n'.name = n.name
  address : n'.address = n.address
  period : n'.period = n.period
  retryCount : n'.retryCount = n.retryCount
  notificationTimestamp : n'.notificationTimestamp = n.notificationTimestamp

/-- `fields[key] = v`, for a key that is there. -/
def setField (fields : List (String × Json)) (key : String) (v : Json) : List (String × Json) :=
  fields.map fun field => (field.1, if field.1 = key then v else field.2)

theorem lookup_setField (fields : List (String × Json)) (key k : String) (v : Json) :
    (setField fields key v).lookup k = (fields.lookup k).map fun w => if k = key then v else w := by
  induction fields with
  | nil => rfl
  | cons field fields ih =>
    rw [setField, List.map_cons, List.lookup_cons, List.lookup_cons]
    by_cases hk : k = field.1
    · subst hk
      simp
    · rw [beq_eq_false_iff_ne.mpr hk]
      exact ih

theorem getItem_setField_of_ne {fields : List (String × Json)} {k : String} {v : Json}
    (h : k ≠ "metrics") :
    (Json.obj (setField fields "metrics" v)).getItem k = (Json.obj fields).getItem k := by
  have hlookup : (setField fields "metrics" v).lookup k = fields.lookup k := by
    rw [lookup_setField]
    simp [h]
  rw [Json.getItem, Json.getItem, hlookup]

theorem getItem_setField_self {fields : List (String × Json)} {v w : Json}
    (h : (Json.obj fields).getItem "metrics" = .ok w) :
    (Json.obj (setField fields "metrics" v)).getItem "metrics" = .ok v := by
  obtain ⟨fields', heq, hlookup⟩ := Json.getItem_eq_ok h
  cases heq
  refine Json.getItem_obj_of_lookup ?_
  rw [lookup_setField, hlookup]
  rfl

theorem ofAlarm_setField {fields : List (String × Json)} {slots : AlarmSlots} {v : Json}
    (h : AlarmSlots.ofAlarm P (.obj fields) = .ok slots) :
    AlarmSlots.ofAlarm P (.obj (setField fields "metrics" v)) =
      .ok { slots with metrics := v } := by
  rw [AlarmSlots.ofAlarm] at h ⊢
  obtain ⟨alarmId, halarmId, h⟩ := bind_eq_ok.mp h
  obtain ⟨alarmName, halarmName, h⟩ := bind_eq_ok.mp h
  obtain ⟨timestamp, htimestamp, h⟩ := bind_eq_ok.mp h
  obtain ⟨seconds, hseconds, h⟩ := bind_eq_ok.mp h
  obtain ⟨alarmTimestamp, halarmTimestamp, h⟩ := bind_eq_ok.mp h
  obtain ⟨message, hmessage, h⟩ := bind_eq_ok.mp h
  obtain ⟨state, hstate, h⟩ := bind_eq_ok.mp h
  obtain ⟨severity, hseverity, h⟩ := bind_eq_ok.mp h
  obtain ⟨link, hlink, h⟩ := bind_eq_ok.mp h
  obtain ⟨lifecycleState, hlifecycleState, h⟩ := bind_eq_ok.mp h
  obtain ⟨tenantId, htenantId, h⟩ := bind_eq_ok.mp h
  obtain ⟨metrics, hmetrics, h⟩ := bind_eq_ok.mp h
  cases h
  rw [getItem_setField_of_ne (by decide), halarmId, ok_bind]
  rw [getItem_setField_of_ne (by decide), halarmName, ok_bind]
  rw [getItem_setField_of_ne (by decide), htimestamp, ok_bind]
  rw [hseconds, ok_bind]
  rw [halarmTimestamp, ok_bind]
  rw [getItem_setField_of_ne (by decide), hmessage, ok_bind]
  rw [getItem_setField_of_ne (by decide), hstate, ok_bind]
  rw [getItem_setField_of_ne (by decide), hseverity, ok_bind]
  rw [getItem_setField_of_ne (by decide), hlink, ok_bind]
  rw [getItem_setField_of_ne (by decide), hlifecycleState, ok_bind]
  rw [getItem_setField_of_ne (by decide), htenantId, ok_bind]
  rw [getItem_setField_self hmetrics, ok_bind]
  rfl

theorem exists_reordered {metrics metrics' : List Json} (hmetrics : n.metrics = .arr metrics)
    (h : metrics.Perm metrics') :
    ∃ n' : Notification P, Reordered n n' ∧ n'.metrics = .arr metrics' := by
  obtain ⟨_, halarmId, -⟩ := bind_eq_ok.mp n.derived
  obtain ⟨fields, hfields, -⟩ := Json.getItem_eq_ok halarmId
  refine ⟨{ n with
    toAlarmSlots := { n.toAlarmSlots with metrics := .arr metrics' }
    rawAlarm := .obj (setField fields "metrics" (.arr metrics'))
    derived := ofAlarm_setField (hfields ▸ n.derived) }, ?_, rfl⟩
  refine ⟨⟨metrics, metrics', hmetrics, rfl, h⟩, rfl, fun key hkey => ?_, rfl, rfl, rfl, rfl, rfl,
    rfl, rfl⟩
  exact (getItem_setField_of_ne hkey).trans (by rw [hfields])

/-! ## The choice of the kind -/

section

variable {metrics metrics' : List Json} {host : String}

theorem kindOf_of_only (h : Only (hosts "hostname" metrics) host) :
    kindOf metrics = .singleHost host (hosts "target_host" metrics).head? := by
  rw [kindOf, eraseDups_eq_singleton.mpr h]

theorem kindOf_of_not (h : ¬ ∃ host, Only (hosts "hostname" metrics) host) :
    kindOf metrics = .noHost := by
  rw [kindOf]
  split
  · next host heq => exact absurd ⟨host, eraseDups_eq_singleton.mp heq⟩ h
  · rfl

theorem hosts_perm (field : String) (h : metrics.Perm metrics') :
    (hosts field metrics).Perm (hosts field metrics') := h.filterMap _

/-- With one hostname there is at most one target. -/
def Unambiguous (metrics : List Json) : Prop :=
  (∃ host, Only (hosts "hostname" metrics) host) →
    ∀ target ∈ hosts "target_host" metrics, Only (hosts "target_host" metrics) target

theorem head?_perm {xs ys : List String} (h : xs.Perm ys) (hall : ∀ x ∈ xs, Only xs x) :
    xs.head? = ys.head? := by
  cases xs with
  | nil => rw [h.nil_eq]
  | cons x xs =>
    cases ys with
    | nil => exact absurd h.symm.nil_eq (List.cons_ne_nil x xs).symm
    | cons y ys =>
      have hy : y ∈ x :: xs := h.mem_iff.mpr List.mem_cons_self
      rw [List.head?_cons, List.head?_cons, (hall x List.mem_cons_self).2 y hy]

theorem kindOf_perm (hun : Unambiguous metrics) (h : metrics.Perm metrics') :
    kindOf metrics = kindOf metrics' := by
  have hhosts := hosts_perm "hostname" h
  by_cases honly : ∃ host, Only (hosts "hostname" metrics) host
  · have htargets := hun honly
    obtain ⟨host, hhost⟩ := honly
    rw [kindOf_of_only hhost, kindOf_of_only ((Only.perm hhosts).mp hhost),
      head?_perm (hosts_perm "target_host" h) htargets]
  · rw [kindOf_of_not honly, kindOf_of_not fun ⟨host, hhost⟩ =>
      honly ⟨host, (Only.perm hhosts).mpr hhost⟩]

/-- With two targets, a metric with another target than the first can be put first. -/
theorem exists_other_head (hhost : Only (hosts "hostname" metrics) host)
    (hun : ¬ Unambiguous metrics) :
    ∃ metrics' target target', metrics.Perm metrics' ∧ target ≠ target' ∧
      kindOf metrics = .singleHost host (some target) ∧
      kindOf metrics' = .singleHost host (some target') := by
  have hother : ∃ first, (hosts "target_host" metrics).head? = some first ∧
      ∃ other ∈ hosts "target_host" metrics, first ≠ other := by
    -- without a target, or with one only, the notification would be unambiguous
    cases htargets : hosts "target_host" metrics with
    | nil =>
      refine absurd (fun _ target htarget => ?_) hun
      rw [htargets] at htarget
      cases htarget
    | cons first rest =>
      refine ⟨first, rfl, ?_⟩
      by_contra hall
      refine hun fun _ target htarget => ?_
      have hfirst : ∀ other ∈ hosts "target_host" metrics, other = first := by
        intro other hmem
        rw [htargets] at hmem
        exact by_contra fun hne => hall ⟨other, hmem, Ne.symm hne⟩
      refine ⟨htarget, fun other hmem => ?_⟩
      rw [hfirst other hmem, hfirst target htarget]
  obtain ⟨first, hfirst, other, hmem, hne⟩ := hother
  obtain ⟨metric, hmetric, hother⟩ := List.mem_filterMap.mp hmem
  obtain ⟨before, after, rfl⟩ := List.append_of_mem hmetric
  have hperm : (before ++ metric :: after).Perm (metric :: (before ++ after)) := List.perm_middle
  refine ⟨metric :: (before ++ after), first, other, hperm, hne, ?_, ?_⟩
  · rw [kindOf_of_only hhost, hfirst]
  · rw [kindOf_of_only ((Only.perm (hosts_perm "hostname" hperm)).mp hhost), hosts,
      List.filterMap_cons_some hother]
    rfl

end

/-! ## The subject -/

theorem suffix_inj_target {host target target' : String}
    (h : (Kind.singleHost host (some target)).suffix =
      (Kind.singleHost host (some target')).suffix) :
    target = target' :=
  (String.append_right_inj ("for Host: " ++ host ++ " Target: ")).mp h

/-- No other kind of e-mail about this host has a subject with a target. -/
theorem exists_target_of_suffix {host target : String} {kind : Kind}
    (h : kind.suffix = (Kind.singleHost host (some target)).suffix)
    (hhost : ∀ host', kind.host? = some host' → host' = host) :
    ∃ target', kind.target? = some target' := by
  have hlength := congrArg String.length h
  cases kind with
  | noHost =>
    rw [Kind.suffix, Kind.suffix] at hlength
    simp only [String.length_append] at hlength
    -- the subjects have different lengths
    have hfor : "for Host: ".length = 10 := by decide
    rw [hfor] at hlength
    have hempty : "".length = 0 := rfl
    omega
  | singleHost host' target' =>
    obtain rfl := hhost host' rfl
    cases target' with
    | some target' => exact ⟨target', rfl⟩
    | none =>
      rw [Kind.suffix, Kind.suffix] at hlength
      simp only [String.length_append] at hlength
      have hlabel : " Target: ".length = 9 := by decide
      omega

/-- The subject is the same in every order of the metrics, as it is given to `Header`. -/
def OrderFree (R : Rendering) (conf : EmailConf) (date : String) (n : Notification P) : Prop :=
  ∀ n' m m', Reordered n n' → composed R conf date n = .ok m →
    composed R conf date n' = .ok m' → m.subject = m'.subject

/-- A hostname or a target is named only when it is the only one. -/
def NamesOnlyUnique (R : Rendering) (conf : EmailConf) (date : String) (n : Notification P)
    (metrics : List Json) : Prop :=
  ∀ m, composed R conf date n = .ok m → ∃ kind, IsOfKind n kind m ∧
    (∀ host, kind.host? = some host → Only (hosts "hostname" metrics) host) ∧
    ∀ target, kind.target? = some target → Only (hosts "target_host" metrics) target

section

variable {metrics : List Json} {message : String}

theorem Reordered.subjectPrefix {n' : Notification P} (h : Reordered n n') :
    subjectPrefix n' = subjectPrefix n := by
  have hslots := h.slots
  rw [EmailNotifier.subjectPrefix, EmailNotifier.subjectPrefix]
  rw [hslots]

theorem orderFree_of_unambiguous (hmetrics : n.metrics = .arr metrics)
    (h : ∀ metric ∈ metrics, HasHosts metric) (hun : Unambiguous metrics) :
    OrderFree R conf date n := by
  intro n' m m' hre hm hm'
  obtain ⟨metrics₁, metrics', hmetrics₁, hmetrics', hperm⟩ := hre.metrics
  rw [hmetrics] at hmetrics₁
  cases hmetrics₁
  have hall : ∀ metric ∈ metrics', HasHosts metric := fun metric hmem =>
    h metric (hperm.mem_iff.mpr hmem)
  rw [(isOfKind_composed hmetrics h hm).subject, (isOfKind_composed hmetrics' hall hm').subject,
    kindOf_perm hun hperm, hre.subjectPrefix]

theorem namesOnlyUnique_of_unambiguous (hmetrics : n.metrics = .arr metrics)
    (h : ∀ metric ∈ metrics, HasHosts metric) (hun : Unambiguous metrics) :
    NamesOnlyUnique R conf date n metrics := by
  intro m hm
  refine ⟨kindOf metrics, isOfKind_composed hmetrics h hm, fun _ => kindOf_host?_eq_some.mp, ?_⟩
  intro target htarget
  by_cases honly : ∃ host, Only (hosts "hostname" metrics) host
  · have hall := hun honly
    obtain ⟨host, hhost⟩ := honly
    rw [kindOf_of_only hhost] at htarget
    exact hall target (List.mem_of_mem_head? htarget)
  · rw [kindOf_of_not honly] at htarget
    cases htarget

theorem ne_nil_of_only {host : String} (h : Only (hosts "hostname" metrics) host) :
    metrics ≠ [] := by
  rintro rfl
  cases h.1

theorem unambiguous_of_orderFree (hmetrics : n.metrics = .arr metrics)
    (h : ∀ metric ∈ metrics, HasHosts metric) (hmessage : n.message = .str message)
    (hdate : ∃ text, R.asctime n.alarmTimestamp = .ok text)
    (hfree : OrderFree R conf date n) : Unambiguous metrics := by
  by_contra hun
  obtain ⟨host, hhost⟩ : ∃ host, Only (hosts "hostname" metrics) host :=
    by_contra fun hnot => hun fun hex => absurd hex hnot
  obtain ⟨metrics', target, target', hperm, hne, hkind, hkind'⟩ := exists_other_head hhost hun
  obtain ⟨n', hre, hmetrics'⟩ := exists_reordered hmetrics hperm
  have hall : ∀ metric ∈ metrics', HasHosts metric :=
    fun metric hmem => h metric (hperm.mem_iff.mpr hmem)
  have hslots := hre.slots
  have hmessage' : n'.message = .str message := by
    rw [hslots]
    exact hmessage
  have hdate' : ∃ text, R.asctime n'.alarmTimestamp = .ok text := by
    rw [hslots]
    exact hdate
  have hhost' : Only (hosts "hostname" metrics') host :=
    (Only.perm (hosts_perm "hostname" hperm)).mp hhost
  obtain ⟨m, hm⟩ : ∃ m, composed R conf date n = .ok m :=
    (exists_composed_iff hmetrics h hmessage).mpr ⟨ne_nil_of_only hhost, hdate⟩
  obtain ⟨m', hm'⟩ : ∃ m', composed R conf date n' = .ok m' :=
    (exists_composed_iff hmetrics' hall hmessage').mpr ⟨ne_nil_of_only hhost', hdate'⟩
  have hsubject := hfree n' m m' hre hm hm'
  rw [(isOfKind_composed hmetrics h hm).subject, (isOfKind_composed hmetrics' hall hm').subject,
    hre.subjectPrefix, hkind, hkind', String.append_right_inj] at hsubject
  exact hne (suffix_inj_target hsubject)

theorem unambiguous_of_namesOnlyUnique (hmetrics : n.metrics = .arr metrics)
    (h : ∀ metric ∈ metrics, HasHosts metric) (hmessage : n.message = .str message)
    (hdate : ∃ text, R.asctime n.alarmTimestamp = .ok text)
    (hnames : NamesOnlyUnique R conf date n metrics) : Unambiguous metrics := by
  rintro ⟨host, hhost⟩ target htarget
  obtain ⟨m, hm⟩ : ∃ m, composed R conf date n = .ok m :=
    (exists_composed_iff hmetrics h hmessage).mpr ⟨ne_nil_of_only hhost, hdate⟩
  obtain ⟨kind, hkind, hhosts, htargets⟩ := hnames m hm
  obtain ⟨first, hfirst⟩ : ∃ first, (hosts "target_host" metrics).head? = some first := by
    cases hlist : hosts "target_host" metrics with
    | nil =>
      rw [hlist] at htarget
      cases htarget
    | cons first rest => exact ⟨first, rfl⟩
  have hsubject := (isOfKind_composed hmetrics h hm).subject
  rw [hkind.subject, String.append_right_inj, kindOf_of_only hhost, hfirst] at hsubject
  obtain ⟨target', htarget'⟩ := exists_target_of_suffix hsubject fun host' hhost' =>
    hhost.2 host' (hhosts host' hhost').1
  have honly := htargets target' htarget'
  rw [honly.2 target htarget]
  exact honly

/--
**The order of the metrics.** The subject is the same in every order of the metrics, and names a
hostname or a target only if it is the only one, exactly if there are no two targets where there
is one hostname (or no date can be written, and there is no e-mail).
-/
theorem subject_order_iff (hmetrics : n.metrics = .arr metrics)
    (h : ∀ metric ∈ metrics, HasHosts metric) (hmessage : n.message = .str message) :
    (OrderFree R conf date n ↔
      ((∃ text, R.asctime n.alarmTimestamp = .ok text) → Unambiguous metrics)) ∧
    (NamesOnlyUnique R conf date n metrics ↔
      ((∃ text, R.asctime n.alarmTimestamp = .ok text) → Unambiguous metrics)) := by
  have hdate : ∀ m, composed R conf date n = .ok m →
      ∃ text, R.asctime n.alarmTimestamp = .ok text :=
    fun m hm => ((exists_composed_iff hmetrics h hmessage).mp ⟨m, hm⟩).2
  constructor
  · constructor
    · exact fun hfree hd => unambiguous_of_orderFree hmetrics h hmessage hd hfree
    · intro hun n' m m' hre hm hm'
      exact orderFree_of_unambiguous hmetrics h (hun (hdate m hm)) n' m m' hre hm hm'
  · constructor
    · exact fun hnames hd => unambiguous_of_namesOnlyUnique hmetrics h hmessage hd hnames
    · intro hun m hm
      exact namesOnlyUnique_of_unambiguous hmetrics h (hun (hdate m hm)) m hm

end

/-! ## Two targets -/

/-- One host that is checked from two places. -/
def twoTargets : List Json := [hostMetric "web1" (some "a"), hostMetric "web1" (some "b")]

theorem reordered_mailAbout {metrics metrics' : List Json} (h : metrics.Perm metrics') :
    Reordered (mailAbout metrics) (mailAbout metrics') where
  metrics := ⟨metrics, metrics', rfl, rfl, h⟩
  slots := rfl
  rawAlarm := by
    intro key hkey
    show (Json.obj (alarmWith metrics')).getItem key = (Json.obj (alarmWith metrics)).getItem key
    have hbeq : (key == "metrics") = false := beq_eq_false_iff_ne.mpr hkey
    simp [alarmWith, Json.getItem, List.lookup_cons, hbeq]
  id := rfl
  type := rfl
  name := rfl
  address := rfl
  period := rfl
  retryCount := rfl
  notificationTimestamp := rfl

/-- What the order of the metrics has to do with the subject, for the two targets. -/
theorem subject_order_iff_twoTargets :
    (OrderFree cpythonText emailConf "Tue, 14 Apr 2015 14:57:33 +0000" (mailAbout twoTargets) ↔
      ((∃ text, cpythonText.asctime 1429023453 = .ok text) → Unambiguous twoTargets)) ∧
    (NamesOnlyUnique cpythonText emailConf "Tue, 14 Apr 2015 14:57:33 +0000"
        (mailAbout twoTargets) twoTargets ↔
      ((∃ text, cpythonText.asctime 1429023453 = .ok text) → Unambiguous twoTargets)) :=
  subject_order_iff rfl (by simp [twoTargets, hasHosts_hostMetric]) rfl

/-- Two orders of the same metrics, and two subjects. -/
theorem subject_depends_on_order :
    Reordered (mailAbout twoTargets) (mailAbout twoTargets.reverse) ∧
    (composed cpythonText emailConf "Tue, 14 Apr 2015 14:57:33 +0000"
        (mailAbout twoTargets)).map EmailMessage.subject =
      .ok "ALARM LOW \"test Alarm\" for Host: web1 Target: a" ∧
    (composed cpythonText emailConf "Tue, 14 Apr 2015 14:57:33 +0000"
        (mailAbout twoTargets.reverse)).map EmailMessage.subject =
      .ok "ALARM LOW \"test Alarm\" for Host: web1 Target: b" ∧
    ¬ OrderFree cpythonText emailConf "Tue, 14 Apr 2015 14:57:33 +0000" (mailAbout twoTargets) := by
  have hre := reordered_mailAbout (List.reverse_perm twoTargets).symm
  have ha : (composed cpythonText emailConf "Tue, 14 Apr 2015 14:57:33 +0000"
      (mailAbout twoTargets)).map EmailMessage.subject =
        .ok "ALARM LOW \"test Alarm\" for Host: web1 Target: a" := by decide +kernel
  have hb : (composed cpythonText emailConf "Tue, 14 Apr 2015 14:57:33 +0000"
      (mailAbout twoTargets.reverse)).map EmailMessage.subject =
        .ok "ALARM LOW \"test Alarm\" for Host: web1 Target: b" := by decide +kernel
  refine ⟨hre, ha, hb, fun hfree => ?_⟩
  obtain ⟨m, hm, hsubject⟩ := map_eq_ok.mp ha
  obtain ⟨m', hm', hsubject'⟩ := map_eq_ok.mp hb
  have hsame := hfree _ m m' hre hm hm'
  rw [hsubject, hsubject'] at hsame
  revert hsame
  decide

end MonascaNotification.EmailNotifier
