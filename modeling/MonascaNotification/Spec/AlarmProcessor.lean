import MonascaNotification.Infra.Except
import MonascaNotification.Model.AlarmProcessor

/-!
# What `to_notification` returns

The runs of `toNotification` that the engines build on: the effects it performs, and the
notifications it returns, which come from one row each of one answer of the repository.
-/

namespace MonascaNotification.AlarmProcessor

open Infra Prog

variable {P : Platform} {conf : Config}

/-! ## Effects -/

/-- The validation asks for the time, and for nothing else. -/
theorem asks_alarmIsValid (alarm : Json) :
    Uses (fun e => e = .time) (alarmIsValid P conf alarm) := by
  unfold alarmIsValid
  refine uses_bind (by simp) fun actionsEnabled => ?_
  split
  · trivial
  · refine uses_bind ⟨rfl, fun _ => trivial⟩ fun now => uses_bind (by simp) fun timestamp => ?_
    refine uses_bind (by simp) fun seconds => ?_
    split
    · exact uses_bind (by simp) fun _ => trivial
    · trivial

theorem uses_alarmIsValid (alarm : Json) : Uses Effect.Silent (alarmIsValid P conf alarm) :=
  (asks_alarmIsValid alarm).mono fun e he => by
    rw [he]
    trivial

theorem uses_buildNotification (alarm : Json) :
    Uses Effect.Silent (buildNotification P alarm) := by
  refine ⟨trivial, fun answer => uses_bind (by simp) fun notifications => ?_⟩
  split <;> trivial

theorem uses_toNotification (rawAlarm : RawAlarm) :
    Uses Effect.Silent (toNotification P conf rawAlarm) := by
  unfold toNotification
  split
  · exact uses_bind (Py.uses_increment _ _) fun _ => trivial
  · refine uses_bind (uses_alarmIsValid _) fun valid => ?_
    split
    · exact uses_bind (Py.uses_increment _ _) fun _ => trivial
    · refine uses_bind (Py.uses_retryOnDatabaseException (uses_buildNotification _)) fun ns => ?_
      split
      · exact uses_bind (Py.uses_increment _ _) fun _ => trivial
      · exact uses_bind (Py.uses_increment _ _) fun _ => trivial

/-! ## Results -/

/-- `ns` holds, in order, the notification of each row for this alarm. -/
def BuiltFrom (alarm : Json) (rows : List ActionRow) (ns : List (Notification P)) : Prop :=
  List.Forall₂ (fun row n =>
    Notification.init P row.id (.str row.type) row.name row.address row.period (.int 0) alarm
      = .ok n) rows ns

/-- Every notification is for the alarm, has not been retried, and has a string as its type. -/
theorem BuiltFrom.of_mem {alarm : Json} {rows : List ActionRow} {ns : List (Notification P)}
    (h : BuiltFrom alarm rows ns) {n : Notification P} (hn : n ∈ ns) :
    n.rawAlarm = alarm ∧ n.retryCount = .int 0 ∧ ∃ row ∈ rows, n.id = row.id ∧
      n.type = .str row.type ∧ n.period = row.period := by
  induction h with
  | nil => cases hn
  | cons hrow _ ih =>
    rcases List.mem_cons.mp hn with rfl | hn
    · obtain ⟨hid, htype, -, -, hperiod, hcount, hraw, -⟩ := Notification.init_eq_ok hrow
      exact ⟨hraw, hcount, _, List.mem_cons_self, hid, htype, hperiod⟩
    · obtain ⟨hraw, hcount, row, hrow', hrest⟩ := ih hn
      exact ⟨hraw, hcount, row, List.mem_cons_of_mem _ hrow', hrest⟩

theorem BuiltFrom.map_id {alarm : Json} {rows : List ActionRow} {ns : List (Notification P)}
    (h : BuiltFrom alarm rows ns) : ns.map (·.id) = rows.map (·.id) := by
  induction h with
  | nil => rfl
  | cons hrow _ ih =>
    obtain ⟨hid, -⟩ := Notification.init_eq_ok hrow
    rw [List.map_cons, List.map_cons, ih, hid]

theorem runs_buildNotification {alarm : Json} {tr : PyTrace P} {ns : List (Notification P)}
    (h : Runs (buildNotification P alarm) tr (.ok ns)) :
    ∃ rows, tr = [⟨.fetchNotifications alarm, (⟨rows, none⟩ : RowStream)⟩] ∧
      BuiltFrom alarm rows ns := by
  obtain ⟨answer, tr', rfl, h⟩ := h
  obtain ⟨tr₁, tr₂, ns', rfl, h₁, h₂⟩ := runs_bind_ok.mp h
  rw [runs_ofExcept] at h₁
  obtain ⟨rfl, h₁⟩ := h₁
  obtain ⟨rows, failure⟩ := answer
  cases failure with
  | some x => exact absurd h₂.2 (by simp)
  | none =>
    obtain ⟨rfl, h₂⟩ := h₂
    cases h₂
    exact ⟨rows, rfl, mapM_eq_ok h₁.symm⟩

/--
**What `to_notification` returns.** A non-empty list is built, row by row, from an answer that
the repository gave for the parsed alarm.
-/
theorem runs_toNotification {rawAlarm : RawAlarm} {tr : PyTrace P} {ns : List (Notification P)}
    {p o : Nat} (h : Runs (toNotification P conf rawAlarm) tr (.ok (ns, p, o))) (hne : ns ≠ []) :
    ∃ alarm rows, parseAlarm P rawAlarm.value = .ok alarm ∧
      (⟨.fetchNotifications alarm, (⟨rows, none⟩ : RowStream)⟩ : PyEvent P) ∈ tr ∧
      BuiltFrom alarm rows ns := by
  unfold toNotification at h
  split at h
  · -- the message does not parse: the list is empty
    obtain ⟨-, -, -, -, -, -, h⟩ := runs_bind_ok.mp h
    cases h
    exact absurd rfl hne
  · next alarm hparse =>
    obtain ⟨tr₁, tr₂, valid, rfl, -, h⟩ := runs_bind_ok.mp h
    split at h
    · obtain ⟨-, -, -, -, -, -, h⟩ := runs_bind_ok.mp h
      cases h
      exact absurd rfl hne
    · obtain ⟨tr₃, tr₄, ns', rfl, hbuild, h⟩ := runs_bind_ok.mp h
      have hns : ns' = ns := by
        split at h
        · obtain ⟨-, -, -, -, -, -, h⟩ := runs_bind_ok.mp h
          cases h
          exact absurd rfl hne
        · obtain ⟨-, -, -, -, -, -, h⟩ := runs_bind_ok.mp h
          cases h
          rfl
      subst hns
      rcases Py.runs_retryOnDatabaseException.mp hbuild with ⟨h₁, -⟩ | ⟨tr₅, tr₆, rfl, -, h₁⟩
      · obtain ⟨rows, rfl, hb⟩ := runs_buildNotification h₁
        exact ⟨alarm, rows, hparse, by simp, hb⟩
      · obtain ⟨rows, rfl, hb⟩ := runs_buildNotification h₁
        exact ⟨alarm, rows, hparse, by simp, hb⟩

/-! ## Which alarms are reported -/

/-- The alarm is enabled and, at this time, not older than the ttl. -/
def ReportedAt (P : Platform) (conf : Config) (alarm : Json) (now : Rat) : Prop :=
  ∃ actionsEnabled timestamp seconds, alarm.getItem "actionsEnabled" = .ok actionsEnabled ∧
    actionsEnabled.truthy = true ∧ alarm.getItem "timestamp" = .ok timestamp ∧
    timestamp.divByInt P 1000 = .ok seconds ∧
    olderThanTtl conf (P.sub (.fin now) seconds) = false

theorem runs_alarmIsValid_true {alarm : Json} {tr : PyTrace P}
    (h : Runs (alarmIsValid P conf alarm) tr (.ok true)) :
    ∃ now, tr = [⟨.time, now⟩] ∧ ReportedAt P conf alarm now := by
  unfold alarmIsValid at h
  replace h := runs_bind_ok.mp h
  obtain ⟨tr₁, tr₂, actionsEnabled, rfl, h₁, h⟩ := h
  obtain ⟨rfl, henabled⟩ := runs_ofExcept.mp h₁
  split at h
  · cases h.2
  · next htrue =>
    replace h := runs_bind_ok.mp h
    obtain ⟨tr₃, tr₄, now, rfl, ⟨_, _, rfl, rfl, hnow⟩, h⟩ := h
    cases hnow
    replace h := runs_bind_ok.mp h
    obtain ⟨tr₅, tr₆, timestamp, rfl, h₁, h⟩ := h
    obtain ⟨rfl, htimestamp⟩ := runs_ofExcept.mp h₁
    replace h := runs_bind_ok.mp h
    obtain ⟨tr₇, tr₈, seconds, rfl, h₁, h⟩ := h
    obtain ⟨rfl, hseconds⟩ := runs_ofExcept.mp h₁
    split at h
    · obtain ⟨_, _, _, -, -, h⟩ := runs_bind_ok.mp h
      cases h.2
    · next hyoung =>
      obtain ⟨rfl, -⟩ := h
      exact ⟨now, rfl, actionsEnabled, timestamp, seconds, henabled.symm, by simpa using htrue,
        htimestamp.symm, hseconds.symm, by simpa using hyoung⟩

/-- A non-empty list is for an alarm that is reported at a time that was read. -/
theorem reportedAt_of_runs_toNotification {rawAlarm : RawAlarm} {tr : PyTrace P}
    {ns : List (Notification P)} {p o : Nat}
    (h : Runs (toNotification P conf rawAlarm) tr (.ok (ns, p, o))) (hne : ns ≠ [])
    {alarm : Json} (hparse : parseAlarm P rawAlarm.value = .ok alarm) :
    ∃ now, (⟨.time, now⟩ : PyEvent P) ∈ tr ∧ ReportedAt P conf alarm now := by
  unfold toNotification at h
  rw [hparse] at h
  dsimp only at h
  replace h := runs_bind_ok.mp h
  obtain ⟨tr₁, tr₂, valid, rfl, hvalid, h⟩ := h
  split at h
  · obtain ⟨-, -, -, -, -, -, h⟩ := runs_bind_ok.mp h
    cases h
    exact absurd rfl hne
  · next htrue =>
    obtain rfl : valid = true := by simpa using htrue
    obtain ⟨now, rfl, hreported⟩ := runs_alarmIsValid_true hvalid
    exact ⟨now, by simp, hreported⟩

/-! ## What is counted -/

theorem uses_build_notCounts (alarm : Json) :
    Uses (fun e => ¬ e.Counts) (Py.retryOnDatabaseException (buildNotification P alarm)) := by
  refine Py.uses_retryOnDatabaseException ⟨fun h => h, fun answer => uses_bind (by simp) ?_⟩
  intro notifications
  split <;> trivial

/-- One increment at the end: of the alarms without notifications, or of what was created. -/
theorem runs_toNotification_counts {rawAlarm : RawAlarm} {tr : PyTrace P}
    {ns : List (Notification P)} {p o : Nat}
    (h : Runs (toNotification P conf rawAlarm) tr (.ok (ns, p, o))) :
    ∃ tr' name value, tr = tr' ++ [⟨.increment name value, ()⟩] ∧ (∀ ev ∈ tr', ¬ ev.1.Counts) ∧
      (ns = [] ∧ value = 1 ∧
          (name = "alarms_failed_parse_count" ∨ name = "alarms_no_notification_count") ∨
        ns ≠ [] ∧ name = "created_count" ∧ value = ns.length) := by
  have hincrement : ∀ {name value} {ns' : List (Notification P)} {p' o' : Nat} {tr : PyTrace P},
      Runs (do Py.increment name value; return (ns', p', o')) tr (.ok (ns, p, o)) →
        tr = [⟨.increment name value, ()⟩] ∧ ns' = ns := by
    rintro name value ns' p' o' tr ⟨_, _, rfl, rfl, h⟩
    cases h
    exact ⟨rfl, rfl⟩
  unfold toNotification at h
  split at h
  · obtain ⟨rfl, rfl⟩ := hincrement h
    exact ⟨[], _, _, rfl, by simp, Or.inl ⟨rfl, rfl, Or.inl rfl⟩⟩
  · obtain ⟨tr₁, tr₂, valid, rfl, hvalid, h⟩ := runs_bind_ok.mp h
    have hasks : ∀ ev ∈ tr₁, ¬ ev.1.Counts := fun ev hev => by
      rw [(asks_alarmIsValid _).runs hvalid ev hev]
      exact id
    split at h
    · obtain ⟨rfl, rfl⟩ := hincrement h
      exact ⟨tr₁, _, _, rfl, hasks, Or.inl ⟨rfl, rfl, Or.inr rfl⟩⟩
    · obtain ⟨tr₃, tr₄, ns', rfl, hbuild, h⟩ := runs_bind_ok.mp h
      have hbuild : ∀ ev ∈ tr₃, ¬ ev.1.Counts :=
        (uses_build_notCounts _).runs hbuild
      have hboth : ∀ ev ∈ tr₁ ++ tr₃, ¬ ev.1.Counts := fun ev hev =>
        (List.mem_append.mp hev).elim (hasks ev) (hbuild ev)
      split at h
      · next hzero =>
        obtain ⟨rfl, rfl⟩ := hincrement h
        exact ⟨tr₁ ++ tr₃, _, _, (List.append_assoc _ _ _).symm, hboth,
          Or.inl ⟨rfl, rfl, Or.inr rfl⟩⟩
      · next hpos =>
        obtain ⟨rfl, rfl⟩ := hincrement h
        exact ⟨tr₁ ++ tr₃, _, _, (List.append_assoc _ _ _).symm, hboth,
          Or.inr ⟨fun hnil => hpos (by simp [hnil]), rfl, rfl⟩⟩

end MonascaNotification.AlarmProcessor
