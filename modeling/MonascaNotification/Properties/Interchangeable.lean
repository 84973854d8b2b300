import Mathlib.Data.List.TakeWhile
import MonascaNotification.Infra.Except
import MonascaNotification.Spec.Drivers

/-!
# Interchangeable drivers

Do the three drivers give the same results, and leave the same table after an insert?

psycopg2 takes the bare string that `PostgresqlRepo` passes for a sequence of characters, so an
identifier must be one character long. An insert of several names that meets a duplicate
leaves all, or none, or the first ones. `interchangeable_iff` puts both into one condition on the
input.
-/

namespace MonascaNotification

open Infra Prog

/-- The same for every two drivers, whatever the order of their servers, connected or not. -/
def Driver.Agree {α : Type} (f : Driver → Server → Bool → α) : Prop :=
  ∀ D D' S S' connected connected', f D S connected = f D' S' connected'

/-- The drivers give the same results and leave the same `notification_method_type`. -/
structure Interchangeable (P : Platform) (db : Database) (alarm : Json)
    (alarmId methodId : String) (types : List String) : Prop where
  fetchNotifications : Driver.Agree fun D S connected =>
    unordered (((D.fetchNotifications P alarm).comprehension .ok).run (DbEffect.sem D.library S)
      (.healthy db connected)).1
  getAlarmCurrentState : Driver.Agree fun D S connected =>
    ((D.getAlarmCurrentState (.str alarmId)).run (DbEffect.sem D.library S)
      (.healthy db connected)).1
  getNotification : Driver.Agree fun D S connected =>
    ((D.getNotification P (.str methodId)).run (DbEffect.sem D.library S)
      (.healthy db connected)).1
  fetchNotificationMethodTypes : Driver.Agree fun D S connected =>
    unordered (D.fetchNotificationMethodTypes.run (DbEffect.sem D.library S)
      (.healthy db connected)).1
  insertNotificationMethodTypes : Driver.Agree fun D S connected =>
    (((D.insertNotificationMethodTypes types).run (DbEffect.sem D.library S)
      (.healthy db connected)).2.db.notificationMethodType : Multiset String)

variable {P : Platform} {db : Database} {alarm : Json} {alarmId methodId : String}
  {types : List String}

/-! ## The two queries of several rows -/

/-- The type column of an action row is all that can fail. -/
theorem actionRow_error {definition state : Json} {row : Row}
    (hrow : row ∈ db.query .findAlarmAction [definition, state]) {x : PyExn}
    (h : actionRow P row = .error x) : x = .attributeError := by
  obtain ⟨aa, -, hrow⟩ := List.mem_flatMap.mp hrow
  obtain ⟨nm, -, rfl⟩ := List.mem_map.mp hrow
  unfold actionRow lower at h
  split at h
  · next heq =>
    cases heq
    split at h
    · cases h
    · cases h
      rfl
  · next hne => exact absurd rfl (hne _ _ _ _ _ _)

theorem unordered_actions (S S' : Server) :
    unordered (Gen.consume .ok (db.actions P S alarm)) =
      unordered (Gen.consume .ok (db.actions P S' alarm)) := by
  rw [Database.consume_actions, Database.consume_actions]
  cases alarm.getItem "alarmDefinitionId" with
  | error x => rfl
  | ok definition =>
    cases alarm.getItem "newState" with
    | error x => rfl
    | ok state =>
      refine unordered_mapM (x := .attributeError) ((S.perm _).trans (S'.perm _).symm)
        fun row hrow x hx => ?_
      exact actionRow_error ((S.perm _).mem_iff.mp hrow) hx

theorem unordered_typeNames (S S' : Server) :
    unordered (Gen.consume .ok (db.typeNames S)) =
      unordered (Gen.consume .ok (db.typeNames S')) := by
  unfold Database.typeNames
  rw [consume_streamOf, consume_streamOf]
  refine unordered_mapM (x := .indexError) ((S.perm _).trans (S'.perm _).symm)
    fun row hrow x hx => ?_
  obtain ⟨name, -, rfl⟩ := List.mem_map.mp ((S.perm _).mem_iff.mp hrow)
  cases hx

theorem agree_fetchNotifications : Driver.Agree fun D S connected =>
    unordered (((D.fetchNotifications P alarm).comprehension .ok).run (DbEffect.sem D.library S)
      (.healthy db connected)).1 := by
  intro D D' S S' connected connected'
  dsimp only
  rw [D.run_fetchNotifications, D'.run_fetchNotifications]
  exact unordered_actions S S'

theorem agree_fetchNotificationMethodTypes : Driver.Agree fun D S connected =>
    unordered (D.fetchNotificationMethodTypes.run (DbEffect.sem D.library S)
      (.healthy db connected)).1 := by
  intro D D' S S' connected connected'
  dsimp only
  rw [D.run_fetchNotificationMethodTypes, D'.run_fetchNotificationMethodTypes]
  exact unordered_typeNames S S'

/-! ## The two queries by identifier -/

theorem Driver.bare_of_length {s : String} (hs : s.length = 1) (D : Driver) :
    D.bare s = .ok [.str s] := if_neg fun h => h.2 hs

theorem Driver.postgresql_bare {s : String} (hs : s.length ≠ 1) :
    Driver.postgresql.bare s = .error .typeError := if_pos ⟨rfl, hs⟩

theorem agree_getAlarmCurrentState :
    (Driver.Agree fun D S connected =>
      ((D.getAlarmCurrentState (.str alarmId)).run (DbEffect.sem D.library S)
        (.healthy db connected)).1) ↔ alarmId.length = 1 := by
  simp only [Driver.Agree, Driver.run_getAlarmCurrentState]
  constructor
  · intro h
    by_contra hlen
    have hne := h .mysql .postgresql ⟨id, fun _ => .rfl⟩ ⟨id, fun _ => .rfl⟩ true true
    rw [Driver.postgresql_bare hlen] at hne
    cases hne
  · intro hlen D D' _ _ _ _
    rw [D.bare_of_length hlen, D'.bare_of_length hlen]

theorem agree_getNotification :
    (Driver.Agree fun D S connected =>
      ((D.getNotification P (.str methodId)).run (DbEffect.sem D.library S)
        (.healthy db connected)).1) ↔ methodId.length = 1 := by
  simp only [Driver.Agree, Driver.run_getNotification]
  constructor
  · intro h
    by_contra hlen
    have hne := h .mysql .postgresql ⟨id, fun _ => .rfl⟩ ⟨id, fun _ => .rfl⟩ true true
    rw [Driver.postgresql_bare hlen] at hne
    cases Driver.method_error (P := P) hne
  · intro hlen D D' _ _ _ _
    rw [D.bare_of_length hlen, D'.bare_of_length hlen]

/-! ## The insert -/

/-- Every driver inserts the same: nothing, as the first name is there, or all the names. -/
theorem inserted_eq {table : List String}
    (h : (∃ name ∈ types.head?, name ∈ table) ∨
      ∀ name ∈ types, name ∉ table ∧ name.length = 1) (D D' : Driver) :
    D.inserted table types = D'.inserted table types := by
  have hsame : ∀ l : List String, (∀ D : Driver, D.inserted table types = l) →
      D.inserted table types = D'.inserted table types := fun l hl => by rw [hl D, hl D']
  rcases h with ⟨name, hname, hmem⟩ | hall
  · obtain ⟨names, rfl⟩ : ∃ names, types = name :: names := by
      cases types with
      | nil => cases hname
      | cons other names =>
        cases hname
        exact ⟨names, rfl⟩
    refine hsame [] fun D => ?_
    cases D with
    | mysql => exact if_neg fun h => h name (List.mem_cons_self ..) hmem
    | postgresql =>
      show List.takeWhile _ _ = _
      rw [List.takeWhile_cons_of_neg (by simp [hmem])]
    | orm =>
      show List.takeWhile _ _ = _
      rw [List.takeWhile_cons_of_neg (by simp [hmem])]
  · refine hsame types fun D => ?_
    cases D with
    | mysql => exact if_pos fun name hname => (hall name hname).1
    | postgresql =>
      exact List.takeWhile_eq_self_iff.mpr fun name hname => decide_eq_true (hall name hname)
    | orm =>
      exact List.takeWhile_eq_self_iff.mpr fun name hname => decide_eq_true (hall name hname).1

/-- Nothing else makes them insert the same number of names. -/
theorem of_inserted_length {table : List String}
    (h : ∀ D D' : Driver, (D.inserted table types).length = (D'.inserted table types).length) :
    (∃ name ∈ types.head?, name ∈ table) ∨
      ∀ name ∈ types, name ∉ table ∧ name.length = 1 := by
  by_cases hnew : ∀ name ∈ types, name ∉ table
  · -- `MysqlRepo` inserts all, so `PostgresqlRepo` binds all
    have hlen := h .postgresql .mysql
    unfold Driver.inserted at hlen
    simp only [if_pos hnew] at hlen
    have hall := (List.takeWhile_prefix _).eq_of_length hlen
    rw [List.takeWhile_eq_self_iff] at hall
    exact Or.inr fun name hname => of_decide_eq_true (hall name hname)
  · -- `MysqlRepo` inserts none, so `OrmRepo` stops at the first
    have hlen := h .orm .mysql
    unfold Driver.inserted at hlen
    simp only [if_neg hnew] at hlen
    cases types with
    | nil => exact absurd (fun _ h => absurd h List.not_mem_nil) hnew
    | cons name names =>
      by_cases hname : name ∈ table
      · exact Or.inl ⟨name, rfl, hname⟩
      · rw [List.takeWhile_cons_of_pos (by simpa using hname)] at hlen
        cases hlen

theorem agree_insertNotificationMethodTypes (hnodup : types.Nodup) :
    (Driver.Agree fun D S connected =>
      (((D.insertNotificationMethodTypes types).run (DbEffect.sem D.library S)
        (.healthy db connected)).2.db.notificationMethodType : Multiset String)) ↔
      (∃ name ∈ types.head?, name ∈ db.notificationMethodType) ∨
        ∀ name ∈ types, name ∉ db.notificationMethodType ∧ name.length = 1 := by
  have htable : ∀ (D : Driver) (S : Server) (connected : Bool),
      ((D.insertNotificationMethodTypes types).run (DbEffect.sem D.library S)
        (.healthy db connected)).2.db.notificationMethodType =
        db.notificationMethodType ++ D.inserted db.notificationMethodType types := by
    intro D S connected
    obtain ⟨out, db', hrun, htable⟩ :=
      D.run_insertNotificationMethodTypes S db hnodup connected
    rw [hrun]
    exact htable
  simp only [Driver.Agree, htable]
  constructor
  · refine fun h => of_inserted_length fun D D' => ?_
    have hcard := congrArg Multiset.card (h D D' ⟨id, fun _ => .rfl⟩ ⟨id, fun _ => .rfl⟩ true true)
    rw [Multiset.coe_card, Multiset.coe_card, List.length_append, List.length_append] at hcard
    omega
  · intro h D D' _ _ _ _
    rw [inserted_eq h D D']

/-! ## The condition -/

/--
**When the drivers are interchangeable.** The two identifiers are one character long, and the
names to insert either start with one that is there already, or are all new and one character long.
-/
theorem interchangeable_iff (hnodup : types.Nodup) :
    Interchangeable P db alarm alarmId methodId types ↔
      alarmId.length = 1 ∧ methodId.length = 1 ∧
        ((∃ name ∈ types.head?, name ∈ db.notificationMethodType) ∨
          ∀ name ∈ types, name ∉ db.notificationMethodType ∧ name.length = 1) := by
  constructor
  · intro h
    exact ⟨agree_getAlarmCurrentState.mp h.getAlarmCurrentState,
      agree_getNotification.mp h.getNotification,
      (agree_insertNotificationMethodTypes hnodup).mp h.insertNotificationMethodTypes⟩
  · rintro ⟨halarm, hmethod, htypes⟩
    exact {
      fetchNotifications := agree_fetchNotifications
      getAlarmCurrentState := agree_getAlarmCurrentState.mpr halarm
      getNotification := agree_getNotification.mpr hmethod
      fetchNotificationMethodTypes := agree_fetchNotificationMethodTypes
      insertNotificationMethodTypes := (agree_insertNotificationMethodTypes hnodup).mpr htypes }

open Deployment in
/-- One character everywhere: the drivers agree on the deployment. -/
theorem interchangeable_iff_short :
    Interchangeable cpython database (Deployment.alarm "OK" "ALARM") "1" "1" ["A", "B"] :=
  (interchangeable_iff (by decide)).mpr ⟨by decide, by decide, Or.inr (by decide)⟩

/-! ## An ordinary identifier -/

open Deployment in
/-- The method with the identifier `10` is there, and psycopg2 is given `1` and `0`. -/
theorem not_interchangeable :
    ¬ Interchangeable cpython database (Deployment.alarm "OK" "ALARM") "1" "10" [] := by
  intro h
  have hsame := h.getNotification .mysql .postgresql server server true true
  dsimp only at hsame
  rw [Driver.run_getNotification, Driver.run_getNotification,
    Driver.postgresql_bare (by decide)] at hsame
  have hmethod : database.method cpython "10" = .error .typeError := hsame
  cases Driver.method_error hmethod

end MonascaNotification
