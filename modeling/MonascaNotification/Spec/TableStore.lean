import Mathlib.Data.List.Nodup
import MonascaNotification.Infra.Except
import MonascaNotification.Spec.Drivers

/-!
# The store behind the tables

A `Store` is what the engines are said to read. Here it is computed from the tables
(`Database.store`). An alarm has no action twice, since the actions have a primary key.
-/

namespace MonascaNotification

open Infra Prog

variable {P : Platform} {S : Server} {db : Database} {D : Driver}

/-! ## The identifiers of the actions -/

/-- The keys of what a loop yields are the first keys of its rows. -/
theorem streamOf_keys {Y κ : Type} {f : Row → Except PyExn Y} {key : Y → κ} {column : Row → κ}
    (h : ∀ row y, f row = .ok y → key y = column row) (rows : List Row) :
    (streamOf f rows).1.map key <+: rows.map column := by
  induction rows with
  | nil => exact List.prefix_rfl
  | cons row rows ih =>
    unfold streamOf
    cases hrow : f row with
    | error x => exact List.nil_prefix
    | ok y =>
      rw [List.map_cons, ← h row y hrow]
      exact List.cons_prefix_cons.mpr ⟨rfl, ih⟩

theorem actionRow_id {row : Row} {y : ActionRow} (h : actionRow P row = .ok y) :
    y.id = row.headD .null := by
  unfold actionRow at h
  split at h
  · obtain ⟨type, -, h⟩ := bind_eq_ok.mp h
    cases h
    rfl
  · cases h

namespace Database

/-- The methods of one action: there is at most one. -/
theorem methods_nodup (aa : AlarmAction) :
    ((db.notificationMethod.filter fun nm => aa.actionId = nm.id).map
      fun nm => Json.str nm.id).Nodup := by
  have hrows : (db.notificationMethod.filter fun nm => aa.actionId = nm.id) =
      (db.notificationMethod.find? fun nm => nm.id = aa.actionId).toList := by
    rw [← filter_key_eq MethodRow.id db.method_nodup aa.actionId]
    simp only [eq_comm]
  rw [hrows]
  cases db.notificationMethod.find? fun nm => decide (nm.id = aa.actionId) with
  | none => exact List.nodup_nil
  | some nm => exact List.nodup_singleton _

/-- No method is reported twice for one alarm. -/
theorem ids_nodup (definition state : Json) :
    ((db.query .findAlarmAction [definition, state]).map fun row => row.headD .null).Nodup := by
  unfold query
  rw [List.map_flatMap]
  simp only [List.map_map]
  rw [List.nodup_flatMap]
  refine ⟨fun aa _ => db.methods_nodup aa, ?_⟩
  refine (db.action_nodup.filter _).pairwise_of_forall_ne fun aa haa aa' haa' hne => ?_
  rw [List.mem_filter, decide_eq_true_eq] at haa haa'
  -- two actions of the same alarm definition and state have different methods
  intro id hid hid'
  obtain ⟨nm, hnm, rfl⟩ := List.mem_map.mp hid
  obtain ⟨nm', hnm', heq⟩ := List.mem_map.mp hid'
  rw [List.mem_filter, decide_eq_true_eq] at hnm hnm'
  have hids : nm'.id = nm.id := Json.str.inj heq
  refine hne ?_
  obtain ⟨action, adef, astate⟩ := aa
  obtain ⟨action', adef', astate'⟩ := aa'
  have hdef : Json.str adef = .str adef' := haa.2.1.trans haa'.2.1.symm
  have hstate : Json.str astate = .str astate' := haa.2.2.trans haa'.2.2.symm
  have haction : action = action' := hnm.2.trans (hids.symm.trans hnm'.2.symm)
  cases hdef
  cases hstate
  rw [haction]

theorem actions_nodup (alarm : Json) : ((db.actions P S alarm).1.map (·.id)).Nodup := by
  unfold actions
  cases alarm.getItem "alarmDefinitionId" with
  | error x => exact List.nodup_nil
  | ok definition =>
    cases alarm.getItem "newState" with
    | error x => exact List.nodup_nil
    | ok state =>
      have hkeys : ∀ row (y : ActionRow), actionRow P row = .ok y → y.id = row.headD .null :=
        fun _ _ => actionRow_id
      refine (streamOf_keys hkeys _).sublist.nodup ?_
      exact ((S.perm _).map _).nodup_iff.mpr (db.ids_nodup definition state)

/-! ## The store -/

/-- The method that `get_notification` returns, its type in lower case. -/
def storedMethod (P : Platform) (db : Database) (id : String) : Option StoredMethod :=
  (db.notificationMethod.find? fun nm => nm.id = id).bind fun nm =>
    match nm.type with
    | .str type => some ⟨nm.name, P.lower type, nm.address, nm.period⟩
    | _ => none

/-- What the engines read from the tables. -/
def store (P : Platform) (S : Server) (db : Database) : Store where
  notifications := fun alarm => (db.actions P S alarm).1
  method := fun
    | .str id => db.storedMethod P id
    | _ => none
  alarmState := fun
    | .str id => db.currentState id
    | _ => none
  ids_nodup := db.actions_nodup

/-- Every method has a type. -/
def Typed (db : Database) : Prop := ∀ nm ∈ db.notificationMethod, ∃ type, nm.type = .str type

end Database

end MonascaNotification
