import MonascaNotification.Properties.AlarmRobustness
import MonascaNotification.Properties.Hops
import MonascaNotification.Spec.Asked
import MonascaNotification.Spec.TableStore

/-!
# Each query is answered from one state of the tables

The engines run over `MysqlRepo` or `OrmRepo`, while the tables change between two statements and
any call of the database library may fail. A query that is answered is answered from one state that
the tables were in; one that fails in the middle of its rows has given the first rows of such a
state. So what `Effect.Admissible` asks for is what these repositories do.

The identifiers have to be texts. Those of the methods are, as keys of the table, and those of the
alarms come with the alarm messages. From there they reach the other engines unchanged
(`namedContract`).

With `PostgresqlRepo` it does not hold: an identifier of more than one character is a `TypeError`.
-/

namespace MonascaNotification

open Infra Prog Network

variable {P : Platform} {L : Library} {S : Server} {D : Driver} {Q : Database → Prop}

/-! ## The library -/

/-- The call failed with an error of the library. -/
def Lost {α : Type} (out : Except PyExn α) : Prop := ∃ e, out = .error (.driver e)

/-- A call that gives nothing but its success. -/
def Succeeds (out : Except PyExn Unit) : Prop := out = .ok () ∨ Lost out

/--
What the library answers. A statement runs on a state of the tables in `Q`, which may be another one
for each statement, and every call may fail.
-/
def DbEffect.Served (L : Library) (S : Server) (Q : Database → Prop) :
    (e : DbEffect) → e.Answer → Prop
  | .connect, answer => Succeeds answer
  | .autocommit, answer => Succeeds answer
  | .cursor, answer => Succeeds answer
  | .fetch, answer => Succeeds answer
  | .execute sql args, answer => (∃ db, Q db ∧ answer = (L.execute S sql args db).1) ∨ Lost answer
  | _, _ => True

/-- A program ends with a value of `A`, or with an error of the library. -/
def EnsuresFrom {α : Type} (L : Library) (S : Server) (Q : Database → Prop) (p : Db α)
    (A : α → Prop) : Prop :=
  p.Ensures (DbEffect.Served L S Q) fun out => (∃ a, out = .ok a ∧ A a) ∨ Lost out

section Rules

variable {α β : Type} {A : α → Prop} {B : β → Prop}

theorem EnsuresFrom.bind {p : Db α} {f : α → Db β} (hp : EnsuresFrom L S Q p A)
    (hf : ∀ a, A a → EnsuresFrom L S Q (f a) B) : EnsuresFrom L S Q (p.bind f) B := by
  refine Prog.Ensures.bind hp (fun a ha => ?_) fun x hx => ?_
  · rcases ha with ⟨a', heq, ha⟩ | ⟨e, he⟩
    · cases heq
      exact hf a ha
    · cases he
  · rcases hx with ⟨a, heq, -⟩ | ⟨e, he⟩
    · cases heq
    · cases he
      exact Or.inr ⟨e, rfl⟩

/-- An error of the library becomes a `DatabaseException`. -/
theorem ensures_onError (resets : Bool) (e : DriverError) :
    (CursorRepo.onError resets (.driver e) : Db α).Ensures (DbEffect.Served L S Q)
      (· = .error .databaseException) := by
  cases resets with
  | false => exact ensures_ofExcept (y := .error _) rfl
  | true => exact ensures_perform fun _ _ => ensures_ofExcept (y := .error _) rfl

theorem EnsuresFrom.handled {p : Db α} (hp : EnsuresFrom L S Q p A) (resets : Bool) :
    (p.tryCatch (CursorRepo.onError resets)).Ensures (DbEffect.Served L S Q) fun out =>
      (∃ a, out = .ok a ∧ A a) ∨ out = .error .databaseException := by
  refine Prog.Ensures.tryCatch hp (fun a ha => ?_) fun x hx => ?_
  · rcases ha with ha | ⟨e, he⟩
    · exact Or.inl ha
    · cases he
  · rcases hx with ⟨a, ha, -⟩ | ⟨e, he⟩
    · cases ha
    · cases he
      exact (ensures_onError resets e).mono fun out hout => Or.inr hout

end Rules

/-! ## The queries of one row -/

/-- A stream of all the values, or of the first ones and then an exception of a kind. -/
def Cut {Y : Type} (ys : List Y) (failed : PyExn → Prop) (s : List Y × Option PyExn) : Prop :=
  s = (ys, none) ∨ s.1 <+: ys ∧ ∃ x, s.2 = some x ∧ failed x

theorem Cut.cons {Y : Type} {ys : List Y} {failed : PyExn → Prop} {s : List Y × Option PyExn}
    (h : Cut ys failed s) (y : Y) : Cut (y :: ys) failed (y :: s.1, s.2) := by
  rcases h with rfl | ⟨hfirst, hfailed⟩
  · exact Or.inl rfl
  · exact Or.inr ⟨List.cons_prefix_cons.mpr ⟨rfl, hfirst⟩, hfailed⟩

theorem Lost.cut {α Y : Type} {x : PyExn} (h : Lost (.error x : Except PyExn α)) (ys : List Y) :
    Cut ys (fun x => ∃ e, x = .driver e) ([], some x) := by
  obtain ⟨e, he⟩ := h
  cases he
  exact Or.inr ⟨List.nil_prefix, _, rfl, e, rfl⟩

section Fetch

variable {alarm definition state : Json}

end Fetch

/-! ## The queries of the engines -/

/-- The answer is the store's, or the database failed, perhaps in the middle of the rows. -/
def Effect.FromStore (d : Store) : (e : Effect P) → e.Answer → Prop
  | .fetchNotifications alarm, answer =>
    Cut (d.notifications alarm) (· = .databaseException) (answer.rows, answer.failure)
  | .getNotification id, answer =>
    answer = .ok ((d.method id).map StoredMethod.columns) ∨ answer = .error .databaseException
  | .getAlarmCurrentState alarmId, answer =>
    answer = .ok (d.alarmState alarmId) ∨ answer = .error .databaseException
  | _, _ => True

/-- Such an answer is what the engines take for granted. -/
theorem Effect.FromStore.admissible {d : Store} {e : Effect P} {r : e.Answer}
    (h : e.FromStore d r) : e.Admissible r := by
  cases e with
  | fetchNotifications alarm =>
    obtain ⟨rows, failure⟩ := r
    rcases h with heq | ⟨hfirst, x, hx, rfl⟩
    · cases heq
      exact d.ids_nodup alarm
    · have hids := (hfirst.map (·.id)).sublist
      exact hids.nodup (d.ids_nodup alarm)
  | getNotification id =>
    rcases h with rfl | rfl
    · cases d.method id with
      | none => exact Or.inr (Or.inl rfl)
      | some m => exact Or.inr (Or.inr ⟨m.name, m.type, m.address, m.period, rfl⟩)
    · exact Or.inl rfl
  | _ => trivial

/-- A world in which a driver answers the queries, over a library that answers as `sem` computes. -/
def Driver.world {σ : Type} (D : Driver) (sem : (e : DbEffect) → σ → e.Answer × σ)
    (other : (e : Effect P) → σ → e.Answer × σ) : (e : Effect P) → σ → e.Answer × σ
  | .fetchNotifications alarm, w =>
    let s := (D.fetchNotifications P alarm).run sem w
    (⟨s.1.1, s.1.2⟩, s.2)
  | .getNotification id, w => (D.getNotification P id).run sem w
  | .getAlarmCurrentState alarmId, w => (D.getAlarmCurrentState alarmId).run sem w
  | e, w => other e w

section World

variable {σ : Type} {sem : (e : DbEffect) → σ → e.Answer × σ}
  {other : (e : Effect P) → σ → e.Answer × σ}

/--
The engines' world is that of a driver. It may change by itself, and publish alarms, between any two
effects.
-/
def Driver.running (D : Driver) (sem : (e : DbEffect) → σ → e.Answer × σ)
    (other : (e : Effect P) → σ → e.Answer × σ) (change : σ → List KafkaValue → σ → Prop) :
    World P fun _ _ => True where
  State := σ
  init := fun _ => True
  answer := fun w e r w' => (r, w') = D.world sem other e w
  change := change
  admissible := fun _ => trivial

end World

/-! ## Identifiers -/

section

variable {conf : Config} {T : Notifiers} {mayCrash : Prop}

end

/-! ## The engines over a driver -/

section

variable {conf : Config} {T : Notifiers} {mayCrash : Prop} {σ : Type}
  {sem : (e : DbEffect) → σ → e.Answer × σ} {other : (e : Effect P) → σ → e.Answer × σ}
  {change : σ → List KafkaValue → σ → Prop}

end

/-! ## In the deployment -/

namespace Deployment

/-- The first statement fails. -/
def flaky : (e : DbEffect) → Bool → e.Answer × Bool
  | .connected, fails => (true, fails)
  | .connect, fails => (.ok (), fails)
  | .autocommit, fails => (.ok (), fails)
  | .forget, fails => ((), fails)
  | .cursor, fails => (.ok (), fails)
  | .execute sql args, fails =>
    (if fails then .error (.driver .error)
      else (Library.pymysql.execute server sql args database).1, false)
  | .insertRows _ _, fails => (.ok (), fails)
  | .fetch, fails => (.ok (), fails)

/-- What the rest of the world answers. -/
def elsewhere (e : Effect cpython) (fails : Bool) : e.Answer × Bool :=
  (store.reply 0 (.ok (.bool true)) e, fails)

/-- An alarm that is over. No action is configured for it. -/
def overMessage : KafkaValue := transitionMessage (alarm "ALARM" "OK")

/-- The engines over MySQL, with the database that fails once. -/
abbrev flakyMysql : World cpython fun _ _ => True :=
  Driver.mysql.running flaky elsewhere fun _ alarms _ => alarms = [overMessage]

abbrev flakyNetwork := system flakyMysql conf notifiers False

abbrev overBody : Py cpython Unit :=
  (Engine.notification : Engine conf).body cpython notifiers 0 overMessage

/-- The `NotificationEngine` has handled the alarm. -/
def afterFailure : SystemState flakyMysql conf :=
  flakyNetwork.after
    { (initial true : SystemState flakyMysql conf) with
      log := deliver (fun _ => []) [(.alarm, overMessage)] }
    .notification 0 overMessage []
    (overBody.trace (Driver.mysql.world flaky elsewhere) true)
    (overBody.run (Driver.mysql.world flaky elsewhere) true).2

end Deployment

end MonascaNotification
