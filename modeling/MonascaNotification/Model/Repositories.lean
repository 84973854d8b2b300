import Mathlib.Data.List.Perm.Basic
import MonascaNotification.Infra.Generator
import MonascaNotification.Model.Store

/-!
# `common/repositories`

The three drivers, over the calls that they make to their database library. What the
libraries and the server do is below (`Library.bind`, `Database.query`, `Session`).

`MysqlRepo` and `PostgresqlRepo` are the same code but for two points: only the first drops its
connection when a call fails, and only the first swallows a duplicate insert.
-/

namespace MonascaNotification

open Infra

/-! ## Statements and parameters -/

/-- The statements of `BaseRepo`. `OrmRepo` builds the same from its tables. -/
inductive Sql where
  | findAlarmAction
  | findAlarmState
  | insertNotificationTypes
  | findAllNotificationTypes
  | getNotification
  deriving DecidableEq

/-- The placeholders in their order, under the names of `OrmRepo`. -/
def Sql.params : Sql → List String
  | .findAlarmAction => ["alarm_definition_id", "alarm_state"]
  | .findAlarmState => ["alarm_id"]
  | .insertNotificationTypes => ["b_name"]
  | .findAllNotificationTypes => []
  | .getNotification => ["notification_id"]

/-- The parameter argument of an `execute`. -/
inductive Args where
  | none
  | bare (v : Json)
  | tuple (vs : List Json)
  | named (kvs : List (String × Json))

/-- A row of a result. -/
abbrev Row := List Json

/-! ## The calls -/

inductive DbEffect where
  /-- The test `self._mysql is None`, negated. -/
  | connected
  | connect
  | autocommit
  /-- `self._mysql = None` -/
  | forget
  | cursor
  | execute (sql : Sql) (args : Args)
  /-- One insert of several rows. -/
  | insertRows (sql : Sql) (argss : List Args)
  /-- One step of a cursor: to its next row, or to its end. -/
  | fetch

@[reducible] def DbEffect.Answer : DbEffect → Type
  | .connected => Bool
  | .connect => Except PyExn Unit
  | .autocommit => Except PyExn Unit
  | .forget => Unit
  | .cursor => Except PyExn Unit
  | .execute _ _ => Except PyExn (List Row)
  | .insertRows _ _ => Except PyExn Unit
  | .fetch => Except PyExn Unit

abbrev Db (α : Type) := Prog DbEffect DbEffect.Answer PyExn α

abbrev DbGen (Y : Type) := Gen DbEffect DbEffect.Answer PyExn Y

namespace Db

def connect : Db Unit := .perform .connect fun (answer : Except PyExn Unit) => .ofExcept answer

def autocommit : Db Unit :=
  .perform .autocommit fun (answer : Except PyExn Unit) => .ofExcept answer

def forget : Db Unit := .perform .forget .ret

def cursor : Db Unit := .perform .cursor fun (answer : Except PyExn Unit) => .ofExcept answer

/-- `cur.execute`. The cursor is given by the rows that it will step through. -/
def execute (sql : Sql) (args : Args) : Db (List Row) :=
  .perform (.execute sql args) fun (answer : Except PyExn (List Row)) => .ofExcept answer

def fetch : Db Unit := .perform .fetch fun (answer : Except PyExn Unit) => .ofExcept answer

def fetchone (rows : List Row) : Db (Option Row) := do
  fetch
  return rows.head?

def fetchall (rows : List Row) : Db (List Row) := do
  fetch
  return rows

/-- `for row in cur: yield f(row)`. -/
def iterate {Y : Type} (f : Row → Except PyExn Y) : List Row → DbGen Y
  | [] => Gen.after fetch fun _ => .done
  | row :: rows => Gen.after (do fetch; .ofExcept (f row)) fun y => .yield y (iterate f rows)

/-- One `execute` for each element. -/
def executeEach (sql : Sql) : List Args → Db Unit
  | [] => return ()
  | args :: rest => do
    let _ ← execute sql args
    executeEach sql rest

end Db

/-! ## Rows -/

section Rows

variable (P : Platform)

/-- `v.lower()`. -/
def lower : Json → Except PyExn String
  | .str s => .ok (P.lower s)
  | _ => .error .attributeError

/-- `(row[0], row[1].lower(), row[2], row[3], row[4])` -/
def actionRow : Row → Except PyExn ActionRow
  | id :: type :: name :: address :: period :: _ => do
    let type ← lower P type
    return { id, type, name, address, period }
  | _ => .error .indexError

/-- `[row[0], row[1].lower(), row[2], row[3]]` -/
def methodRow : Row → Except PyExn (List Json)
  | name :: type :: address :: period :: _ => do
    let type ← lower P type
    return [name, .str type, address, period]
  | _ => .error .indexError

/-- `row[0]` -/
def firstColumn : Row → Except PyExn Json
  | v :: _ => .ok v
  | [] => .error .indexError

/-- A state as the engines see it: the column is an enumeration of strings, or null. -/
def stateColumn : Json → Option String
  | .str s => some s
  | _ => none

/-- `row[0] if row is not None else None` -/
def stateOf : Option Row → Except PyExn (Option String)
  | none => .ok none
  | some row => (firstColumn row).map stateColumn

/-- `None if row is None`, else the four columns. -/
def methodOf : Option Row → Except PyExn (Option (List Json))
  | none => .ok none
  | some row => (methodRow P row).map some

end Rows

/-! ## `MysqlRepo` and `PostgresqlRepo` -/

namespace CursorRepo

variable (P : Platform) (resets : Bool)

/-- Connect when there is no connection, and get a cursor. -/
def openCursor : Db Unit :=
  .perform .connected fun (connected : Bool) => do
    if !connected then
      Db.connect
      Db.autocommit
    Db.cursor

/-- `except Error as e`: with `resets`, the connection is dropped before. -/
def onError {α : Type} : PyExn → Db α
  | .driver _ => do
    if resets then Db.forget
    throw .databaseException
  | x => throw x

def fetchNotifications (alarm : Json) : DbGen ActionRow :=
  Gen.tryCatch
    (Gen.after
      (do
        openCursor
        let definition ← .ofExcept (alarm.getItem "alarmDefinitionId")
        let state ← .ofExcept (alarm.getItem "newState")
        Db.execute .findAlarmAction (.tuple [definition, state]))
      (Db.iterate (actionRow P)))
    fun x => Gen.after (onError resets x) fun (_ : Unit) => .done

def getAlarmCurrentState (alarmId : Json) : Db (Option String) :=
  Prog.tryCatch
    (do
      openCursor
      let rows ← Db.execute .findAlarmState (.bare alarmId)
      let row ← Db.fetchone rows
      .ofExcept (stateOf row))
    (onError resets)

def fetchNotificationMethodTypes : DbGen Json :=
  Gen.tryCatch
    (Gen.after
      (do
        openCursor
        Db.execute .findAllNotificationTypes .none)
      (Db.iterate firstColumn))
    fun x => Gen.after (onError resets x) fun (_ : Unit) => .done

def getNotification (notificationId : Json) : Db (Option (List Json)) :=
  Prog.tryCatch
    (do
      openCursor
      let rows ← Db.execute .getNotification (.bare notificationId)
      let row ← Db.fetchone rows
      .ofExcept (methodOf P row))
    (onError resets)

end CursorRepo

namespace MysqlRepo

variable (P : Platform)

def fetchNotifications (alarm : Json) : DbGen ActionRow :=
  CursorRepo.fetchNotifications P true alarm

def getAlarmCurrentState (alarmId : Json) : Db (Option String) :=
  CursorRepo.getAlarmCurrentState true alarmId

def fetchNotificationMethodTypes : DbGen Json := CursorRepo.fetchNotificationMethodTypes true

def getNotification (notificationId : Json) : Db (Option (List Json)) :=
  CursorRepo.getNotification P true notificationId

/-- pymysql's `executemany` sends an insert as one statement, and nothing for no rows. -/
def executemany (sql : Sql) (argss : List Args) : Db Unit :=
  match argss with
  | [] => return ()
  | argss =>
    .perform (.insertRows sql argss) fun (answer : Except PyExn Unit) => .ofExcept answer

def insertNotificationMethodTypes (notificationTypes : List String) : Db Unit :=
  Prog.tryCatch
    (do
      CursorRepo.openCursor
      executemany .insertNotificationTypes (notificationTypes.map fun t => .bare (.str t)))
    fun
      -- another instance has written the same type
      | .driver .duplicateEntry => return ()
      | .driver .integrityError => throw .databaseException
      | x => CursorRepo.onError true x

end MysqlRepo

namespace PostgresqlRepo

variable (P : Platform)

def fetchNotifications (alarm : Json) : DbGen ActionRow :=
  CursorRepo.fetchNotifications P false alarm

def getAlarmCurrentState (alarmId : Json) : Db (Option String) :=
  CursorRepo.getAlarmCurrentState false alarmId

def fetchNotificationMethodTypes : DbGen Json := CursorRepo.fetchNotificationMethodTypes false

def getNotification (notificationId : Json) : Db (Option (List Json)) :=
  CursorRepo.getNotification P false notificationId

/-- psycopg2's `executemany` executes the statement once for each element. -/
def insertNotificationMethodTypes (notificationTypes : List String) : Db Unit :=
  Prog.tryCatch
    (do
      CursorRepo.openCursor
      Db.executeEach .insertNotificationTypes (notificationTypes.map fun t => .bare (.str t)))
    (CursorRepo.onError false)

end PostgresqlRepo

/-! ## `OrmRepo` -/

namespace OrmRepo

variable (P : Platform)

/-- `with self._orm_engine.connect() as conn` inside of `try ... except DatabaseError`. -/
def withConnection {α : Type} (p : Db α) : Db α :=
  Prog.tryCatch (do Db.connect; p) (CursorRepo.onError false)

def fetchNotifications (alarm : Json) : Db (List ActionRow) :=
  withConnection do
    let definition ← .ofExcept (alarm.getItem "alarmDefinitionId")
    let state ← .ofExcept (alarm.getItem "newState")
    let rows ← Db.execute .findAlarmAction
      (.named [("alarm_definition_id", definition), ("alarm_state", state)])
    (Db.iterate (actionRow P) rows).comprehension .ok

def getAlarmCurrentState (alarmId : Json) : Db (Option String) :=
  withConnection do
    let rows ← Db.execute .findAlarmState (.named [("alarm_id", alarmId)])
    let row ← Db.fetchone rows
    .ofExcept (stateOf row)

def fetchNotificationMethodTypes : Db (List Json) :=
  withConnection do
    let rows ← Db.execute .findAllNotificationTypes .none
    let rows ← Db.fetchall rows
    .ofExcept (rows.mapM firstColumn)

def getNotification (notificationId : Json) : Db (Option (List Json)) :=
  withConnection do
    let rows ← Db.execute .getNotification (.named [("notification_id", notificationId)])
    let row ← Db.fetchone rows
    .ofExcept (methodOf P row)

def insertNotificationMethodTypes (notificationTypes : List String) : Db Unit :=
  withConnection
    (Db.executeEach .insertNotificationTypes
      (notificationTypes.map fun t => .named [("b_name", .str t)]))

end OrmRepo

/-! ## The drivers -/

/-- The values of `CONF.database.repo_driver`. -/
inductive Driver where
  | mysql
  | postgresql
  | orm
  deriving DecidableEq

namespace Driver

variable (P : Platform)

/-- A list is iterated like a generator. -/
def fetchNotifications : Driver → Json → DbGen ActionRow
  | .mysql, alarm => MysqlRepo.fetchNotifications P alarm
  | .postgresql, alarm => PostgresqlRepo.fetchNotifications P alarm
  | .orm, alarm => Gen.after (OrmRepo.fetchNotifications P alarm) Gen.ofList

def getAlarmCurrentState : Driver → Json → Db (Option String)
  | .mysql => MysqlRepo.getAlarmCurrentState
  | .postgresql => PostgresqlRepo.getAlarmCurrentState
  | .orm => OrmRepo.getAlarmCurrentState

/-- As a list: the only caller makes a set of it. -/
def fetchNotificationMethodTypes : Driver → Db (List Json)
  | .mysql => MysqlRepo.fetchNotificationMethodTypes.comprehension .ok
  | .postgresql => PostgresqlRepo.fetchNotificationMethodTypes.comprehension .ok
  | .orm => OrmRepo.fetchNotificationMethodTypes

def getNotification : Driver → Json → Db (Option (List Json))
  | .mysql => MysqlRepo.getNotification P
  | .postgresql => PostgresqlRepo.getNotification P
  | .orm => OrmRepo.getNotification P

def insertNotificationMethodTypes : Driver → List String → Db Unit
  | .mysql => MysqlRepo.insertNotificationMethodTypes
  | .postgresql => PostgresqlRepo.insertNotificationMethodTypes
  | .orm => OrmRepo.insertNotificationMethodTypes

end Driver

/-! ## The libraries -/

inductive Library where
  | pymysql
  | psycopg2
  | sqlalchemy
  deriving DecidableEq

def Driver.library : Driver → Library
  | .mysql => .pymysql
  | .postgresql => .psycopg2
  | .orm => .sqlalchemy

namespace Library

/-- The values in the parameter argument. To psycopg2 a string is the sequence of its characters. -/
def values (L : Library) (sql : Sql) : Args → Except PyExn (List Json)
  | .none => .ok []
  | .tuple vs => .ok vs
  | .named kvs => sql.params.mapM fun param =>
      match kvs.lookup param with
      | some v => .ok v
      | none => .error (.driver .error)
  -- None stands for no parameters, and the server refuses the placeholder
  | .bare .null => .error (.driver .error)
  | .bare (.arr vs) => .ok vs
  | .bare v =>
    match L, v with
    | .psycopg2, .str s => .ok (s.toList.map fun c => .str (String.singleton c))
    | .psycopg2, _ => .error .typeError
    | _, v => .ok [v]

/-- One value for each placeholder. -/
def bind (L : Library) (sql : Sql) (args : Args) : Except PyExn (List Json) := do
  let vs ← L.values sql args
  if vs.length = sql.params.length then return vs else throw .typeError

end Library

/-! ## The database -/

structure AlarmAction where
  actionId : String
  alarmDefinitionId : String
  alarmState : String
  deriving DecidableEq

structure MethodRow where
  id : String
  name : Json
  type : Json
  address : Json
  period : Json

structure AlarmRow where
  id : String
  state : Option String

/-- The four tables with their primary keys. -/
structure Database where
  alarmAction : List AlarmAction
  notificationMethod : List MethodRow
  notificationMethodType : List String
  alarm : List AlarmRow
  action_nodup : alarmAction.Nodup
  method_nodup : (notificationMethod.map (·.id)).Nodup
  type_nodup : notificationMethodType.Nodup
  alarm_nodup : (alarm.map (·.id)).Nodup

namespace Database

variable (db : Database)

/-- The rows of a query. A bound value that is no string equals no column. -/
def query : Sql → List Json → List Row
  | .findAlarmAction, [definition, state] =>
    (db.alarmAction.filter fun aa =>
        Json.str aa.alarmDefinitionId = definition ∧ Json.str aa.alarmState = state).flatMap
      fun aa => (db.notificationMethod.filter fun nm => aa.actionId = nm.id).map
        fun nm => [.str nm.id, nm.type, nm.name, nm.address, nm.period]
  | .findAlarmState, [id] =>
    (db.alarm.filter fun a => Json.str a.id = id).map fun a => [a.state.elim .null .str]
  | .findAllNotificationTypes, [] => db.notificationMethodType.map fun name => [.str name]
  | .getNotification, [id] =>
    (db.notificationMethod.filter fun nm => Json.str nm.id = id).map
      fun nm => [nm.name, nm.type, nm.address, nm.period]
  | _, _ => []

/-- A new row of `notification_method_type`, whose name is the primary key. -/
def insertType : Json → Except PyExn Database
  | .str name =>
    if h : name ∈ db.notificationMethodType then .error (.driver .duplicateEntry)
    else .ok
      { db with
        notificationMethodType := db.notificationMethodType ++ [name]
        type_nodup := by
          refine List.nodup_append.mpr ⟨db.type_nodup, by simp, ?_⟩
          intro a ha b hb heq
          rw [List.mem_singleton] at hb
          exact h (hb ▸ heq ▸ ha) }
  | _ => .error (.driver .error)

/-- Several new rows. With one that is there already, nothing is inserted. -/
def insertTypes : Database → List Json → Except PyExn Database
  | db, [] => .ok db
  | db, name :: names => do
    let db ← db.insertType name
    insertTypes db names

end Database

/-- The order in which a server returns the rows of a query is its own. -/
structure Server where
  arrange : List Row → List Row
  perm : ∀ rows, (arrange rows).Perm rows

namespace Library

variable (L : Library) (S : Server)

/-- One statement, once the connection has taken it. -/
def execute (sql : Sql) (args : Args) (db : Database) : Except PyExn (List Row) × Database :=
  match L.bind sql args with
  | .error x => (.error x, db)
  | .ok vs =>
    match sql, vs with
    | .insertNotificationTypes, [name] =>
      match db.insertType name with
      | .error x => (.error x, db)
      | .ok db' => (.ok [], db')
    | sql, vs => (.ok (S.arrange (db.query sql vs)), db)

/-- One insert of several rows. -/
def insertRows (sql : Sql) (argss : List Args) (db : Database) : Except PyExn Unit × Database :=
  match argss.mapM (L.bind sql) with
  | .error x => (.error x, db)
  | .ok vss =>
    match db.insertTypes vss.flatten with
    | .error x => (.error x, db)
    | .ok db' => (.ok (), db')

end Library

/-! ## One connection -/

/-- A connection that lives on, or dies after so many uses. -/
inductive Connection where
  | alive
  | dying (uses : Nat)

/-- The database and the connection that the repository object keeps, if any. -/
structure Session where
  db : Database
  connection : Option Connection

namespace Session

/-- A use of the connection. Once it is dead, every use raises. -/
def use (w : Session) : Except PyExn Unit × Session :=
  match w.connection with
  | none => (.error .attributeError, w)
  | some .alive => (.ok (), w)
  | some (.dying 0) => (.error (.driver .error), w)
  | some (.dying (uses + 1)) => (.ok (), { w with connection := some (.dying uses) })

/-- A use of the connection that also works on the database. -/
def useFor {α : Type} (w : Session) (f : Database → Except PyExn α × Database) :
    Except PyExn α × Session :=
  match w.use with
  | (.error x, w') => (.error x, w')
  | (.ok (), w') => ((f w'.db).1, { w' with db := (f w'.db).2 })

end Session

/-- What the calls do in a session. The server accepts new connections. -/
def DbEffect.sem (L : Library) (S : Server) : (e : DbEffect) → Session → e.Answer × Session
  | .connected, w => (w.connection.isSome, w)
  | .connect, w => (.ok (), { w with connection := some .alive })
  | .autocommit, w => w.use
  | .forget, w => ((), { w with connection := none })
  | .cursor, w => w.use
  | .execute sql args, w => w.useFor (L.execute S sql args)
  | .insertRows sql argss, w => w.useFor (L.insertRows sql argss)
  | .fetch, w => w.use

/-- The world of an engine whose queries are answered by a driver. -/
def Driver.answer {P : Platform} (D : Driver) (S : Server) (now : Rat)
    (plugin : Except PyExn Json) : (e : Effect P) → Session → e.Answer × Session
  | .fetchNotifications alarm, w =>
    let s := (D.fetchNotifications P alarm).run (DbEffect.sem D.library S) w
    (⟨s.1.1, s.1.2⟩, s.2)
  | .getNotification id, w => (D.getNotification P id).run (DbEffect.sem D.library S) w
  | .getAlarmCurrentState alarmId, w =>
    (D.getAlarmCurrentState alarmId).run (DbEffect.sem D.library S) w
  | .time, w => (now, w)
  | .sleep _, w => ((), w)
  | .sendNotification _ _, w => (plugin, w)
  | .increment _ _, w => ((), w)
  | .publish _ _, w => ((), w)
  | .commit, w => ((), w)

/-! ## A deployment -/

namespace Deployment

/-- The tables of the deployment. The stored method has the identifier `10`. -/
def database : Database where
  alarmAction := [{ actionId := "10", alarmDefinitionId := "2", alarmState := "ALARM" }]
  notificationMethod :=
    [{ id := "10", name := method.name, type := .str "EMAIL", address := method.address,
       period := method.period }]
  notificationMethodType := ["EMAIL"]
  alarm := [{ id := "1", state := some "ALARM" }]
  action_nodup := by decide
  method_nodup := by decide
  type_nodup := by decide
  alarm_nodup := by decide

def server : Server where
  arrange := id
  perm := fun _ => .rfl

end Deployment

end MonascaNotification
