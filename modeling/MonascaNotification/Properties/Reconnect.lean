import MonascaNotification.Model.Engines
import MonascaNotification.Spec.AlarmProcessor
import MonascaNotification.Spec.Drivers

/-!
# A lost connection

The connection of a driver dies at some point of a query, and the caller tries once more. Does
the engine see anything of it?

`MysqlRepo` drops its connection in every handler, so the second try opens a new one. The handlers
of `PostgresqlRepo` do not, so the second try uses the dead connection again.
-/

namespace MonascaNotification

open Infra Prog

variable {P : Platform} {L : Library} {S : Server} {db : Database} {D : Driver} {α β : Type}

/-! ## One call -/

/--
A call on a connection that dies ends as on one that lives, or raises for its caller to try
again. A call that opens a new connection ends as on one that lives.
-/
structure Interrupted (db : Database) (resets : Bool) (call : Session → Except PyExn α × Session)
    (out : Except PyExn α) : Prop where
  live : call (.live db) = (out, .live db)
  reconnect : (call ⟨db, none⟩).1 = out
  dying : ∀ k, (call (.dying db k)).1 = out ∨
    call (.dying db k) = (.error .databaseException, .dropped db resets)
  dead : call (.dying db 0) = (.error .databaseException, .dropped db resets)
  clean : Clean out

theorem interrupted_call {q : Db α} {out : Except PyExn α} (hq : Reads L S db q out)
    (hout : Clean out) (resets : Bool) :
    Interrupted db resets
      ((Prog.tryCatch (CursorRepo.openCursor.bind fun _ => q) (CursorRepo.onError resets)).run
        (DbEffect.sem L S)) out := by
  have hcall : Reads L S db (CursorRepo.openCursor.bind fun _ => q) out :=
    reads_openCursor.bind fun _ => hq
  obtain ⟨hlive, hdying⟩ := hcall.tryCatch hout resets
  refine ⟨hlive, congrArg Prod.fst (run_cursorCall hq hout resets false), fun k => ?_, ?_, hout⟩
  · rcases hdying k with ⟨k', h⟩ | h
    · exact Or.inl (congrArg Prod.fst h)
    · exact Or.inr h
  · cases resets <;> rfl

/-- A consumer of a stream sees the values before the loss, which are the first ones. -/
theorem interrupted_stream {Y : Type} {f : Unit → Db β} {g : β → DbGen Y}
    {s : List Y × Option PyExn} (hg : Yields L S db (Gen.after (CursorRepo.openCursor.bind f) g) s)
    (hs : Clean (Gen.consume .ok s)) (resets : Bool) (make : Y → Except PyExn α)
    (hout : Clean (Gen.consume make s)) :
    Interrupted db resets
      (fun w =>
        let r := ((Gen.after (CursorRepo.openCursor.bind f) g).tryCatch fun x =>
          Gen.after (CursorRepo.onError resets x) fun (_ : Unit) => .done).run
            (DbEffect.sem L S) w
        (Gen.consume make r.1, r.2))
      (Gen.consume make s) := by
  obtain ⟨hlive, hdying⟩ := hg.tryCatch hs resets
  refine ⟨?_, ?_, fun k => ?_, ?_, hout⟩
  · dsimp only
    rw [hlive]
  · have hnone := run_cursorStream hg hs resets false
    exact congrArg (fun r => Gen.consume make r.1) hnone
  · rcases hdying k with ⟨k', h⟩ | ⟨ys, ⟨rest, hrest⟩, h⟩
    · dsimp only
      rw [h]
      exact Or.inl rfl
    · dsimp only
      rw [h]
      unfold Gen.consume
      rw [← hrest, List.mapM_append]
      cases ys.mapM make with
      | error x => exact Or.inl rfl
      | ok bs => exact Or.inr rfl
  · cases resets <;> rfl

/-! ## The second try -/

section Retry

variable {ans : (e : Effect P) → Session → e.Answer × Session} {p : Py P α}
  {out : Except PyExn α} {resets : Bool}

theorem run_retry_of_ne {w : Session} (h : (p.run ans w).1 ≠ .error .databaseException) :
    (Py.retryOnDatabaseException p).run ans w = p.run ans w := by
  unfold Py.retryOnDatabaseException
  rw [run_tryCatch]
  generalize p.run ans w = r at h
  obtain ⟨out, w'⟩ := r
  cases out with
  | ok a => rfl
  | error x =>
    have hx : x ≠ .databaseException := fun hx => h (congrArg Except.error hx)
    dsimp only
    rw [if_neg hx]
    rfl

theorem run_retry_of_eq {w w' : Session} (h : p.run ans w = (.error .databaseException, w')) :
    (Py.retryOnDatabaseException p).run ans w = p.run ans w' := by
  unfold Py.retryOnDatabaseException
  rw [run_tryCatch, h]
  rfl

theorem Clean.ne_databaseException (h : Clean out) : out ≠ .error .databaseException :=
  fun heq => h _ heq trivial

theorem Interrupted.retry_live (h : Interrupted db resets (p.run ans) out) :
    ((Py.retryOnDatabaseException p).run ans (.live db)).1 = out := by
  have hne : (p.run ans (.live db)).1 ≠ .error .databaseException := by
    rw [h.live]
    exact h.clean.ne_databaseException
  rw [run_retry_of_ne hne, h.live]

/-- With a reset, the second try has a new connection. -/
theorem Interrupted.retry_dying (h : Interrupted db true (p.run ans) out) (k : Nat) :
    ((Py.retryOnDatabaseException p).run ans (.dying db k)).1 = out := by
  rcases h.dying k with hk | hk
  · have hne : (p.run ans (.dying db k)).1 ≠ .error .databaseException := by
      rw [hk]
      exact h.clean.ne_databaseException
    rw [run_retry_of_ne hne, hk]
  · rw [run_retry_of_eq hk]
    exact h.reconnect

/-- Without one, it has the dead connection. -/
theorem Interrupted.retry_dead (h : Interrupted db false (p.run ans) out) :
    ((Py.retryOnDatabaseException p).run ans (.dying db 0)).1 = .error .databaseException := by
  have hdead : p.run ans (.dying db 0) = (.error .databaseException, .dying db 0) := h.dead
  rw [run_retry_of_eq hdead, hdead]

/-- What raises on every connection raises from both tries. -/
theorem retry_raises (h : ∀ w, (p.run ans w).1 = .error .databaseException) (w : Session) :
    ((Py.retryOnDatabaseException p).run ans w).1 = .error .databaseException := by
  rw [run_retry_of_eq (Prod.ext (h w) rfl)]
  exact h _

end Retry

/-! ## The three queries -/

theorem clean_divByFloat (j : Json) (d : Rat) : Clean (j.divByFloat P d) := by
  unfold Json.divByFloat
  split
  · exact clean_ok _
  · split
    · refine Clean.map ?_ _
      unfold Platform.intToFloat
      split
      · exact clean_error id
      · exact clean_ok _
    · exact clean_error id

theorem clean_toInt (x : PyFloat) : Clean x.toInt := by
  cases x with
  | fin q => exact clean_ok _
  | _ => exact clean_error id

def Driver.resets : Driver → Bool
  | .mysql => true
  | _ => false

theorem clean_values {sql : Sql} {v : Json} (hv : v ≠ .null) : Clean (L.values sql (.bare v)) := by
  cases v with
  | null => exact absurd rfl hv
  | arr vs => exact clean_ok vs
  | str s => cases L <;> exact clean_ok _
  | _ =>
    cases L with
    | psycopg2 => exact clean_error id
    | _ => exact clean_ok _

theorem clean_select {sql : Sql} {v : Json} (hv : v ≠ .null) :
    Clean (L.select S db sql (.bare v)) := by
  refine Clean.map ((clean_values hv).bind fun vs => ?_) _
  split
  · exact clean_ok vs
  · exact clean_error id

theorem interrupted_getNotification {id : Json} (hD : D ≠ .orm) (hid : id ≠ .null) :
    ∃ out, Interrupted db D.resets
      ((D.getNotification P id).run (DbEffect.sem D.library S)) out := by
  have hclean : ∀ L : Library, Clean
      (L.select S db .getNotification (.bare id) >>= fun rows => methodOf P rows.head?) :=
    fun L => (clean_select hid).bind fun rows => clean_methodOf _
  cases D with
  | mysql =>
    exact ⟨_, interrupted_call (reads_fetchone_of (by decide) (methodOf P)) (hclean _) true⟩
  | postgresql =>
    exact ⟨_, interrupted_call (reads_fetchone_of (by decide) (methodOf P)) (hclean _) false⟩
  | orm => exact absurd rfl hD

theorem interrupted_getAlarmCurrentState {alarmId : Json} (hD : D ≠ .orm)
    (hid : alarmId ≠ .null) :
    ∃ out, Interrupted db D.resets
      ((D.getAlarmCurrentState alarmId).run (DbEffect.sem D.library S)) out := by
  have hclean : ∀ L : Library, Clean
      (L.select S db .findAlarmState (.bare alarmId) >>= fun rows => stateOf rows.head?) :=
    fun L => (clean_select hid).bind fun rows => clean_stateOf _
  cases D with
  | mysql => exact ⟨_, interrupted_call (reads_fetchone_of (by decide) stateOf) (hclean _) true⟩
  | postgresql =>
    exact ⟨_, interrupted_call (reads_fetchone_of (by decide) stateOf) (hclean _) false⟩
  | orm => exact absurd rfl hD

/-- A null identifier is never bound: `MysqlRepo` raises on every connection. -/
theorem getNotification_null (w : Session) :
    ((Driver.mysql.getNotification P .null).run (DbEffect.sem .pymysql S) w).1 =
      .error .databaseException := by
  obtain ⟨db, connection⟩ := w
  match connection with
  | none => rfl
  | some .alive => rfl
  | some (.dying 0) => rfl
  | some (.dying 1) => rfl
  | some (.dying (k + 2)) => rfl

theorem getAlarmCurrentState_null (w : Session) :
    ((Driver.mysql.getAlarmCurrentState .null).run (DbEffect.sem .pymysql S) w).1 =
      .error .databaseException := by
  obtain ⟨db, connection⟩ := w
  match connection with
  | none => rfl
  | some .alive => rfl
  | some (.dying 0) => rfl
  | some (.dying 1) => rfl
  | some (.dying (k + 2)) => rfl

theorem clean_ofAlarm (alarm : Json) : Clean (AlarmSlots.ofAlarm P alarm) := by
  have hget := clean_getItem alarm
  unfold AlarmSlots.ofAlarm
  refine (hget _).bind fun _ => (hget _).bind fun _ => (hget _).bind fun timestamp => ?_
  refine Clean.bind (clean_divByFloat timestamp _) fun seconds => ?_
  refine Clean.bind (clean_toInt seconds) fun _ => ?_
  exact (hget _).bind fun _ => (hget _).bind fun _ => (hget _).bind fun _ => (hget _).bind
    fun _ => (hget _).bind fun _ => (hget _).bind fun _ => (hget _).bind fun _ => clean_ok _

theorem clean_init (id type name address period retryCount alarm : Json) :
    Clean (Notification.init P id type name address period retryCount alarm) := by
  have hslots := clean_ofAlarm (P := P) alarm
  unfold Notification.init
  split
  · exact clean_ok _
  · next x hx => exact clean_error (hslots x hx)

/-- The notification of a row, in the comprehension of `_build_notification`. -/
def ofRow (P : Platform) (alarm : Json) (row : ActionRow) : Except PyExn (Notification P) :=
  Notification.init P row.id (.str row.type) row.name row.address row.period (.int 0) alarm

theorem run_buildNotification (ans : (e : Effect P) → Session → e.Answer × Session)
    (alarm : Json) (w : Session) :
    (AlarmProcessor.buildNotification P alarm).run ans w =
      (Gen.consume (ofRow P alarm)
        ((ans (.fetchNotifications alarm) w).1.rows, (ans (.fetchNotifications alarm) w).1.failure),
        (ans (.fetchNotifications alarm) w).2) := by
  unfold AlarmProcessor.buildNotification
  rw [Prog.run]
  generalize ans (.fetchNotifications alarm) w = r
  obtain ⟨⟨rows, failure⟩, w'⟩ := r
  rw [bind_eq, run_bind, run_ofExcept]
  unfold Gen.consume ofRow
  dsimp only
  cases rows.mapM fun row => Notification.init P row.id (.str row.type) row.name row.address
      row.period (.int 0) alarm with
  | error x => rfl
  | ok ns => cases failure <;> rfl

theorem clean_notifications (alarm : Json) :
    Clean (Gen.consume (ofRow P alarm) (db.actions P S alarm)) := by
  have hstream : Clean (Gen.consume .ok (db.actions P S alarm)) := clean_actions alarm
  generalize db.actions P S alarm = s at hstream
  obtain ⟨rows, failure⟩ := s
  refine (clean_mapM (fun row => clean_init _ _ _ _ _ _ _) rows).bind fun ns => ?_
  cases failure with
  | none => exact clean_ok ns
  | some x => exact clean_error (hstream x (Gen.consume_ok_some rows x))

theorem interrupted_buildNotification {now : Rat} {plugin : Except PyExn Json} (alarm : Json)
    (hD : D ≠ .orm) :
    ∃ out, Interrupted db D.resets
      ((AlarmProcessor.buildNotification P alarm).run (D.answer S now plugin)) out := by
  have hrun := funext (run_buildNotification (P := P) (D.answer S now plugin) alarm)
  rw [hrun]
  cases D with
  | mysql =>
    exact ⟨_, interrupted_stream (yields_actions alarm fun _ _ => rfl) (clean_actions alarm) true
      (ofRow P alarm) (clean_notifications alarm)⟩
  | postgresql =>
    exact ⟨_, interrupted_stream (yields_actions alarm fun _ _ => rfl) (clean_actions alarm) false
      (ofRow P alarm) (clean_notifications alarm)⟩
  | orm => exact absurd rfl hD

/-! ## What the engines see -/

/-- Wherever the connection dies, `p` ends as it does on a connection that lives. -/
def Driver.Invisible (D : Driver) (S : Server) (db : Database) (p : Py P α) : Prop :=
  ∀ now plugin k, (p.run (D.answer S now plugin) (.dying db k)).1 =
    (p.run (D.answer S now plugin) (.live db)).1

/-- Without queries, `p` does not touch the connection. -/
theorem run_of_no_query {p : Py P α} (hp : Uses (fun e => e.isQuery = false) p) (now : Rat)
    (plugin : Except PyExn Json) :
    ∃ out, ∀ w : Session, p.run (D.answer S now plugin) w = (out, w) := by
  induction p with
  | ret a => exact ⟨.ok a, fun _ => rfl⟩
  | raise x => exact ⟨.error x, fun _ => rfl⟩
  | perform e k ih =>
    cases e with
    | fetchNotifications alarm => cases hp.1
    | getNotification id => cases hp.1
    | getAlarmCurrentState alarmId => cases hp.1
    | time => exact ih now (hp.2 now)
    | sendNotification notifier n => exact ih plugin (hp.2 plugin)
    | _ => exact ih () (hp.2 ())

namespace Driver.Invisible

theorem of_no_query {p : Py P α} (hp : Uses (fun e => e.isQuery = false) p) :
    D.Invisible S db p := by
  intro now plugin k
  obtain ⟨out, h⟩ := run_of_no_query (D := D) (S := S) hp now plugin
  rw [h, h]

theorem bind {p : Py P α} {f : α → Py P β} (hp : D.Invisible S db p)
    (hf : ∀ a, Uses (fun e => e.isQuery = false) (f a)) : D.Invisible S db (p.bind f) := by
  intro now plugin k
  have hsame := hp now plugin k
  rw [run_bind, run_bind]
  generalize p.run (D.answer S now plugin) (.dying db k) = r at hsame
  generalize p.run (D.answer S now plugin) (.live db) = r' at hsame
  obtain ⟨out, w⟩ := r
  obtain ⟨out', w'⟩ := r'
  obtain rfl : out = out' := hsame
  cases out with
  | error x => rfl
  | ok a =>
    obtain ⟨out, h⟩ := run_of_no_query (D := D) (S := S) (hf a) now plugin
    dsimp only
    rw [h, h]

theorem after {p : Py P α} {f : α → Py P β} (hp : Uses (fun e => e.isQuery = false) p)
    (hf : ∀ a, D.Invisible S db (f a)) : D.Invisible S db (p.bind f) := by
  intro now plugin k
  obtain ⟨out, h⟩ := run_of_no_query (D := D) (S := S) hp now plugin
  rw [run_bind, run_bind, h, h]
  cases out with
  | error x => rfl
  | ok a => exact hf a now plugin k

/-- With `MysqlRepo`, a query that is tried twice hides the loss. -/
theorem of_interrupted {p : Py P α}
    (hp : ∀ now plugin, ∃ out, Interrupted db true (p.run (Driver.mysql.answer S now plugin)) out) :
    Driver.mysql.Invisible S db (Py.retryOnDatabaseException p) := by
  intro now plugin k
  obtain ⟨out, h⟩ := hp now plugin
  rw [h.retry_dying, h.retry_live]

/-- With `PostgresqlRepo`, it does not. -/
theorem not_of_interrupted {p : Py P α} {now : Rat} {plugin : Except PyExn Json}
    {out : Except PyExn α}
    (hp : Interrupted db false (p.run (Driver.postgresql.answer S now plugin)) out) :
    ¬ Driver.postgresql.Invisible S db (Py.retryOnDatabaseException p) := by
  intro h
  have hsame := h now plugin 0
  rw [hp.retry_dead, hp.retry_live] at hsame
  exact hp.clean.ne_databaseException hsame.symm

end Driver.Invisible

section Callers

variable {now : Rat} {plugin : Except PyExn Json}

theorem run_getNotification_answer (id : Json) :
    (getNotification id : Py P _).run (D.answer S now plugin) =
      (D.getNotification P id).run (DbEffect.sem D.library S) := by
  funext w
  exact run_ofExcept _ _ _

theorem run_getAlarmCurrentState_answer (alarmId : Json) :
    (PeriodicEngine.getAlarmCurrentState alarmId : Py P _).run (D.answer S now plugin) =
      (D.getAlarmCurrentState alarmId).run (DbEffect.sem D.library S) := by
  funext w
  exact run_ofExcept _ _ _

theorem invisible_buildNotification (alarm : Json) : Driver.mysql.Invisible S db
    (Py.retryOnDatabaseException (AlarmProcessor.buildNotification P alarm)) :=
  .of_interrupted fun _ _ => interrupted_buildNotification (D := .mysql) alarm (by decide)

theorem invisible_toNotification (conf : Config) (rawAlarm : RawAlarm) :
    Driver.mysql.Invisible S db (AlarmProcessor.toNotification P conf rawAlarm) := by
  unfold AlarmProcessor.toNotification
  split
  · exact .of_no_query ⟨rfl, fun _ => trivial⟩
  · next alarm _ =>
    refine .after ((AlarmProcessor.asks_alarmIsValid alarm).mono fun e he => by rw [he]; rfl)
      fun valid => ?_
    split
    · exact .of_no_query ⟨rfl, fun _ => trivial⟩
    · refine (invisible_buildNotification alarm).bind fun notifications => ?_
      split
      · exact ⟨rfl, fun _ => trivial⟩
      · exact ⟨rfl, fun _ => trivial⟩

theorem invisible_grabStoredNotificationMethod (id : Json) :
    Driver.mysql.Invisible S db (grabStoredNotificationMethod id : Py P _) := by
  by_cases hid : id = .null
  · subst hid
    intro now plugin k
    have hraises : ∀ w, ((getNotification .null : Py P _).run
        (Driver.mysql.answer S now plugin) w).1 = .error .databaseException := by
      rw [run_getNotification_answer]
      exact getNotification_null
    unfold grabStoredNotificationMethod
    rw [retry_raises hraises, retry_raises hraises]
  · refine .of_interrupted fun now plugin => ?_
    rw [run_getNotification_answer]
    exact interrupted_getNotification (D := .mysql) (by decide) hid

theorem invisible_keepSending {conf : Config} (self : PeriodicEngine conf)
    (alarmId state period : Json) :
    Driver.mysql.Invisible S db (self.keepSending alarmId state period : Py P _) := by
  refine Driver.Invisible.bind (p := Py.retryOnDatabaseException _) ?_ fun currentState => ?_
  · by_cases hid : alarmId = .null
    · subst hid
      intro now plugin k
      have hraises : ∀ w, ((PeriodicEngine.getAlarmCurrentState .null : Py P _).run
          (Driver.mysql.answer S now plugin) w).1 = .error .databaseException := by
        rw [run_getAlarmCurrentState_answer]
        exact getAlarmCurrentState_null
      rw [retry_raises hraises, retry_raises hraises]
    · refine .of_interrupted fun now plugin => ?_
      rw [run_getAlarmCurrentState_answer]
      exact interrupted_getAlarmCurrentState (D := .mysql) (by decide) hid
  · split
    · trivial
    · split
      · trivial
      · split <;> trivial

/-- A lost connection is invisible to the three callers that try again. -/
structure LossInvisible (D : Driver) (S : Server) (db : Database) (P : Platform) {conf : Config}
    (engine : PeriodicEngine conf) (rawAlarm : RawAlarm) (alarm id alarmId state period : Json) :
    Prop where
  buildNotification :
    D.Invisible S db (Py.retryOnDatabaseException (AlarmProcessor.buildNotification P alarm))
  toNotification : D.Invisible S db (AlarmProcessor.toNotification P conf rawAlarm)
  grabStoredNotificationMethod :
    D.Invisible S db (MonascaNotification.grabStoredNotificationMethod id : Py P _)
  keepSending : D.Invisible S db (engine.keepSending alarmId state period : Py P _)

/-- **A lost connection is invisible with `MysqlRepo`, and with `PostgresqlRepo` it is not.** -/
theorem lossInvisible_iff {conf : Config} (engine : PeriodicEngine conf) (rawAlarm : RawAlarm)
    (alarm id alarmId state period : Json) (hD : D ≠ .orm) :
    LossInvisible D S db P engine rawAlarm alarm id alarmId state period ↔ D = .mysql := by
  constructor
  · intro h
    cases D with
    | mysql => rfl
    | orm => exact absurd rfl hD
    | postgresql =>
      obtain ⟨out, hout⟩ : ∃ out, Interrupted db false
          ((AlarmProcessor.buildNotification P alarm).run
            (Driver.postgresql.answer S 0 (.ok .null))) out :=
        interrupted_buildNotification alarm hD
      exact absurd h.buildNotification (Driver.Invisible.not_of_interrupted hout)
  · rintro rfl
    exact {
      buildNotification := invisible_buildNotification alarm
      toNotification := invisible_toNotification conf rawAlarm
      grabStoredNotificationMethod := invisible_grabStoredNotificationMethod id
      keepSending := invisible_keepSending engine alarmId state period }

open Deployment in
/-- The deployment on MySQL. -/
theorem lossInvisible_iff_mysql :
    LossInvisible .mysql server database cpython everyMinute
      ⟨0, 0, transitionMessage (Deployment.alarm "OK" "ALARM")⟩ (Deployment.alarm "OK" "ALARM")
      (.str "10") (.str "1") (.str "ALARM") (.int 60) :=
  (lossInvisible_iff _ _ _ _ _ _ _ (by decide)).mpr rfl

open Deployment in
/-- On PostgreSQL, the alarm is `ALARM` but a connection that is dead raises from both tries. -/
theorem lossVisible_postgresql :
    ¬ LossInvisible .postgresql server database cpython everyMinute
      ⟨0, 0, transitionMessage (Deployment.alarm "OK" "ALARM")⟩ (Deployment.alarm "OK" "ALARM")
      (.str "10") (.str "1") (.str "ALARM") (.int 60) := by
  intro h
  have hsame := h.keepSending 0 (.ok .null) 0
  revert hsame
  decide +kernel

end Callers

end MonascaNotification
