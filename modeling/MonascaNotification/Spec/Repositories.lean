import MonascaNotification.Model.Repositories

/-!
# The drivers on a connection

A read on a connection that dies at some point does what it does on one that lives, or ends
with the error of the library (`Reads`, `Yields`). Both are closed under the ways in which the
drivers build their calls, so each call has one lemma, with what it reads from the database.
-/

namespace MonascaNotification

open Infra Prog

variable {P : Platform} {L : Library} {S : Server} {db : Database}

/-! ## Exceptions -/

/-- The exceptions that the drivers and their callers handle. -/
def PyExn.FromDatabase : PyExn → Prop
  | .driver _ => True
  | .databaseException => True
  | _ => False

/-- The exception, if any, passes the handlers of the drivers and of their callers. -/
def Clean {α : Type} (out : Except PyExn α) : Prop := ∀ x, out = .error x → ¬ x.FromDatabase

section Clean

variable {α β : Type}

theorem clean_ok (a : α) : Clean (.ok a) := by
  intro x h
  cases h

theorem clean_error {x : PyExn} (hx : ¬ x.FromDatabase) : Clean (.error x : Except PyExn α) := by
  intro x' h
  cases h
  exact hx

theorem Clean.bind {out : Except PyExn α} {f : α → Except PyExn β} (h : Clean out)
    (hf : ∀ a, Clean (f a)) : Clean (out >>= f) := by
  cases out with
  | ok a => exact hf a
  | error x => exact clean_error (h x rfl)

theorem Clean.map {out : Except PyExn α} (h : Clean out) (f : α → β) : Clean (out.map f) := by
  cases out with
  | ok a => exact clean_ok (f a)
  | error x => exact clean_error (h x rfl)

theorem clean_mapM {f : α → Except PyExn β} (hf : ∀ a, Clean (f a)) (l : List α) :
    Clean (l.mapM f) := by
  induction l with
  | nil => exact clean_ok []
  | cons a l ih =>
    rw [List.mapM_cons]
    exact (hf a).bind fun b => ih.bind fun bs => clean_ok (b :: bs)

theorem clean_getItem (j : Json) (key : String) : Clean (j.getItem key) := by
  unfold Json.getItem
  split
  · split
    · exact clean_ok _
    · exact clean_error id
  · exact clean_error id

theorem clean_lower (v : Json) : Clean (lower P v) := by
  cases v with
  | str s => exact clean_ok _
  | _ => exact clean_error id

theorem clean_actionRow (row : Row) : Clean (actionRow P row) := by
  unfold actionRow
  split
  · exact (clean_lower _).bind fun _ => clean_ok _
  · exact clean_error id

theorem clean_methodRow (row : Row) : Clean (methodRow P row) := by
  unfold methodRow
  split
  · exact (clean_lower _).bind fun _ => clean_ok _
  · exact clean_error id

theorem clean_firstColumn (row : Row) : Clean (firstColumn row) := by
  cases row with
  | nil => exact clean_error id
  | cons v _ => exact clean_ok v

theorem clean_stateOf (row : Option Row) : Clean (stateOf row) := by
  cases row with
  | none => exact clean_ok none
  | some row => exact (clean_firstColumn row).map _

theorem clean_methodOf (row : Option Row) : Clean (methodOf P row) := by
  cases row with
  | none => exact clean_ok none
  | some row => exact (clean_methodRow row).map _

end Clean

/-! ## Reads -/

/-- The session of a connection that lives. -/
abbrev Session.live (db : Database) : Session := ⟨db, some .alive⟩

/-- The session of a connection that dies after so many uses. -/
abbrev Session.dying (db : Database) (uses : Nat) : Session := ⟨db, some (.dying uses)⟩

/--
On a living connection `p` ends with `out` and changes nothing. On a dying one it does the
same, or the connection is dead and `p` raises the error of the library.
-/
def Reads (L : Library) (S : Server) (db : Database) {α : Type} (p : Db α)
    (out : Except PyExn α) : Prop :=
  p.run (DbEffect.sem L S) (.live db) = (out, .live db) ∧
  ∀ k, (∃ k', p.run (DbEffect.sem L S) (.dying db k) = (out, .dying db k')) ∨
    p.run (DbEffect.sem L S) (.dying db k) = (.error (.driver .error), .dying db 0)

/-- The same for a generator: it yields the values of `s`, or the first ones before the error. -/
def Yields (L : Library) (S : Server) (db : Database) {Y : Type} (g : DbGen Y)
    (s : List Y × Option PyExn) : Prop :=
  g.run (DbEffect.sem L S) (.live db) = (s, .live db) ∧
  ∀ k, (∃ k', g.run (DbEffect.sem L S) (.dying db k) = (s, .dying db k')) ∨
    ∃ ys, ys <+: s.1 ∧
      g.run (DbEffect.sem L S) (.dying db k) = ((ys, some (.driver .error)), .dying db 0)

section Rules

variable {α β Y : Type}

theorem reads_ofExcept (y : Except PyExn α) : Reads L S db (.ofExcept y) y := by
  refine ⟨run_ofExcept _ _ _, fun k => Or.inl ⟨k, run_ofExcept _ _ _⟩⟩

theorem reads_ret (a : α) : Reads L S db (.ret a : Db α) (.ok a) := reads_ofExcept (.ok a)

theorem Reads.bind {p : Db α} {f : α → Db β} {y : Except PyExn α} {g : α → Except PyExn β}
    (hp : Reads L S db p y) (hf : ∀ a, Reads L S db (f a) (g a)) :
    Reads L S db (p.bind f) (y >>= g) := by
  cases y with
  | error x =>
    refine ⟨by rw [run_bind, hp.1]; rfl, fun k => ?_⟩
    rw [run_bind]
    rcases hp.2 k with ⟨k', h⟩ | h
    · rw [h]
      exact Or.inl ⟨k', rfl⟩
    · rw [h]
      exact Or.inr rfl
  | ok a =>
    refine ⟨by rw [run_bind, hp.1]; exact (hf a).1, fun k => ?_⟩
    rw [run_bind]
    rcases hp.2 k with ⟨k', h⟩ | h
    · rw [h]
      exact (hf a).2 k'
    · rw [h]
      exact Or.inr rfl

theorem yields_done : Yields L S db (.done : DbGen Y) ([], none) :=
  ⟨rfl, fun k => Or.inl ⟨k, rfl⟩⟩

theorem Yields.yield {g : DbGen Y} {s : List Y × Option PyExn} (h : Yields L S db g s) (y : Y) :
    Yields L S db (.yield y g) (y :: s.1, s.2) := by
  unfold Yields Gen.run
  refine ⟨by rw [h.1], fun k => ?_⟩
  rcases h.2 k with ⟨k', hk⟩ | ⟨ys, hys, hk⟩
  · rw [hk]
    exact Or.inl ⟨k', rfl⟩
  · rw [hk]
    exact Or.inr ⟨y :: ys, List.cons_prefix_cons.mpr ⟨rfl, hys⟩, rfl⟩

/-- The stream of a generator that starts with a read. -/
def streamAfter (y : Except PyExn α) (s : α → List Y × Option PyExn) : List Y × Option PyExn :=
  match y with
  | .error x => ([], some x)
  | .ok a => s a

theorem Reads.after {p : Db α} {f : α → DbGen Y} {y : Except PyExn α}
    {s : α → List Y × Option PyExn} (hp : Reads L S db p y)
    (hf : ∀ a, Yields L S db (f a) (s a)) : Yields L S db (Gen.after p f) (streamAfter y s) := by
  cases y with
  | error x =>
    refine ⟨by rw [Gen.run_after, hp.1]; rfl, fun k => ?_⟩
    rw [Gen.run_after]
    rcases hp.2 k with ⟨k', h⟩ | h
    · rw [h]
      exact Or.inl ⟨k', rfl⟩
    · rw [h]
      exact Or.inr ⟨[], List.nil_prefix, rfl⟩
  | ok a =>
    refine ⟨by rw [Gen.run_after, hp.1]; exact (hf a).1, fun k => ?_⟩
    rw [Gen.run_after]
    rcases hp.2 k with ⟨k', h⟩ | h
    · rw [h]
      exact (hf a).2 k'
    · rw [h]
      exact Or.inr ⟨[], List.nil_prefix, rfl⟩

end Rules

/-! ## The calls -/

/-- A single use of the connection. -/
theorem reads_use {e : DbEffect} {α : Type} {k : e.Answer → Db α} {out : Except PyExn α}
    (hlive : (k ((DbEffect.sem L S e (.live db)).1)).run (DbEffect.sem L S)
      (DbEffect.sem L S e (.live db)).2 = (out, .live db))
    (hdying : ∀ n, (k ((DbEffect.sem L S e (.dying db (n + 1))).1)).run (DbEffect.sem L S)
      (DbEffect.sem L S e (.dying db (n + 1))).2 = (out, .dying db n))
    (hdead : (k ((DbEffect.sem L S e (.dying db 0)).1)).run (DbEffect.sem L S)
      (DbEffect.sem L S e (.dying db 0)).2 = (.error (.driver .error), .dying db 0)) :
    Reads L S db (.perform e k) out := by
  refine ⟨hlive, fun n => ?_⟩
  cases n with
  | zero => exact Or.inr hdead
  | succ n => exact Or.inl ⟨n, hdying n⟩

theorem reads_cursor : Reads L S db Db.cursor (.ok ()) := reads_use rfl (fun _ => rfl) rfl

theorem reads_fetch : Reads L S db Db.fetch (.ok ()) := reads_use rfl (fun _ => rfl) rfl

/-- The rows of a query, or the exception of a parameter that cannot be bound. -/
def Library.select (L : Library) (S : Server) (db : Database) (sql : Sql) (args : Args) :
    Except PyExn (List Row) :=
  (L.bind sql args).map fun vs => S.arrange (db.query sql vs)

theorem Library.execute_of_ne {sql : Sql} (hsql : sql ≠ .insertNotificationTypes) (args : Args) :
    L.execute S sql args db = (L.select S db sql args, db) := by
  unfold execute select
  cases L.bind sql args with
  | error x => rfl
  | ok vs =>
    cases sql with
    | insertNotificationTypes => exact absurd rfl hsql
    | _ => rfl

theorem reads_execute {sql : Sql} (hsql : sql ≠ .insertNotificationTypes) (args : Args) :
    Reads L S db (Db.execute sql args) (L.select S db sql args) := by
  have hex : L.execute S sql args db = (L.select S db sql args, db) :=
    Library.execute_of_ne hsql args
  refine reads_use ?_ (fun n => ?_) rfl
  · show (Prog.ofExcept (L.execute S sql args db).1).run (DbEffect.sem L S)
      (⟨(L.execute S sql args db).2, some .alive⟩ : Session) = _
    rw [hex]
    exact run_ofExcept _ _ _
  · show (Prog.ofExcept (L.execute S sql args db).1).run (DbEffect.sem L S)
      (⟨(L.execute S sql args db).2, some (.dying n)⟩ : Session) = _
    rw [hex]
    exact run_ofExcept _ _ _

theorem reads_fetchone (rows : List Row) : Reads L S db (Db.fetchone rows) (.ok rows.head?) :=
  reads_fetch.bind fun _ => reads_ret _

theorem reads_fetchall (rows : List Row) : Reads L S db (Db.fetchall rows) (.ok rows) :=
  reads_fetch.bind fun _ => reads_ret _

/-- What a loop over the rows yields: up to the first row that `f` refuses. -/
def streamOf {Y : Type} (f : Row → Except PyExn Y) : List Row → List Y × Option PyExn
  | [] => ([], none)
  | row :: rows => streamAfter (f row) fun y => (y :: (streamOf f rows).1, (streamOf f rows).2)

/-- A list of what a loop yields is a `mapM`. -/
theorem consume_streamOf {Y : Type} (f : Row → Except PyExn Y) (rows : List Row) :
    Gen.consume .ok (streamOf f rows) = rows.mapM f := by
  induction rows with
  | nil => rfl
  | cons row rows ih =>
    rw [List.mapM_cons, ← ih, streamOf]
    cases f row with
    | error x => rfl
    | ok y => exact Gen.consume_ok_cons y _

theorem yields_iterate {Y : Type} (f : Row → Except PyExn Y) (rows : List Row) :
    Yields L S db (Db.iterate f rows) (streamOf f rows) := by
  induction rows with
  | nil => exact reads_fetch.after fun _ => yields_done
  | cons row rows ih =>
    have hrow : Reads L S db (do Db.fetch; Prog.ofExcept (f row)) (f row) :=
      reads_fetch.bind fun _ => reads_ofExcept _
    exact hrow.after fun y => ih.yield y

theorem reads_openCursor : Reads L S db CursorRepo.openCursor (.ok ()) :=
  ⟨reads_cursor.1, reads_cursor.2⟩

/-! ## The handlers -/

/-- The session after a call that raised: `MysqlRepo` has no connection left. -/
def Session.dropped (db : Database) (resets : Bool) : Session :=
  if resets then ⟨db, none⟩ else .dying db 0

theorem run_onError {α : Type} (resets : Bool) (e : DriverError) :
    (CursorRepo.onError resets (.driver e) : Db α).run (DbEffect.sem L S) (.dying db 0) =
      (.error .databaseException, .dropped db resets) := by
  cases resets <;> rfl

/-- A call on a connection that dies at some point: as on a living one, or it raises. -/
theorem Reads.tryCatch {α : Type} {p : Db α} {out : Except PyExn α} (hp : Reads L S db p out)
    (hout : Clean out) (resets : Bool) :
    (p.tryCatch (CursorRepo.onError resets)).run (DbEffect.sem L S) (.live db) =
      (out, .live db) ∧
    ∀ k, (∃ k', (p.tryCatch (CursorRepo.onError resets)).run (DbEffect.sem L S) (.dying db k) =
        (out, .dying db k')) ∨
      (p.tryCatch (CursorRepo.onError resets)).run (DbEffect.sem L S) (.dying db k) =
        (.error .databaseException, .dropped db resets) := by
  -- what is not an error of the library passes the handler
  have hpass : ∀ w w', p.run (DbEffect.sem L S) w = (out, w') →
      (p.tryCatch (CursorRepo.onError resets)).run (DbEffect.sem L S) w = (out, w') := by
    intro w w' h
    rw [run_tryCatch, h]
    cases out with
    | ok a => rfl
    | error x =>
      cases x with
      | driver e => exact absurd trivial (hout _ rfl)
      | _ => rfl
  refine ⟨hpass _ _ hp.1, fun k => ?_⟩
  rcases hp.2 k with ⟨k', h⟩ | h
  · exact Or.inl ⟨k', hpass _ _ h⟩
  · refine Or.inr ?_
    rw [run_tryCatch, h]
    exact run_onError resets .error

theorem Yields.tryCatch {Y : Type} {g : DbGen Y} {s : List Y × Option PyExn}
    (hg : Yields L S db g s) (hs : Clean (Gen.consume .ok s)) (resets : Bool) :
    (g.tryCatch fun x => Gen.after (CursorRepo.onError resets x) fun (_ : Unit) => .done).run
        (DbEffect.sem L S) (.live db) = (s, .live db) ∧
    ∀ k, (∃ k', (g.tryCatch fun x =>
          Gen.after (CursorRepo.onError resets x) fun (_ : Unit) => .done).run
        (DbEffect.sem L S) (.dying db k) = (s, .dying db k')) ∨
      ∃ ys, ys <+: s.1 ∧ (g.tryCatch fun x =>
          Gen.after (CursorRepo.onError resets x) fun (_ : Unit) => .done).run
        (DbEffect.sem L S) (.dying db k) =
          ((ys, some .databaseException), .dropped db resets) := by
  have hpass : ∀ w w', g.run (DbEffect.sem L S) w = (s, w') →
      (g.tryCatch fun x => Gen.after (CursorRepo.onError resets x) fun (_ : Unit) => .done).run
        (DbEffect.sem L S) w = (s, w') := by
    intro w w' h
    obtain ⟨ys, failure⟩ := s
    rw [Gen.run_tryCatch, h]
    cases failure with
    | none => rfl
    | some x =>
      cases x with
      | driver e => exact absurd trivial (hs _ (Gen.consume_ok_some ys _))
      | _ => simp [CursorRepo.onError, Gen.after, Gen.run]
  refine ⟨hpass _ _ hg.1, fun k => ?_⟩
  rcases hg.2 k with ⟨k', h⟩ | ⟨ys, hys, h⟩
  · exact Or.inl ⟨k', hpass _ _ h⟩
  · refine Or.inr ⟨ys, hys, ?_⟩
    have hhandler : (Gen.after (CursorRepo.onError resets (.driver .error) : Db Unit)
        fun _ => (.done : DbGen Y)).run (DbEffect.sem L S) (.dying db 0) =
          (([], some .databaseException), .dropped db resets) := by
      rw [Gen.run_after, run_onError]
    rw [Gen.run_tryCatch, h]
    dsimp only
    rw [hhandler, List.append_nil]

/-! ## The queries of a database -/

/-- With different keys, a selection by key has at most one row. -/
theorem filter_key_eq {α κ : Type} [DecidableEq κ] (key : α → κ) {l : List α}
    (h : (l.map key).Nodup) (k : κ) :
    (l.filter fun a => key a = k) = (l.find? fun a => key a = k).toList := by
  induction l with
  | nil => rfl
  | cons a l ih =>
    rw [List.map_cons, List.nodup_cons] at h
    by_cases hk : key a = k
    · have hrest : (l.filter fun b => key b = k) = [] := by
        refine List.filter_eq_nil_iff.mpr fun b hb hbk => h.1 ?_
        rw [decide_eq_true_eq] at hbk
        rw [hk, ← hbk]
        exact List.mem_map_of_mem hb
      rw [List.filter_cons_of_pos (by simpa using hk), hrest,
        List.find?_cons_of_pos (by simpa using hk)]
      rfl
    · rw [List.filter_cons_of_neg (by simpa using hk), List.find?_cons_of_neg (by simpa using hk)]
      exact ih h.2

/-- There is only one order of at most one row. -/
theorem Server.arrange_toList (S : Server) (row : Option Row) :
    S.arrange row.toList = row.toList := by
  cases row with
  | none => exact List.perm_nil.mp (S.perm [])
  | some row => exact List.perm_singleton.mp (S.perm [row])

namespace Database

/-- The state of an alarm, if it is there. -/
def currentState (db : Database) (alarmId : String) : Option String :=
  (db.alarm.find? fun a => a.id = alarmId).bind (·.state)

/-- The stored method with its type in lower case, if it is there. -/
def method (P : Platform) (db : Database) (id : String) : Except PyExn (Option (List Json)) :=
  match db.notificationMethod.find? fun nm => nm.id = id with
  | none => .ok none
  | some nm => (lower P nm.type).map fun type => some [nm.name, .str type, nm.address, nm.period]

/-- What is to be sent for an alarm. -/
def actions (P : Platform) (S : Server) (db : Database) (alarm : Json) :
    List ActionRow × Option PyExn :=
  streamAfter
    (do
      let definition ← alarm.getItem "alarmDefinitionId"
      let state ← alarm.getItem "newState"
      .ok (S.arrange (db.query .findAlarmAction [definition, state])))
    (streamOf (actionRow P))

theorem arrange_findAlarmState (id : String) :
    S.arrange (db.query .findAlarmState [.str id]) =
      ((db.alarm.find? fun a => a.id = id).map fun a => [a.state.elim .null .str]).toList := by
  have hrows : db.query .findAlarmState [.str id] =
      ((db.alarm.find? fun a => a.id = id).map fun a => [a.state.elim .null .str]).toList := by
    unfold query
    simp only [Json.str.injEq]
    rw [filter_key_eq AlarmRow.id db.alarm_nodup id]
    cases db.alarm.find? fun a => decide (a.id = id) <;> rfl
  rw [hrows, S.arrange_toList]

theorem arrange_getNotification (id : String) :
    S.arrange (db.query .getNotification [.str id]) =
      ((db.notificationMethod.find? fun nm => nm.id = id).map
        fun nm => [nm.name, nm.type, nm.address, nm.period]).toList := by
  have hrows : db.query .getNotification [.str id] =
      ((db.notificationMethod.find? fun nm => nm.id = id).map
        fun nm => [nm.name, nm.type, nm.address, nm.period]).toList := by
    unfold query
    simp only [Json.str.injEq]
    rw [filter_key_eq MethodRow.id db.method_nodup id]
    cases db.notificationMethod.find? fun nm => decide (nm.id = id) <;> rfl
  rw [hrows, S.arrange_toList]

end Database

/-! ## Parameters -/

/-- A string as the only parameter: psycopg2 takes it for the sequence of its characters. -/
def Library.bare (L : Library) (s : String) : Except PyExn (List Json) :=
  if L = .psycopg2 ∧ s.length ≠ 1 then .error .typeError else .ok [.str s]

theorem Library.bind_bare {sql : Sql} (hsql : sql.params.length = 1) (s : String) :
    L.bind sql (.bare (.str s)) = L.bare s := by
  unfold bind bare
  rw [hsql]
  cases L with
  | psycopg2 =>
    show (if (s.toList.map fun c => Json.str (String.singleton c)).length = 1 then _ else _) = _
    rw [List.length_map, String.length_toList]
    by_cases hlen : s.length = 1
    · obtain ⟨c, hc⟩ : ∃ c, s.toList = [c] :=
        List.length_eq_one_iff.mp (by rw [String.length_toList, hlen])
      have hs : String.singleton c = s := String.toList_inj.mp (by rw [String.toList_singleton, hc])
      rw [if_pos hlen, if_neg (fun h => h.2 hlen), hc, List.map_singleton, hs]
      rfl
    · rw [if_neg hlen, if_pos ⟨rfl, hlen⟩]
      rfl
  | pymysql => rfl
  | sqlalchemy => rfl

/-! ## The calls of the drivers -/

section Calls

variable {sql : Sql} {args : Args} {id : String} {y : Except PyExn (List Json)}

/-- What `get_alarm_current_state` and `get_notification` do once there is a cursor. -/
theorem reads_fetchone_of {α : Type} (hsql : sql ≠ .insertNotificationTypes)
    (f : Option Row → Except PyExn α) :
    Reads L S db
      (do
        let rows ← Db.execute sql args
        let row ← Db.fetchone rows
        .ofExcept (f row))
      (L.select S db sql args >>= fun rows => f rows.head?) :=
  (reads_execute hsql args).bind fun rows => (reads_fetchone rows).bind fun _ => reads_ofExcept _

theorem select_stateOf (hbind : L.bind .findAlarmState args = y)
    (hy : ∀ vs, y = .ok vs → vs = [.str id]) :
    (L.select S db .findAlarmState args >>= fun rows => stateOf rows.head?) =
      y.map fun _ => db.currentState id := by
  unfold Library.select
  rw [hbind]
  cases y with
  | error x => rfl
  | ok vs =>
    obtain rfl := hy vs rfl
    show stateOf (S.arrange _).head? = _
    rw [Database.arrange_findAlarmState]
    unfold Database.currentState
    cases db.alarm.find? fun a => decide (a.id = id) with
    | none => rfl
    | some a =>
      obtain ⟨_, state⟩ := a
      cases state <;> rfl

theorem select_methodOf (hbind : L.bind .getNotification args = y)
    (hy : ∀ vs, y = .ok vs → vs = [.str id]) :
    (L.select S db .getNotification args >>= fun rows => methodOf P rows.head?) =
      y >>= fun _ => db.method P id := by
  unfold Library.select
  rw [hbind]
  cases y with
  | error x => rfl
  | ok vs =>
    obtain rfl := hy vs rfl
    show methodOf P (S.arrange _).head? = _
    rw [Database.arrange_getNotification]
    unfold Database.method
    cases db.notificationMethod.find? fun nm => decide (nm.id = id) with
    | none => rfl
    | some nm =>
      show ((lower P nm.type).bind fun type =>
          .ok [nm.name, .str type, nm.address, nm.period]).map some =
        (lower P nm.type).map _
      cases lower P nm.type <;> rfl

theorem reads_stateOf (hbind : L.bind .findAlarmState args = y)
    (hy : ∀ vs, y = .ok vs → vs = [.str id]) :
    Reads L S db
      (do
        let rows ← Db.execute .findAlarmState args
        let row ← Db.fetchone rows
        .ofExcept (stateOf row))
      (y.map fun _ => db.currentState id) := by
  have hselect : (L.select S db .findAlarmState args >>= fun rows => stateOf rows.head?) =
      y.map fun _ => db.currentState id := select_stateOf hbind hy
  rw [← hselect]
  exact reads_fetchone_of (by decide) stateOf

theorem reads_methodOf (hbind : L.bind .getNotification args = y)
    (hy : ∀ vs, y = .ok vs → vs = [.str id]) :
    Reads L S db
      (do
        let rows ← Db.execute .getNotification args
        let row ← Db.fetchone rows
        .ofExcept (methodOf P row))
      (y >>= fun _ => db.method P id) := by
  have hselect : (L.select S db .getNotification args >>= fun rows => methodOf P rows.head?) =
      y >>= fun _ => db.method P id := select_methodOf hbind hy
  rw [← hselect]
  exact reads_fetchone_of (by decide) (methodOf P)

/-- The query of `fetch_notifications`, however its two parameters are passed. -/
theorem reads_selectActions (alarm : Json) (args : Json → Json → Args)
    (hargs : ∀ definition state,
      L.bind .findAlarmAction (args definition state) = .ok [definition, state]) :
    Reads L S db
      (do
        let definition ← .ofExcept (alarm.getItem "alarmDefinitionId")
        let state ← .ofExcept (alarm.getItem "newState")
        Db.execute .findAlarmAction (args definition state))
      (do
        let definition ← alarm.getItem "alarmDefinitionId"
        let state ← alarm.getItem "newState"
        .ok (S.arrange (db.query .findAlarmAction [definition, state]))) := by
  have hsql : Sql.findAlarmAction ≠ .insertNotificationTypes := by decide
  have hread : Reads L S db _ _ :=
    (reads_ofExcept (alarm.getItem "alarmDefinitionId")).bind fun definition =>
      (reads_ofExcept (alarm.getItem "newState")).bind fun state =>
        reads_execute hsql (args definition state)
  unfold Library.select at hread
  simp only [hargs] at hread
  exact hread

/-- What `fetch_notifications` yields with a cursor. -/
theorem yields_actions (alarm : Json)
    (hL : ∀ definition state,
      L.bind .findAlarmAction (.tuple [definition, state]) = .ok [definition, state]) :
    Yields L S db
      (Gen.after
        (do
          CursorRepo.openCursor
          let definition ← .ofExcept (alarm.getItem "alarmDefinitionId")
          let state ← .ofExcept (alarm.getItem "newState")
          Db.execute .findAlarmAction (.tuple [definition, state]))
        (Db.iterate (actionRow P)))
      (db.actions P S alarm) :=
  (reads_openCursor.bind fun _ => reads_selectActions alarm (fun d s => .tuple [d, s]) hL).after
    fun rows => yields_iterate _ rows

/-- The names of the stored types, in the order of the server. -/
def Database.typeNames (S : Server) (db : Database) : List Json × Option PyExn :=
  streamOf firstColumn (S.arrange (db.query .findAllNotificationTypes []))

/-- What `fetch_notification_method_types` yields with a cursor. -/
theorem yields_types :
    Yields L S db
      (Gen.after
        (do
          CursorRepo.openCursor
          Db.execute .findAllNotificationTypes .none)
        (Db.iterate firstColumn))
      (db.typeNames S) :=
  (reads_openCursor.bind fun _ => reads_execute (by decide) _).after
    fun rows => yields_iterate _ rows

theorem Yields.list {Y : Type} {g : DbGen Y} {s : List Y × Option PyExn} (h : Yields L S db g s) :
    Reads L S db (g.comprehension .ok) (Gen.consume .ok s) := by
  unfold Reads
  refine ⟨by rw [Gen.run_list, h.1], fun k => ?_⟩
  rw [Gen.run_list]
  rcases h.2 k with ⟨k', hk⟩ | ⟨ys, -, hk⟩
  · rw [hk]
    exact Or.inl ⟨k', rfl⟩
  · rw [hk, Gen.consume_ok_some]
    exact Or.inr rfl

theorem Database.consume_actions (alarm : Json) :
    Gen.consume .ok (db.actions P S alarm) = (do
      let definition ← alarm.getItem "alarmDefinitionId"
      let state ← alarm.getItem "newState"
      (S.arrange (db.query .findAlarmAction [definition, state])).mapM (actionRow P)) := by
  unfold actions
  cases alarm.getItem "alarmDefinitionId" with
  | error x => exact Gen.consume_ok_some [] x
  | ok definition =>
    cases alarm.getItem "newState" with
    | error x => exact Gen.consume_ok_some [] x
    | ok state => exact consume_streamOf _ _

/-- What `fetch_notifications` of `OrmRepo` does with a connection. -/
theorem reads_actionList (alarm : Json) (args : Json → Json → Args)
    (hargs : ∀ definition state,
      L.bind .findAlarmAction (args definition state) = .ok [definition, state]) :
    Reads L S db
      (do
        let definition ← .ofExcept (alarm.getItem "alarmDefinitionId")
        let state ← .ofExcept (alarm.getItem "newState")
        let rows ← Db.execute .findAlarmAction (args definition state)
        (Db.iterate (actionRow P) rows).comprehension .ok)
      (Gen.consume .ok (db.actions P S alarm)) := by
  have hsql : Sql.findAlarmAction ≠ .insertNotificationTypes := by decide
  have hread : Reads L S db _ _ :=
    (reads_ofExcept (alarm.getItem "alarmDefinitionId")).bind fun definition =>
      (reads_ofExcept (alarm.getItem "newState")).bind fun state =>
        (reads_execute hsql (args definition state)).bind fun rows =>
          (yields_iterate (actionRow P) rows).list
  unfold Library.select at hread
  simp only [hargs, consume_streamOf] at hread
  rw [Database.consume_actions]
  exact hread

/-- What `fetch_notification_method_types` of `OrmRepo` does with a connection. -/
theorem reads_typeList :
    Reads L S db
      (do
        let rows ← Db.execute .findAllNotificationTypes .none
        let rows ← Db.fetchall rows
        .ofExcept (rows.mapM firstColumn))
      (Gen.consume .ok (db.typeNames S)) := by
  have hsql : Sql.findAllNotificationTypes ≠ .insertNotificationTypes := by decide
  have hread : Reads L S db _ _ := (reads_execute hsql .none).bind fun rows =>
    (reads_fetchall rows).bind fun rows => reads_ofExcept (rows.mapM firstColumn)
  unfold Database.typeNames
  rw [consume_streamOf]
  exact hread

theorem clean_actions (alarm : Json) : Clean (Gen.consume .ok (db.actions P S alarm)) := by
  rw [Database.consume_actions]
  exact (clean_getItem _ _).bind fun _ => (clean_getItem _ _).bind fun _ =>
    clean_mapM clean_actionRow _

theorem clean_types : Clean (Gen.consume .ok (db.typeNames S)) := by
  unfold Database.typeNames
  rw [consume_streamOf]
  exact clean_mapM clean_firstColumn _

end Calls

end MonascaNotification
