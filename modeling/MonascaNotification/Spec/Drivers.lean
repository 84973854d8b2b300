import MonascaNotification.Spec.Repositories

/-!
# The three drivers without connection failures

What each call of each driver gives from the tables: the results of the queries, and the
content of `notification_method_type` after an insert.
-/

namespace MonascaNotification

open Infra Prog

variable {P : Platform} {L : Library} {S : Server} {db : Database}

/-! ## Healthy sessions -/

/-- A session without a connection, or with one that lives. -/
def Session.healthy (db : Database) (connected : Bool) : Session :=
  ⟨db, if connected then some .alive else none⟩

section Healthy

variable {α : Type} {q : Db α} {out : Except PyExn α}

/-- Without a connection, a call opens one that lives. -/
theorem run_openCursor (f : Unit → Db α) (connected : Bool) :
    (CursorRepo.openCursor.bind f).run (DbEffect.sem L S) (.healthy db connected) =
      (f ()).run (DbEffect.sem L S) (.live db) := by
  cases connected <;> rfl

theorem run_after_openCursor {Y : Type} (f : Unit → Db α) (g : α → DbGen Y) (connected : Bool) :
    (Gen.after (CursorRepo.openCursor.bind f) g).run (DbEffect.sem L S) (.healthy db connected) =
      (Gen.after (CursorRepo.openCursor.bind f) g).run (DbEffect.sem L S) (.live db) := by
  cases connected <;> rfl

theorem run_cursorCall (hq : Reads L S db q out) (hout : Clean out) (resets connected : Bool) :
    (Prog.tryCatch (CursorRepo.openCursor.bind fun _ => q) (CursorRepo.onError resets)).run
      (DbEffect.sem L S) (.healthy db connected) = (out, .live db) := by
  rw [run_tryCatch, run_openCursor, ← run_tryCatch]
  exact (hq.tryCatch hout resets).1

theorem run_cursorStream {β Y : Type} {f : Unit → Db β} {g : β → DbGen Y}
    {s : List Y × Option PyExn}
    (hg : Yields L S db (Gen.after (CursorRepo.openCursor.bind f) g) s)
    (hs : Clean (Gen.consume .ok s)) (resets connected : Bool) :
    ((Gen.after (CursorRepo.openCursor.bind f) g).tryCatch fun x =>
        Gen.after (CursorRepo.onError resets x) fun (_ : Unit) => .done).run
      (DbEffect.sem L S) (.healthy db connected) = (s, .live db) := by
  rw [Gen.run_tryCatch, run_after_openCursor, ← Gen.run_tryCatch]
  exact (hg.tryCatch hs resets).1

theorem run_cursorList {β Y : Type} {f : Unit → Db β} {g : β → DbGen Y}
    {s : List Y × Option PyExn}
    (hg : Yields L S db (Gen.after (CursorRepo.openCursor.bind f) g) s)
    (hs : Clean (Gen.consume .ok s)) (resets connected : Bool) :
    (((Gen.after (CursorRepo.openCursor.bind f) g).tryCatch fun x =>
        Gen.after (CursorRepo.onError resets x) fun (_ : Unit) => .done).comprehension .ok).run
      (DbEffect.sem L S) (.healthy db connected) = (Gen.consume .ok s, .live db) := by
  rw [Gen.run_list, run_cursorStream hg hs]

theorem run_withConnection (hq : Reads L S db q out) (hout : Clean out) (connected : Bool) :
    (OrmRepo.withConnection q).run (DbEffect.sem L S) (.healthy db connected) =
      (out, .live db) :=
  (hq.tryCatch hout false).1

end Healthy

namespace Driver

variable (D : Driver)

/-- How a driver passes a string as the only parameter. -/
def bare (s : String) : Except PyExn (List Json) :=
  if D = .postgresql ∧ s.length ≠ 1 then .error .typeError else .ok [.str s]

theorem eq_of_bare {s : String} {vs : List Json} (h : D.bare s = .ok vs) : vs = [.str s] := by
  unfold bare at h
  split at h
  · cases h
  · cases h
    rfl

theorem bind_bare {sql : Sql} (hsql : sql.params.length = 1) (s : String) (hD : D ≠ .orm) :
    D.library.bind sql (.bare (.str s)) = D.bare s := by
  rw [Library.bind_bare hsql]
  cases D with
  | orm => exact absurd rfl hD
  | mysql => rfl
  | postgresql => simp [Library.bare, bare, library]

theorem clean_bare (s : String) : Clean (D.bare s) := by
  unfold bare
  split
  · exact clean_error id
  · exact clean_ok _

theorem clean_method (id : String) : Clean (db.method P id) := by
  unfold Database.method
  split
  · exact clean_ok none
  · exact (clean_lower _).map _

/-- Only a method without a type cannot be read. -/
theorem method_error {id : String} {x : PyExn} (h : db.method P id = .error x) :
    x = .attributeError := by
  unfold Database.method at h
  split at h
  · cases h
  · next nm _ =>
    unfold lower at h
    split at h
    · cases h
    · cases h
      rfl

/-- **`get_alarm_current_state` without connection failures.** -/
theorem run_getAlarmCurrentState (id : String) (connected : Bool) :
    (D.getAlarmCurrentState (.str id)).run (DbEffect.sem D.library S) (.healthy db connected) =
      ((D.bare id).map fun _ => db.currentState id, .live db) := by
  have hclean : Clean ((D.bare id).map fun _ => db.currentState id) := (D.clean_bare id).map _
  cases D with
  | mysql =>
    exact run_cursorCall (reads_stateOf (bind_bare _ rfl id (by decide)) fun _ => eq_of_bare _)
      hclean true connected
  | postgresql =>
    exact run_cursorCall (reads_stateOf (bind_bare _ rfl id (by decide)) fun _ => eq_of_bare _)
      hclean false connected
  | orm =>
    exact run_withConnection (reads_stateOf (y := Driver.orm.bare id) rfl fun _ => eq_of_bare _)
      hclean connected

/-- **`get_notification` without connection failures.** -/
theorem run_getNotification (id : String) (connected : Bool) :
    (D.getNotification P (.str id)).run (DbEffect.sem D.library S) (.healthy db connected) =
      (D.bare id >>= fun _ => db.method P id, .live db) := by
  have hclean : Clean (D.bare id >>= fun _ => db.method P id) :=
    (D.clean_bare id).bind fun _ => clean_method id
  cases D with
  | mysql =>
    exact run_cursorCall (reads_methodOf (bind_bare _ rfl id (by decide)) fun _ => eq_of_bare _)
      hclean true connected
  | postgresql =>
    exact run_cursorCall (reads_methodOf (bind_bare _ rfl id (by decide)) fun _ => eq_of_bare _)
      hclean false connected
  | orm =>
    exact run_withConnection (reads_methodOf (y := Driver.orm.bare id) rfl fun _ => eq_of_bare _)
      hclean connected

/-- **`fetch_notifications` without connection failures.** -/
theorem run_fetchNotifications (alarm : Json) (connected : Bool) :
    ((D.fetchNotifications P alarm).comprehension .ok).run (DbEffect.sem D.library S)
      (.healthy db connected) = (Gen.consume .ok (db.actions P S alarm), .live db) := by
  cases D with
  | mysql =>
    exact run_cursorList (yields_actions alarm fun _ _ => rfl) (clean_actions alarm) true connected
  | postgresql =>
    exact run_cursorList (yields_actions alarm fun _ _ => rfl) (clean_actions alarm) false connected
  | orm =>
    have hrun : (OrmRepo.fetchNotifications P alarm).run (DbEffect.sem orm.library S)
        (.healthy db connected) = (Gen.consume .ok (db.actions P S alarm), .live db) :=
      run_withConnection (reads_actionList alarm _ fun _ _ => rfl)
        (clean_actions alarm) connected
    rw [Gen.run_list]
    show (Gen.consume .ok ((Gen.after (OrmRepo.fetchNotifications P alarm) Gen.ofList).run _ _).1,
      ((Gen.after (OrmRepo.fetchNotifications P alarm) Gen.ofList).run _ _).2) = _
    rw [Gen.run_after, hrun]
    obtain ⟨ys, failure⟩ := db.actions P S alarm
    cases failure with
    | none => rw [Gen.consume_ok_none]; simp only [Gen.run_ofList, Gen.consume_ok_none]
    | some x => rw [Gen.consume_ok_some]; simp only [Gen.consume_ok_some]

/-- **`fetch_notification_method_types` without connection failures.** -/
theorem run_fetchNotificationMethodTypes (connected : Bool) :
    D.fetchNotificationMethodTypes.run (DbEffect.sem D.library S) (.healthy db connected) =
      (Gen.consume .ok (db.typeNames S), .live db) := by
  cases D with
  | mysql => exact run_cursorList yields_types clean_types true connected
  | postgresql => exact run_cursorList yields_types clean_types false connected
  | orm => exact run_withConnection reads_typeList clean_types connected

end Driver

/-! ## Inserts -/

namespace Database

theorem insertType_of_mem {name : String} (h : name ∈ db.notificationMethodType) :
    db.insertType (.str name) = .error (.driver .duplicateEntry) := dif_pos h

theorem insertType_of_not_mem {name : String} (h : name ∉ db.notificationMethodType) :
    ∃ db', db.insertType (.str name) = .ok db' ∧
      db'.notificationMethodType = db.notificationMethodType ++ [name] := ⟨_, dif_neg h, rfl⟩

/-- Several rows are inserted when none of them is there. -/
theorem insertTypes_of_new {names : List String} (hnodup : names.Nodup)
    (hnew : ∀ name ∈ names, name ∉ db.notificationMethodType) :
    ∃ db', db.insertTypes (names.map .str) = .ok db' ∧
      db'.notificationMethodType = db.notificationMethodType ++ names := by
  induction names generalizing db with
  | nil => exact ⟨db, rfl, (List.append_nil _).symm⟩
  | cons name names ih =>
    obtain ⟨hname, hnodup⟩ := List.nodup_cons.mp hnodup
    obtain ⟨db₁, hins, htable⟩ := insertType_of_not_mem (hnew name (List.mem_cons_self ..))
    have hrest : ∀ other ∈ names, other ∉ db₁.notificationMethodType := by
      intro other hother hmem
      rw [htable, List.mem_append, List.mem_singleton] at hmem
      rcases hmem with hmem | rfl
      · exact hnew other (List.mem_cons_of_mem _ hother) hmem
      · exact hname hother
    obtain ⟨db₂, hins₂, htable₂⟩ := ih hnodup hrest
    refine ⟨db₂, ?_, ?_⟩
    · rw [List.map_cons, insertTypes, hins]
      exact hins₂
    · rw [htable₂, htable, List.append_assoc]
      rfl

/-- None is inserted when one of them is there. -/
theorem insertTypes_of_mem {names : List String} {name : String} (hname : name ∈ names)
    (h : name ∈ db.notificationMethodType) :
    db.insertTypes (names.map .str) = .error (.driver .duplicateEntry) := by
  induction names generalizing db with
  | nil => cases hname
  | cons other names ih =>
    rw [List.map_cons, insertTypes]
    by_cases hother : other ∈ db.notificationMethodType
    · rw [insertType_of_mem hother]
      rfl
    · obtain ⟨db₁, hins, htable⟩ := insertType_of_not_mem hother
      rw [hins]
      rcases List.mem_cons.mp hname with rfl | hname
      · exact absurd h hother
      · exact ih hname (by rw [htable]; exact List.mem_append_left _ h)

end Database

theorem Library.execute_insert {args : Args} {name : String}
    (hbind : L.bind .insertNotificationTypes args = .ok [.str name]) :
    L.execute S .insertNotificationTypes args db =
      match db.insertType (.str name) with
      | .error x => (.error x, db)
      | .ok db' => (.ok [], db') := by
  unfold execute
  cases hins : db.insertType (.str name) with
  | error x => simp only [hbind, hins]
  | ok db' => simp only [hbind, hins]

theorem run_execute (sql : Sql) (args : Args) :
    (Db.execute sql args).run (DbEffect.sem L S) (.live db) =
      ((L.execute S sql args db).1, .live (L.execute S sql args db).2) := run_ofExcept _ _ _

theorem takeWhile_congr {α : Type} {p q : α → Bool} {l : List α} (h : ∀ a ∈ l, p a = q a) :
    l.takeWhile p = l.takeWhile q := by
  induction l with
  | nil => rfl
  | cons a l ih =>
    rw [List.takeWhile_cons, List.takeWhile_cons, h a (List.mem_cons_self ..),
      ih fun b hb => h b (List.mem_cons_of_mem _ hb)]

/-- An insert row by row stops at the first name that cannot be bound or is there already. -/
theorem run_executeEach (S : Server) (db : Database) (pass : String → Args)
    (bound : String → Prop) [DecidablePred bound]
    (hok : ∀ name, bound name → L.bind .insertNotificationTypes (pass name) = .ok [.str name])
    (herror : ∀ name, ¬ bound name →
      ∃ x, L.bind .insertNotificationTypes (pass name) = .error x)
    {names : List String} (hnodup : names.Nodup) :
    ∃ out db', (Db.executeEach .insertNotificationTypes (names.map pass)).run (DbEffect.sem L S)
        (.live db) = (out, .live db') ∧
      db'.notificationMethodType = db.notificationMethodType ++
        names.takeWhile fun name => name ∉ db.notificationMethodType ∧ bound name := by
  induction names generalizing db with
  | nil => exact ⟨.ok (), db, rfl, (List.append_nil _).symm⟩
  | cons name names ih =>
    obtain ⟨hname, hnodup⟩ := List.nodup_cons.mp hnodup
    have hstop : ¬ (name ∉ db.notificationMethodType ∧ bound name) →
        db.notificationMethodType = db.notificationMethodType ++ (name :: names).takeWhile
          fun name => name ∉ db.notificationMethodType ∧ bound name := by
      intro h
      rw [List.takeWhile_cons_of_neg (by simpa using h), List.append_nil]
    show ∃ out db', ((Db.execute _ (pass name)).bind fun _ =>
      Db.executeEach _ (names.map pass)).run _ _ = _ ∧ _
    rw [run_bind, run_execute]
    by_cases hbound : bound name
    · rw [Library.execute_insert (hok name hbound)]
      by_cases hmem : name ∈ db.notificationMethodType
      · rw [Database.insertType_of_mem hmem]
        exact ⟨_, db, rfl, hstop fun h => h.1 hmem⟩
      · obtain ⟨db₁, hins, htable⟩ := Database.insertType_of_not_mem hmem
        rw [hins]
        obtain ⟨out, db₂, hrun, htable₂⟩ := @ih db₁ hnodup
        refine ⟨out, db₂, hrun, ?_⟩
        -- the names after `name` differ from it
        have hsame : (names.takeWhile fun other =>
              other ∉ db₁.notificationMethodType ∧ bound other) =
            names.takeWhile fun other => other ∉ db.notificationMethodType ∧ bound other := by
          refine takeWhile_congr fun other hother => ?_
          have hne : other ≠ name := fun h => hname (h ▸ hother)
          simp [htable, hne]
        rw [htable₂, hsame, htable, List.takeWhile_cons_of_pos (by simpa using ⟨hmem, hbound⟩),
          List.append_assoc]
        rfl
    · obtain ⟨x, hx⟩ := herror name hbound
      unfold Library.execute
      rw [hx]
      exact ⟨_, db, rfl, hstop fun h => hbound h.2⟩

/-- With parameters that can be bound, one insert has all the names in their order. -/
theorem Library.insertRows_names (L : Library) (db : Database) (pass : String → Args)
    (names : List String)
    (hpass : ∀ name ∈ names, L.bind .insertNotificationTypes (pass name) = .ok [.str name]) :
    L.insertRows .insertNotificationTypes (names.map pass) db =
      match db.insertTypes (names.map .str) with
      | .error x => (.error x, db)
      | .ok db' => (.ok (), db') := by
  have hbind : (names.map pass).mapM (L.bind .insertNotificationTypes) =
      .ok (names.map fun name => [.str name]) := by
    induction names with
    | nil => rfl
    | cons name names ih =>
      rw [List.map_cons, List.mapM_cons, hpass name (List.mem_cons_self ..),
        ih fun other hother => hpass other (List.mem_cons_of_mem _ hother)]
      rfl
  have hflat : (names.map fun name => [Json.str name]).flatten = names.map .str := by
    rw [← List.flatMap_def, ← List.map_eq_flatMap]
  unfold insertRows
  cases hins : db.insertTypes (names.map .str) with
  | error x => simp only [hbind, hflat, hins]
  | ok db' => simp only [hbind, hflat, hins]

namespace Driver

/-- The names that an insert of `names` in their order adds to the table. -/
def inserted (D : Driver) (table names : List String) : List String :=
  match D with
  | .mysql => if ∀ name ∈ names, name ∉ table then names else []
  | .postgresql => names.takeWhile fun name => name ∉ table ∧ name.length = 1
  | .orm => names.takeWhile fun name => name ∉ table

/-- Without a reset, the handler leaves the session as it is. -/
theorem run_handled {p : Db Unit} {out : Except PyExn Unit} {w w' : Session}
    (h : p.run (DbEffect.sem L S) w = (out, w')) :
    ∃ out', (p.tryCatch (CursorRepo.onError false)).run (DbEffect.sem L S) w = (out', w') := by
  rw [run_tryCatch, h]
  cases out with
  | ok a => exact ⟨_, rfl⟩
  | error x => cases x <;> exact ⟨_, rfl⟩

/-- One insert has the names when none of them is in the table. -/
theorem run_executemany (S : Server) (db : Database) {names : List String} (hnodup : names.Nodup) :
    ∃ out db', (MysqlRepo.executemany .insertNotificationTypes
        (names.map fun t => .bare (.str t))).run (DbEffect.sem .pymysql S) (.live db) =
          (out, .live db') ∧
      (out = .ok () ∨ out = .error (.driver .duplicateEntry)) ∧
      db'.notificationMethodType = db.notificationMethodType ++
        Driver.mysql.inserted db.notificationMethodType names := by
  cases names with
  | nil => exact ⟨.ok (), db, rfl, Or.inl rfl, (List.append_nil _).symm⟩
  | cons name names =>
    have hinsert := Library.insertRows_names .pymysql db (fun t => .bare (.str t))
      (name :: names) fun _ _ => rfl
    show ∃ out db', (Prog.ofExcept (Library.insertRows .pymysql .insertNotificationTypes
        ((name :: names).map fun t => .bare (.str t)) db).1).run (DbEffect.sem .pymysql S)
      ⟨(Library.insertRows .pymysql .insertNotificationTypes
        ((name :: names).map fun t => .bare (.str t)) db).2, some .alive⟩ = _ ∧ _
    rw [hinsert, run_ofExcept]
    unfold inserted
    by_cases hnew : ∀ other ∈ name :: names, other ∉ db.notificationMethodType
    · obtain ⟨db', hins, htable⟩ := Database.insertTypes_of_new hnodup hnew
      rw [hins, if_pos hnew]
      exact ⟨_, db', rfl, Or.inl rfl, htable⟩
    · obtain ⟨other, hother, hmem⟩ : ∃ other ∈ name :: names,
          other ∈ db.notificationMethodType := by
        by_contra hnone
        exact hnew fun other hother hmem => hnone ⟨other, hother, hmem⟩
      rw [Database.insertTypes_of_mem hother hmem, if_neg hnew]
      exact ⟨_, db, rfl, Or.inr rfl, (List.append_nil _).symm⟩

/-- **`insert_notification_method_types` without connection failures.** -/
theorem run_insertNotificationMethodTypes (D : Driver) (S : Server) (db : Database)
    {names : List String} (hnodup : names.Nodup) (connected : Bool) :
    ∃ out db', (D.insertNotificationMethodTypes names).run (DbEffect.sem D.library S)
        (.healthy db connected) = (out, .live db') ∧
      db'.notificationMethodType = db.notificationMethodType ++
        D.inserted db.notificationMethodType names := by
  cases D with
  | mysql =>
    obtain ⟨out, db', hrun, hout, htable⟩ := run_executemany S db hnodup
    have hcall : (CursorRepo.openCursor.bind fun _ => MysqlRepo.executemany
          .insertNotificationTypes (names.map fun t => .bare (.str t))).run
        (DbEffect.sem .pymysql S) (.healthy db connected) = (out, .live db') := by
      rw [run_openCursor]
      exact hrun
    refine ⟨.ok (), db', (run_tryCatch _ _ _ _).trans ?_, htable⟩
    rw [bind_eq, show library .mysql = .pymysql from rfl, hcall]
    rcases hout with rfl | rfl
    · rfl
    · rfl
  | postgresql =>
    have hshort : ∀ name : String, name.length = 1 →
        Library.psycopg2.bind .insertNotificationTypes (.bare (.str name)) = .ok [.str name] := by
      intro name hname
      rw [Library.bind_bare rfl]
      exact if_neg fun h => h.2 hname
    have hlong : ∀ name : String, name.length ≠ 1 →
        ∃ x, Library.psycopg2.bind .insertNotificationTypes (.bare (.str name)) = .error x := by
      intro name hname
      rw [Library.bind_bare rfl]
      exact ⟨.typeError, if_pos ⟨rfl, hname⟩⟩
    obtain ⟨out, db', hrun, htable⟩ := run_executeEach S db (fun t => .bare (.str t))
      (fun name => name.length = 1) hshort hlong hnodup
    rw [← run_openCursor (fun _ => Db.executeEach _ _) connected] at hrun
    obtain ⟨out', hrun'⟩ := run_handled hrun
    exact ⟨out', db', hrun', htable⟩
  | orm =>
    obtain ⟨out, db', hrun, htable⟩ := run_executeEach (L := .sqlalchemy) S db
      (fun t => .named [("b_name", .str t)]) (fun _ => True) (fun _ _ => rfl)
      (fun _ h => absurd trivial h) hnodup
    have hconnect : (Prog.bind Db.connect fun _ => Db.executeEach .insertNotificationTypes
        (names.map fun t => .named [("b_name", .str t)])).run (DbEffect.sem .sqlalchemy S)
          (.healthy db connected) = (out, .live db') := hrun
    obtain ⟨out', hrun'⟩ := run_handled hconnect
    simp only [and_true] at htable
    exact ⟨out', db', hrun', htable⟩

end Driver

end MonascaNotification
