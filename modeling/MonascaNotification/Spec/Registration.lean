import MonascaNotification.Model.NotificationProcessor
import MonascaNotification.Spec.Drivers

/-!
# The type table while others write to it

What the calls of a driver give when other processes insert types at any moment. All that is
known of the others is that no type is removed, so a read lies between the table at its start and
the table at its end, and after an insert at least one of its names is there.
-/

namespace MonascaNotification

open Infra Prog

/-- `db ≤ db'`: no type of `db` is missing in `db'`. -/
instance : Preorder Database where
  le db db' := ∀ ⦃name⦄, name ∈ db.notificationMethodType → name ∈ db'.notificationMethodType
  le_refl _ _ := id
  le_trans _ _ _ h h' _ hname := h' (h hname)

variable {L : Library} {D : Driver} {α : Type}

/-! ## Single calls -/

/-- No connection yet, or one that lives. -/
def Up (connection : Option Connection) : Prop := connection = none ∨ connection = some .alive

/-- The result is `out`, and there is a connection. -/
def Gives (out : Except PyExn α) : Except PyExn α → Database → Option Connection → Prop :=
  fun out' _ connection => out' = out ∧ connection = some .alive

theorem safe_perform {Q : Except PyExn α → Database → Option Connection → Prop} {e : DbEffect}
    {k : e.Answer → Db α} {db : Database} {connection : Option Connection}
    (h : ∀ db', db ≤ db' → ∀ S : Server,
      db' ≤ (DbEffect.sem L S e ⟨db', connection⟩).2.db ∧
      Safe (DbEffect.acts L) Q (k (DbEffect.sem L S e ⟨db', connection⟩).1)
        (DbEffect.sem L S e ⟨db', connection⟩).2.db
        (DbEffect.sem L S e ⟨db', connection⟩).2.connection) :
    Safe (DbEffect.acts L) Q (.perform e k) db connection := by
  intro db' hdb'
  refine ⟨⟨_, _, _, ⟨id, fun _ => .rfl⟩, rfl⟩, ?_⟩
  rintro answer db'' connection' ⟨S, hact⟩
  have hstep := h db' hdb' S
  rw [hact] at hstep
  exact hstep

theorem safe_ofExcept {Q : Except PyExn α → Database → Option Connection → Prop}
    {y : Except PyExn α} {db : Database} {connection : Option Connection}
    (h : ∀ db', db ≤ db' → Q y db' connection) :
    Safe (DbEffect.acts L) Q (.ofExcept y) db connection := by
  cases y <;> exact h

theorem safe_fetch (db : Database) :
    Safe (DbEffect.acts L) (Gives (.ok ())) Db.fetch db (some .alive) := by
  refine safe_perform fun db' _ S => ⟨le_rfl, ?_⟩
  exact fun _ _ => ⟨rfl, rfl⟩

theorem safe_connect (db : Database) (connection : Option Connection) :
    Safe (DbEffect.acts L) (Gives (.ok ())) Db.connect db connection := by
  refine safe_perform fun db' _ S => ⟨le_rfl, ?_⟩
  exact fun _ _ => ⟨rfl, rfl⟩

theorem safe_cursor (db : Database) :
    Safe (DbEffect.acts L) (Gives (.ok ())) Db.cursor db (some .alive) := by
  refine safe_perform fun db' _ S => ⟨le_rfl, ?_⟩
  exact fun _ _ => ⟨rfl, rfl⟩

theorem safe_autocommit (db : Database) :
    Safe (DbEffect.acts L) (Gives (.ok ())) Db.autocommit db (some .alive) := by
  refine safe_perform fun db' _ S => ⟨le_rfl, ?_⟩
  exact fun _ _ => ⟨rfl, rfl⟩

/-- After a call that gives a value, the next one starts with a connection. -/
theorem safe_next {β : Type} {p : Db α} {a : α} {f : α → Db β} {db : Database}
    {connection : Option Connection}
    {Q : Except PyExn β → Database → Option Connection → Prop}
    (hp : Safe (DbEffect.acts L) (Gives (.ok a)) p db connection)
    (hf : ∀ db', db ≤ db' → Safe (DbEffect.acts L) Q (f a) db' (some .alive)) :
    Safe (DbEffect.acts L) Q (p.bind f) db connection := by
  refine hp.bind (fun a' db' connection' hdb' ⟨ha, hc⟩ => ?_) fun x db' _ _ h => nomatch h.1
  cases ha
  rw [hc]
  exact hf db' hdb'

theorem safe_fetchall (rows : List Row) (db : Database) :
    Safe (DbEffect.acts L) (Gives (.ok rows)) (Db.fetchall rows) db (some .alive) :=
  safe_next (safe_fetch db) fun _ _ _ _ => ⟨rfl, rfl⟩

theorem safe_openCursor {connection : Option Connection} (hup : Up connection) (db : Database) :
    Safe (DbEffect.acts L) (Gives (.ok ())) CursorRepo.openCursor db connection := by
  refine safe_perform fun db' _ S => ⟨le_rfl, ?_⟩
  rcases hup with rfl | rfl
  · exact safe_next (safe_connect db' none) fun db₁ _ => safe_next (safe_autocommit db₁)
      fun db₂ _ => safe_cursor db₂
  · exact safe_cursor db'

/-! ## Reading the types -/

/-- The values are names, with all names of `db` and no others than those of `db'`. -/
def Between (db db' : Database) (values : List Json) : Prop :=
  (∀ name ∈ db.notificationMethodType, Json.str name ∈ values) ∧
    ∀ v ∈ values, ∃ name ∈ db'.notificationMethodType, v = .str name

theorem mapM_firstColumn {rows : List Row} (h : ∀ row ∈ rows, row ≠ []) :
    rows.mapM firstColumn = .ok (rows.map fun row => row.headD .null) := by
  induction rows with
  | nil => rfl
  | cons row rows ih =>
    rw [List.mapM_cons, ih fun other hother => h other (List.mem_cons_of_mem _ hother)]
    cases row with
    | nil => exact absurd rfl (h [] (List.mem_cons_self ..))
    | cons v row => rfl

/-- What one select gives: rows with the names of the table. -/
theorem types_arranged (S : Server) (db : Database) : ∃ values,
    (S.arrange (db.query .findAllNotificationTypes [])).mapM firstColumn = .ok values ∧
      Between db db values := by
  have hrows : ∀ row, row ∈ S.arrange (db.query .findAllNotificationTypes []) ↔
      ∃ name ∈ db.notificationMethodType, row = [.str name] := by
    intro row
    rw [(S.perm _).mem_iff]
    show row ∈ db.notificationMethodType.map (fun name => [Json.str name]) ↔ _
    rw [List.mem_map]
    exact exists_congr fun name => and_congr_right fun _ => eq_comm
  refine ⟨_, mapM_firstColumn fun row hrow => ?_, fun name hname => ?_, fun v hv => ?_⟩
  · obtain ⟨name, -, rfl⟩ := (hrows row).mp hrow
    exact List.cons_ne_nil _ _
  · exact List.mem_map.mpr ⟨[.str name], (hrows _).mpr ⟨name, hname, rfl⟩, rfl⟩
  · obtain ⟨row, hrow, rfl⟩ := List.mem_map.mp hv
    obtain ⟨name, hname, rfl⟩ := (hrows row).mp hrow
    exact ⟨name, hname, rfl⟩

theorem Between.mono {db₁ db₂ db₃ db₄ : Database} {values : List Json}
    (h : Between db₂ db₃ values) (h₁ : db₁ ≤ db₂) (h₂ : db₃ ≤ db₄) : Between db₁ db₄ values := by
  refine ⟨fun name hname => h.1 name (h₁ hname), fun v hv => ?_⟩
  obtain ⟨name, hname, rfl⟩ := h.2 v hv
  exact ⟨name, h₂ hname, rfl⟩

theorem safe_selectTypes (db : Database) :
    Safe (DbEffect.acts L)
      (fun out db' connection => (∃ rows values, out = .ok rows ∧
        rows.mapM firstColumn = .ok values ∧ Between db db' values) ∧
        connection = some .alive)
      (Db.execute .findAllNotificationTypes .none) db (some .alive) := by
  refine safe_perform fun db' hdb' S => ⟨le_rfl, ?_⟩
  intro db'' hdb''
  obtain ⟨values, hvalues, hbetween⟩ := types_arranged S db'
  exact ⟨⟨_, values, rfl, hvalues, hbetween.mono hdb' hdb''⟩, rfl⟩

/-- The loop over the rows of a cursor, as a list. -/
theorem safe_iterate {Y : Type} (f : Row → Except PyExn Y) (rows : List Row) (db : Database) :
    Safe (DbEffect.acts L) (Gives (rows.mapM f)) ((Db.iterate f rows).comprehension .ok) db
      (some .alive) := by
  induction rows generalizing db with
  | nil =>
    unfold Db.iterate
    rw [Gen.comprehension_after]
    exact safe_next (safe_fetch db) fun db' _ => safe_ofExcept (y := .ok []) fun _ _ => ⟨rfl, rfl⟩
  | cons row rows ih =>
    unfold Db.iterate
    rw [Gen.comprehension_after, List.mapM_cons]
    show Safe _ _ ((Db.fetch.bind fun _ => Prog.ofExcept (f row)).bind _) _ _
    rw [Prog.bind_assoc]
    refine safe_next (safe_fetch db) fun db' _ => ?_
    cases f row with
    | error x => exact fun _ _ => ⟨rfl, rfl⟩
    | ok y =>
      refine safe_map.mpr ((ih db').imp fun out _ _ _ hout => ?_)
      obtain ⟨rfl, hc⟩ := hout
      refine ⟨?_, hc⟩
      cases rows.mapM f <;> rfl

/-- A read of the types. -/
def ReadsTypes (db : Database) :
    Except PyExn (List Json) → Database → Option Connection → Prop :=
  fun out db' connection => (∃ values, out = .ok values ∧ Between db db' values) ∧ Up connection

/-- What `MysqlRepo` and `PostgresqlRepo` do inside of their handler. -/
theorem safe_cursorTypes {connection : Option Connection} (hup : Up connection) (db : Database) :
    Safe (DbEffect.acts L) (ReadsTypes db)
      ((Gen.after
        (do
          CursorRepo.openCursor
          Db.execute .findAllNotificationTypes .none)
        (Db.iterate firstColumn)).comprehension .ok) db connection := by
  rw [Gen.comprehension_after]
  show Safe _ _ ((CursorRepo.openCursor.bind fun _ => _).bind _) _ _
  rw [Prog.bind_assoc]
  refine safe_next (safe_openCursor hup db) fun db₁ hdb₁ => ?_
  refine (safe_selectTypes db₁).bind ?_ ?_
  · rintro a db₂ connection₂ - ⟨⟨rows, values, ha, hvalues, hbetween⟩, rfl⟩
    cases ha
    refine (safe_iterate firstColumn a db₂).imp ?_
    rintro out db₃ connection₃ hdb₃ ⟨rfl, rfl⟩
    exact ⟨⟨values, hvalues, hbetween.mono hdb₁ hdb₃⟩, Or.inr rfl⟩
  · rintro x db₂ connection₂ - ⟨⟨rows, values, hx, -⟩, -⟩
    cases hx

theorem safe_fetchNotificationMethodTypes {connection : Option Connection} (hup : Up connection)
    (D : Driver) (db : Database) :
    Safe (DbEffect.acts L) (ReadsTypes db) D.fetchNotificationMethodTypes db connection := by
  have hnone : ∀ x db' connection', ¬ ReadsTypes db (.error x) db' connection' := by
    rintro x db' connection' ⟨⟨values, h, -⟩, -⟩
    cases h
  cases D with
  | mysql => exact safe_list_tryCatch (safe_cursorTypes hup db) hnone
  | postgresql => exact safe_list_tryCatch (safe_cursorTypes hup db) hnone
  | orm =>
    refine Safe.tryCatch (Q := ReadsTypes db) ?_ (fun _ _ _ _ h => h)
      fun x db' connection' _ h => absurd h (hnone x db' connection')
    refine safe_next (safe_connect db connection) fun db₁ hdb₁ => ?_
    refine (safe_selectTypes db₁).bind ?_ ?_
    · rintro a db₂ connection₂ - ⟨⟨rows, values, ha, hvalues, hbetween⟩, rfl⟩
      cases ha
      refine safe_next (safe_fetchall a db₂) fun db₃ hdb₃ => ?_
      exact safe_ofExcept fun db₄ hdb₄ =>
        ⟨⟨values, hvalues, hbetween.mono hdb₁ (le_trans hdb₃ hdb₄)⟩, Or.inr rfl⟩
    · rintro x db₂ connection₂ - ⟨⟨rows, values, hx, -⟩, -⟩
      cases hx

/-! ## Inserting types -/

/-- The parameter that a driver passes for the name of a type. -/
def Driver.nameArgs : Driver → String → Args
  | .orm, name => .named [("b_name", .str name)]
  | _, name => .bare (.str name)

/-- The library binds the names. -/
def Binds (L : Library) (D : Driver) (names : List String) : Prop :=
  ∀ name ∈ names, L.bind .insertNotificationTypes (D.nameArgs name) = .ok [.str name]

/-- After the insert of a row its name is there, whether or not it was there before. -/
theorem safe_executeInsert {args : Args} {name : String}
    (hbind : L.bind .insertNotificationTypes args = .ok [.str name]) (db : Database) :
    Safe (DbEffect.acts L)
      (fun out db' connection =>
        (out = .ok [] ∨ out = .error (.driver .duplicateEntry)) ∧ connection = some .alive ∧
          name ∈ db'.notificationMethodType)
      (Db.execute .insertNotificationTypes args) db (some .alive) := by
  refine safe_perform fun db' hdb' S => ?_
  show db' ≤ (L.execute S .insertNotificationTypes args db').2 ∧
    Safe _ _ (.ofExcept (L.execute S .insertNotificationTypes args db').1)
      (L.execute S .insertNotificationTypes args db').2 (some Connection.alive)
  rw [Library.execute_insert hbind]
  by_cases hname : name ∈ db'.notificationMethodType
  · rw [Database.insertType_of_mem hname]
    exact ⟨le_rfl, fun db'' hdb'' => ⟨Or.inr rfl, rfl, hdb'' hname⟩⟩
  · obtain ⟨db₁, hins, htable⟩ := Database.insertType_of_not_mem hname
    rw [hins]
    refine ⟨fun other hother => ?_, fun db'' hdb'' => ⟨Or.inl rfl, rfl, hdb'' ?_⟩⟩
    · show other ∈ db₁.notificationMethodType
      rw [htable]
      exact List.mem_append_left _ hother
    · show name ∈ db₁.notificationMethodType
      rw [htable]
      exact List.mem_append_right _ (List.mem_singleton_self name)

/-- The table has one of the names. -/
def Hit (names : List String) (db : Database) : Prop :=
  ∃ name ∈ names, name ∈ db.notificationMethodType

theorem Hit.mono {names : List String} {db db' : Database} (h : Hit names db) (hdb : db ≤ db') :
    Hit names db' := by
  obtain ⟨name, hmem, htable⟩ := h
  exact ⟨name, hmem, hdb htable⟩

/-- What an insert of names gives: at least one of them is there. -/
def Inserts (names : List String) (refused : PyExn) :
    Except PyExn Unit → Database → Option Connection → Prop :=
  fun out db connection => (out = .ok () ∨ out = .error refused) ∧ connection = some .alive ∧
    (names ≠ [] → Hit names db)

/-- The handler of an insert that was refused. -/
theorem Inserts.handled {names : List String} {x refused : PyExn} {out : Except PyExn Unit}
    {db db' : Database} {connection : Option Connection}
    (h : Inserts names (.driver .duplicateEntry) (.error x) db connection) (hdb : db ≤ db')
    (hout : out = .ok () ∨ out = .error refused) : Inserts names refused out db' connection :=
  ⟨hout, h.2.1, fun hne => (h.2.2 hne).mono hdb⟩

theorem Inserts.eq_duplicate {names : List String} {x : PyExn} {db : Database}
    {connection : Option Connection}
    (h : Inserts names (.driver .duplicateEntry) (.error x) db connection) :
    x = .driver .duplicateEntry := by
  rcases h.1 with hx | hx
  · cases hx
  · exact Except.error.inj hx

theorem safe_executeEach {names : List String} (hbind : Binds L D names) (db : Database) :
    Safe (DbEffect.acts L) (Inserts names (.driver .duplicateEntry))
      (Db.executeEach .insertNotificationTypes (names.map D.nameArgs)) db (some .alive) := by
  induction names generalizing db with
  | nil => exact fun _ _ => ⟨Or.inl rfl, rfl, fun h => absurd rfl h⟩
  | cons name names ih =>
    have hfirst := safe_executeInsert (hbind name (List.mem_cons_self ..)) db
    refine hfirst.bind ?_ ?_
    · rintro rows db₁ connection₁ - ⟨-, rfl, hname⟩
      have hrest := ih (fun other hother => hbind other (List.mem_cons_of_mem _ hother)) db₁
      refine hrest.imp fun out db₂ connection₂ hdb₂ ⟨hout, hc, _⟩ => ⟨hout, hc, fun _ => ?_⟩
      exact ⟨name, List.mem_cons_self .., hdb₂ hname⟩
    · rintro x db₁ connection₁ - ⟨hx, rfl, hname⟩
      refine ⟨Or.inr ?_, rfl, fun _ => ⟨name, List.mem_cons_self .., hname⟩⟩
      rcases hx with hx | hx
      · cases hx
      · exact congrArg _ (Except.error.inj hx)

/-- One insert of new names, or of names of which one is there. -/
theorem safe_insertRows {pass : String → Args} {names : List String} (hne : names ≠ [])
    (hnodup : names.Nodup)
    (hbind : ∀ name ∈ names, L.bind .insertNotificationTypes (pass name) = .ok [.str name])
    (db : Database) :
    Safe (DbEffect.acts L) (Inserts names (.driver .duplicateEntry))
      (.perform (.insertRows .insertNotificationTypes (names.map pass))
        fun (answer : Except PyExn Unit) => .ofExcept answer) db (some .alive) := by
  refine safe_perform fun db' hdb' S => ?_
  show db' ≤ (L.insertRows .insertNotificationTypes (names.map pass) db').2 ∧
    Safe _ _ (.ofExcept (L.insertRows .insertNotificationTypes (names.map pass) db').1)
      (L.insertRows .insertNotificationTypes (names.map pass) db').2 (some Connection.alive)
  rw [L.insertRows_names db' pass names hbind]
  by_cases hnew : ∀ name ∈ names, name ∉ db'.notificationMethodType
  · obtain ⟨db₁, hins, htable⟩ := Database.insertTypes_of_new hnodup hnew
    rw [hins]
    refine ⟨fun other hother => ?_, fun db'' hdb'' => ⟨Or.inl rfl, rfl, fun _ => ?_⟩⟩
    · show other ∈ db₁.notificationMethodType
      rw [htable]
      exact List.mem_append_left _ hother
    · obtain ⟨name, hname⟩ := List.exists_mem_of_ne_nil names hne
      refine ⟨name, hname, hdb'' ?_⟩
      show name ∈ db₁.notificationMethodType
      rw [htable]
      exact List.mem_append_right _ hname
  · obtain ⟨name, hname, hmem⟩ : ∃ name ∈ names, name ∈ db'.notificationMethodType := by
      by_contra hnone
      exact hnew fun name hname hmem => hnone ⟨name, hname, hmem⟩
    rw [Database.insertTypes_of_mem hname hmem]
    exact ⟨le_rfl, fun db'' hdb'' => ⟨Or.inr rfl, rfl, fun _ => ⟨name, hname, hdb'' hmem⟩⟩⟩

/-- `insert_notification_method_types` returns or raises for the caller to look again. -/
theorem safe_insertNotificationMethodTypes {connection : Option Connection}
    (hup : Up connection) {names : List String} (hnodup : names.Nodup) (hbind : Binds L D names)
    (db : Database) :
    Safe (DbEffect.acts L) (Inserts names .databaseException)
      (D.insertNotificationMethodTypes names) db connection := by
  -- without a reset, the handler turns the duplicate into a DatabaseException
  have hhandler : ∀ x db' connection', Inserts names (.driver .duplicateEntry) (.error x) db'
      connection' → Safe (DbEffect.acts L) (Inserts names .databaseException)
        (CursorRepo.onError false x) db' connection' := by
    intro x db' connection' h
    rw [h.eq_duplicate]
    exact fun db'' hdb'' => h.handled hdb'' (Or.inr rfl)
  have hok : ∀ a db' connection', Inserts names (.driver .duplicateEntry) (.ok a) db'
      connection' → Inserts names .databaseException (.ok a) db' connection' :=
    fun _ _ _ h => ⟨Or.inl rfl, h.2⟩
  cases D with
  | mysql =>
    refine Safe.tryCatch (Q := Inserts names (.driver .duplicateEntry)) ?_
      (fun a db' connection' _ => hok a db' connection') ?_
    · refine safe_next (safe_openCursor hup db) fun db₁ _ => ?_
      cases names with
      | nil => exact fun _ _ => ⟨Or.inl rfl, rfl, fun h => absurd rfl h⟩
      | cons name names => exact safe_insertRows (List.cons_ne_nil _ _) hnodup hbind db₁
    · -- the duplicate is swallowed
      intro x db' connection' _ h
      rw [h.eq_duplicate]
      exact fun db'' hdb'' => h.handled hdb'' (Or.inl rfl)
  | postgresql =>
    refine Safe.tryCatch (Q := Inserts names (.driver .duplicateEntry)) ?_
      (fun a db' connection' _ => hok a db' connection')
      (fun x db' connection' _ => hhandler x db' connection')
    exact safe_next (safe_openCursor hup db) fun db₁ _ => safe_executeEach hbind db₁
  | orm =>
    refine Safe.tryCatch (Q := Inserts names (.driver .duplicateEntry)) ?_
      (fun a db' connection' _ => hok a db' connection')
      (fun x db' connection' _ => hhandler x db' connection')
    exact safe_next (safe_connect db connection) fun db₁ _ => safe_executeEach hbind db₁

end MonascaNotification
