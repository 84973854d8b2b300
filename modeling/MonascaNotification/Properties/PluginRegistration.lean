import Mathlib.Data.List.Perm.Subperm
import MonascaNotification.Spec.Registration

/-!
# Processes that start at the same time

Every process that starts adds the types of its plugins, whatever the others do in between.

The number of attempts is the number of types that are missing at the first look. It is enough
because each attempt leaves fewer missing types: when an insert succeeds its names are there, and
when it meets a duplicate that name is (`Left.next`).
-/

namespace MonascaNotification

open Infra Prog NotificationProcessor

variable {P : Platform} {T : Notifiers} {D : Driver} {L : Library} {order : SetOrder}
  {enabled remaining types : List String} {db db₁ db₂ : Database} {n : Nat}

/-! ## The difference of two sets -/

theorem mem_difference {persisted : List Json} {name : String} :
    name ∈ difference order enabled persisted ↔ name ∈ enabled ∧ Json.str name ∉ persisted := by
  unfold difference
  rw [(order.perm _).mem_iff, List.mem_filter, List.mem_dedup, decide_eq_true_eq]

theorem nodup_difference {persisted : List Json} : (difference order enabled persisted).Nodup := by
  unfold difference
  rw [(order.perm _).nodup_iff]
  exact (List.nodup_dedup enabled).filter _

/-- What a look at the table, from `db` on, gives: the names that it did not find. -/
structure Missing (enabled : List String) (db db' : Database) (types : List String) : Prop where
  nodup : types.Nodup
  covers : ∀ name ∈ enabled, name ∈ types ∨ name ∈ db'.notificationMethodType
  enabled : ∀ name ∈ types, name ∈ enabled
  notMem : ∀ name ∈ types, name ∉ db.notificationMethodType

theorem Between.missing {values : List Json} (h : Between db db₁ values) :
    Missing enabled db db₁ (difference order enabled values) where
  nodup := nodup_difference
  covers := by
    intro name hname
    by_cases hv : Json.str name ∈ values
    · obtain ⟨other, hother, heq⟩ := h.2 _ hv
      cases heq
      exact Or.inr hother
    · exact Or.inl (mem_difference.mpr ⟨hname, hv⟩)
  enabled := fun name hname => (mem_difference.mp hname).1
  notMem := fun name hname hmem => (mem_difference.mp hname).2 (h.1 name hmem)

theorem safe_remainingPluginTypes {connection : Option Connection} (hup : Up connection)
    (db : Database) :
    Safe (DbEffect.acts L)
      (fun out db' connection => (∃ types, out = .ok types ∧
        Missing (T.enabledNotifications P) db db' types) ∧ Up connection)
      (remainingPluginTypes P T D order) db connection := by
  refine (safe_fetchNotificationMethodTypes hup D db).bind ?_ ?_
  · rintro values db₁ connection₁ - ⟨⟨values', hvalues, hbetween⟩, hup₁⟩ db₂ hdb₂
    cases hvalues
    exact ⟨⟨_, rfl, (hbetween.mono le_rfl hdb₂).missing⟩, hup₁⟩
  · rintro x db₁ connection₁ - ⟨⟨values, hx, -⟩, -⟩
    cases hx

/-! ## One attempt -/

/-- With `n` attempts to go, at most `n` enabled types are not in the table. -/
structure Left (enabled : List String) (db : Database) (n : Nat) (remaining : List String) :
    Prop where
  nodup : remaining.Nodup
  length : remaining.length ≤ n
  covers : ∀ name ∈ enabled, name ∈ remaining ∨ name ∈ db.notificationMethodType
  enabled : ∀ name ∈ remaining, name ∈ enabled

theorem Left.mono (h : Left enabled db n remaining) (hdb : db ≤ db₁) :
    Left enabled db₁ n remaining :=
  { h with covers := fun name hname => (h.covers name hname).imp_right (@hdb name) }

theorem Left.done (h : Left enabled db n []) (hdb : db ≤ db₁) :
    ∀ name ∈ enabled, name ∈ db₁.notificationMethodType := by
  intro name hname
  rcases h.covers name hname with hmem | hmem
  · cases hmem
  · exact hdb hmem

theorem Left.eq_nil (h : Left enabled db 0 remaining) : remaining = [] :=
  List.length_eq_zero_iff.mp (Nat.le_zero.mp h.length)

/-- A look after one of the remaining names has come to the table finds fewer missing. -/
theorem Left.next (h : Left enabled db (n + 1) remaining) (hdb : db ≤ db₁)
    (hhit : Hit remaining db₁) (hmissing : Missing enabled db₁ db₂ types) :
    Left enabled db₂ n types where
  nodup := hmissing.nodup
  covers := hmissing.covers
  enabled := hmissing.enabled
  length := by
    obtain ⟨name, hremaining, hmem⟩ := hhit
    have hnew : name ∉ types := fun htypes => hmissing.notMem name htypes hmem
    have hsub : name :: types ⊆ remaining := by
      intro other hother
      rcases List.mem_cons.mp hother with rfl | hother
      · exact hremaining
      · rcases h.covers other (hmissing.enabled other hother) with hr | htable
        · exact hr
        · exact absurd (hdb htable) (hmissing.notMem other hother)
    have hnodup : (name :: types).Nodup := List.nodup_cons.mpr ⟨hnew, hmissing.nodup⟩
    have hle := (hnodup.subperm hsub).length_le
    have hlen := h.length
    rw [List.length_cons] at hle
    omega

/-- The second look of an attempt, wherever it stands. -/
theorem safe_secondLook {connection : Option Connection} (hup : Up connection)
    (hleft : Left (T.enabledNotifications P) db (n + 1) remaining) (hdb : db ≤ db₁)
    (hhit : Hit remaining db₁) :
    Safe (DbEffect.acts L)
      (fun out db' connection => (∃ types, out = .ok types ∧
        Left (T.enabledNotifications P) db' n types) ∧ Up connection)
      (remainingPluginTypes P T D order) db₁ connection := by
  refine (safe_remainingPluginTypes hup db₁).imp ?_
  rintro out db₂ connection₂ - ⟨⟨types, hout, hmissing⟩, hup₂⟩
  exact ⟨⟨types, hout, hleft.next hdb hhit hmissing⟩, hup₂⟩

/-- After the `try` and its handler, one attempt less is enough. -/
theorem safe_attempt {connection : Option Connection} (hup : Up connection)
    (hbind : Binds L D remaining) (hne : remaining ≠ [])
    (hleft : Left (T.enabledNotifications P) db (n + 1) remaining) :
    Safe (DbEffect.acts L)
      (fun out db' connection => (∃ types, out = .ok types ∧
        Left (T.enabledNotifications P) db' n types) ∧ Up connection)
      (Prog.tryCatch
        (do
          D.insertNotificationMethodTypes remaining
          remainingPluginTypes P T D order)
        fun x =>
          if x = .databaseException then do
            let remaining ← remainingPluginTypes P T D order
            if remaining ≠ [] ∧ n = 0 then throw x else return remaining
          else throw x) db connection := by
  refine Safe.tryCatch (Q := fun out db' connection => Up connection ∧
    ((∃ types, out = .ok types ∧ Left (T.enabledNotifications P) db' n types) ∨
      out = .error .databaseException ∧ Hit remaining db')) ?_ ?_ ?_
  · refine (safe_insertNotificationMethodTypes hup hleft.nodup hbind db).bind ?_ ?_
    · rintro a db₁ connection₁ hdb₁ ⟨-, rfl, hhit⟩
      refine (safe_secondLook (Or.inr rfl) hleft hdb₁ (hhit hne)).imp ?_
      exact fun _ _ _ _ h => ⟨h.2, Or.inl h.1⟩
    · rintro x db₁ connection₁ - ⟨hx, rfl, hhit⟩
      rcases hx with hx | hx
      · cases hx
      · cases hx
        exact ⟨Or.inr rfl, Or.inr ⟨rfl, hhit hne⟩⟩
  · rintro types db₁ connection₁ - ⟨hup₁, h | ⟨h, -⟩⟩
    · exact ⟨h, hup₁⟩
    · cases h
  · rintro x db₁ connection₁ hdb₁ ⟨hup₁, ⟨types, hx, -⟩ | ⟨hx, hhit⟩⟩
    · cases hx
    · cases hx
      rw [if_pos rfl]
      refine (safe_secondLook hup₁ hleft hdb₁ hhit).bind ?_ ?_
      · rintro types db₂ connection₂ - ⟨⟨types', htypes, hleft₂⟩, hup₂⟩
        cases htypes
        -- nothing is missing after the last attempt
        have hlast : ¬ (types ≠ [] ∧ n = 0) := by
          rintro ⟨hne, rfl⟩
          exact hne hleft₂.eq_nil
        rw [if_neg hlast]
        exact fun db₃ hdb₃ => ⟨⟨types, rfl, hleft₂.mono hdb₃⟩, hup₂⟩
      · rintro x db₂ connection₂ - ⟨⟨types, hx, -⟩, -⟩
        cases hx

/-! ## The loop -/

/-- The process has returned, with all its types in the table. -/
def Registered (enabled : List String) :
    Except PyExn Unit → Database → Option Connection → Prop :=
  fun out db _ => out = .ok () ∧ ∀ name ∈ enabled, name ∈ db.notificationMethodType

theorem safe_attempts {connection : Option Connection} (hup : Up connection)
    (hbind : Binds L D (T.enabledNotifications P))
    (hleft : Left (T.enabledNotifications P) db n remaining) (hne : remaining = [] → n = 0) :
    Safe (DbEffect.acts L) (Registered (T.enabledNotifications P))
      (attempts P T D order n remaining) db connection := by
  induction n generalizing db remaining connection with
  | zero =>
    obtain rfl := hleft.eq_nil
    exact fun db' hdb' => ⟨rfl, hleft.done hdb'⟩
  | succ n ih =>
    have hne : remaining ≠ [] := fun h => absurd (hne h) (Nat.succ_ne_zero n)
    have hbind' : Binds L D remaining := fun name hname => hbind name (hleft.enabled name hname)
    refine (safe_attempt hup hbind' hne hleft).bind ?_ ?_
    · rintro types db₁ connection₁ - ⟨⟨types', htypes, hleft₁⟩, hup₁⟩
      cases htypes
      by_cases hnil : types = []
      · subst hnil
        exact fun db' hdb' => ⟨rfl, hleft₁.done hdb'⟩
      · rw [if_neg hnil]
        exact ih hup₁ hleft₁ fun h => absurd h hnil
    · rintro x db₁ connection₁ - ⟨⟨types, hx, -⟩, -⟩
      cases hx

theorem safe_insertConfiguredPlugins {connection : Option Connection} (hup : Up connection)
    (hbind : Binds L D (T.enabledNotifications P)) (db : Database) :
    Safe (DbEffect.acts L) (Registered (T.enabledNotifications P))
      (insertConfiguredPlugins P T D order) db connection := by
  refine (safe_remainingPluginTypes hup db).bind ?_ ?_
  · rintro types db₁ connection₁ - ⟨⟨types', htypes, hmissing⟩, hup₁⟩
    cases htypes
    have hleft : Left (T.enabledNotifications P) db₁ types.length types :=
      ⟨hmissing.nodup, le_rfl, hmissing.covers, hmissing.enabled⟩
    exact safe_attempts hup₁ hbind hleft fun h => by rw [h]; rfl
  · rintro x db₁ connection₁ - ⟨⟨types, hx, -⟩, -⟩
    cases hx

/-! ## Any number of processes -/

/-- The processes on one database, each through its own library. -/
def actions {ι : Type} (processes : ι → Process) :
    ι → Acts DbEffect DbEffect.Answer Database (Option Connection) :=
  fun i => DbEffect.acts (processes i).library

theorem safe_starting {ι : Type} {processes : ι → Process} (db : Database)
    (hbind : ∀ i, Binds (processes i).library (processes i).driver (processes i).enabled) :
    Pool.Safe (actions processes) (fun i => Registered (processes i).enabled)
      (starting processes db) :=
  fun i => safe_insertConfiguredPlugins (Or.inl rfl) (hbind i) db

/--
**Concurrent start-up registers every type.** In every interleaving no process raises, one that has
returned has all its types in the table, and one that has not can go on. If no process is forgotten,
each of them returns.
-/
theorem plugins_registered {ι : Type} (processes : ι → Process) (db : Database)
    (hbind : ∀ i, Binds (processes i).library (processes i).driver (processes i).enabled) :
    (∀ c, Pool.Reachable (actions processes) (starting processes db) c → ∀ i,
      (∀ x, c.prog i ≠ .raise x) ∧
      (c.prog i = .ret () →
        ∀ name ∈ (processes i).enabled, name ∈ c.shared.notificationMethodType) ∧
      ((∃ e k, c.prog i = .perform e k) → ∃ c', Pool.Step (actions processes) c i c')) ∧
    ∀ run : Pool.FairRun (actions processes) (starting processes db),
      ∀ i, ∃ n, (run.state n).prog i = .ret () := by
  have hstart := safe_starting db hbind
  have hraise : ∀ c, Pool.Reachable (actions processes) (starting processes db) c → ∀ i x,
      c.prog i ≠ .raise x := by
    intro c hreach i x hprog
    cases ((hreach.safe hstart).of_raise hprog).1
  refine ⟨fun c hreach i => ⟨hraise c hreach i, fun hprog => ?_, ?_⟩, fun run i => ?_⟩
  · exact ((hreach.safe hstart).of_ret hprog).2
  · rintro ⟨e, k, hprog⟩
    exact (hreach.safe hstart).canStep hprog
  · obtain ⟨n, ⟨⟨⟩, hret⟩ | ⟨x, hx⟩⟩ := run.ends i
    · exact ⟨n, hret⟩
    · exact absurd hx (hraise _ (run.reachable n) i x)

namespace Deployment

def pagerduty : Notifier where
  index := 1
  type := "pagerduty"
  statsdName := "sent_pagerduty_count"

def slack : Notifier where
  index := 1
  type := "slack"
  statsdName := "sent_slack_count"

/-- The database of a new installation. -/
def emptyTables : Database where
  alarmAction := []
  notificationMethod := []
  notificationMethodType := []
  alarm := []
  action_nodup := by decide
  method_nodup := by decide
  type_nodup := by decide
  alarm_nodup := by decide

/-- Two processes, one on `MysqlRepo` and one on `OrmRepo`. They have one type in common. -/
def twoProcesses (first : Bool) : Process where
  platform := cpython
  notifiers := Notifiers.config cpython [email, if first then pagerduty else slack]
  driver := if first then .mysql else .orm
  library := if first then .pymysql else .sqlalchemy
  order := { arrange := id, perm := fun _ => .rfl }

end Deployment

open Deployment in
/-- They start on an empty table, which gets three types. -/
theorem plugins_registered_two :
    (∀ c, Pool.Reachable (actions twoProcesses) (starting twoProcesses emptyTables) c → ∀ i,
      (∀ x, c.prog i ≠ .raise x) ∧
      (c.prog i = .ret () →
        ∀ name ∈ (twoProcesses i).enabled, name ∈ c.shared.notificationMethodType) ∧
      ((∃ e k, c.prog i = .perform e k) → ∃ c', Pool.Step (actions twoProcesses) c i c')) ∧
    ∀ run : Pool.FairRun (actions twoProcesses) (starting twoProcesses emptyTables),
      ∀ i, ∃ n, (run.state n).prog i = .ret () :=
  plugins_registered twoProcesses emptyTables fun i => by
    cases i
    · exact fun _ _ => rfl
    · exact fun _ _ => rfl

end MonascaNotification
