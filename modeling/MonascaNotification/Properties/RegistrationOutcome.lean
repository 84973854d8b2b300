import MonascaNotification.Properties.PluginRegistration

/-!
# What a normal return of the registration means

Two branches of the loop test whether all types are there, but only one of them raises in the
last attempt: after an insert that came back without an exception the loop just ends
(`Ending.unnoticed`).

The calls of the repository are the inputs here: the table may change between them in any way.
`driver_registration_sound_iff` says the same of what the drivers do, by
`insertConfiguredPlugins_eq`.
-/

namespace MonascaNotification

open Infra Prog NotificationProcessor

variable {P : Platform} {T : Notifiers} {D : Driver} {order : SetOrder} {enabled : List String}
  {n : Nat} {remaining : List String} {tr : RepoTrace}

/-! ## The drivers carry out the calls -/

theorem interpret_repoCall (call : RepoCall) :
    (Repo.call call).interpret D.carryOut = D.carryOut call :=
  interpret_call D.carryOut call

theorem remainingPluginTypes_eq :
    NotificationProcessor.remainingPluginTypes P T D order =
      (Repo.remainingPluginTypes P T order).interpret D.carryOut := by
  unfold Repo.remainingPluginTypes
  rw [bind_eq, interpret_bind, interpret_repoCall]
  rfl

theorem attempts_eq :
    NotificationProcessor.attempts P T D order n remaining =
      (Repo.attempts P T order n remaining).interpret D.carryOut := by
  induction n generalizing remaining with
  | zero => rfl
  | succ n ih =>
    unfold Repo.attempts NotificationProcessor.attempts
    simp only [bind_eq, interpret_bind, interpret_tryCatch]
    congr 1
    · congr 1
      · rw [interpret_repoCall, ← remainingPluginTypes_eq]
        rfl
      · funext x
        by_cases hx : x = .databaseException
        · rw [if_pos hx, if_pos hx, interpret_bind, ← remainingPluginTypes_eq]
          congr 1
          funext types
          split <;> rfl
        · rw [if_neg hx, if_neg hx]
          rfl
    · funext types
      by_cases htypes : types = []
      · rw [if_pos htypes, if_pos htypes]
        rfl
      · rw [if_neg htypes, if_neg htypes]
        exact ih

/-- The registration over a driver is the one over its calls. -/
theorem insertConfiguredPlugins_eq :
    NotificationProcessor.insertConfiguredPlugins P T D order =
      (Repo.insertConfiguredPlugins P T order).interpret D.carryOut := by
  unfold NotificationProcessor.insertConfiguredPlugins Repo.insertConfiguredPlugins
  rw [bind_eq, bind_eq, interpret_bind, remainingPluginTypes_eq]
  congr 1
  funext types
  exact attempts_eq

/-- What a driver does in a registration is a sequence of calls with this outcome. -/
theorem runs_insertConfiguredPlugins_driver {dbtr : Trace DbEffect DbEffect.Answer}
    {out : Except PyExn Unit} :
    Runs (NotificationProcessor.insertConfiguredPlugins P T D order) dbtr out ↔
      ∃ calls, Runs (Repo.insertConfiguredPlugins P T order) calls out ∧
        Carries D.carryOut calls dbtr := by
  rw [insertConfiguredPlugins_eq, runs_interpret]

/-! ## One attempt -/

/-- A read of the table that gave `values`. -/
abbrev fetched (values : List Json) : RepoEvent :=
  ⟨.fetchNotificationMethodTypes, .ok values⟩

/-- An insert that came back without an exception. -/
abbrev inserted (types : List String) : RepoEvent :=
  ⟨.insertNotificationMethodTypes types, .ok ()⟩

def Failed (ev : RepoEvent) : Prop :=
  ∃ x, ev.2 = .error x

def RepoCall.isInsert : RepoCall → Bool
  | .fetchNotificationMethodTypes => false
  | .insertNotificationMethodTypes _ => true

/-- How many inserts there were. -/
def inserts (tr : RepoTrace) : Nat := tr.countP fun ev => ev.1.isInsert

theorem inserts_append (tr tr' : RepoTrace) :
    inserts (tr ++ tr') = inserts tr + inserts tr' :=
  List.countP_append

/-- What the `try` statement of an attempt does, with `n` attempts after this one. -/
inductive Attempt (order : SetOrder) (enabled : List String) (n : Nat) :
    RepoTrace → Except PyExn (List String) → Prop where
  | looked {types : List String} {values : List Json} :
      Attempt order enabled n [inserted types, fetched values]
        (.ok (difference order enabled values))
  | handled {before : RepoTrace} {ev : RepoEvent} {values : List Json} :
      inserts (before ++ [ev]) = 1 → Failed ev →
      (n = 0 → difference order enabled values = []) →
      Attempt order enabled n (before ++ [ev, fetched values])
        (.ok (difference order enabled values))
  | refused {before : RepoTrace} {ev : RepoEvent} {values : List Json} {x : PyExn} :
      Failed ev → Attempt order enabled n (before ++ [ev, fetched values]) (.error x)
  | failed {before : RepoTrace} {ev : RepoEvent} {x : PyExn} :
      Failed ev → Attempt order enabled n (before ++ [ev]) (.error x)

theorem runs_call {call : RepoCall} {out : Except PyExn call.Result} :
    Runs (Repo.call call) tr out ↔ tr = [⟨call, out⟩] := by
  constructor
  · rintro ⟨answer, tr', rfl, h⟩
    obtain ⟨rfl, rfl⟩ := runs_ofExcept.mp h
    rfl
  · rintro rfl
    exact ⟨out, [], rfl, runs_ofExcept.mpr ⟨rfl, rfl⟩⟩

theorem runs_remainingPluginTypes {out : Except PyExn (List String)} :
    Runs (Repo.remainingPluginTypes P T order) tr out ↔
      (∃ x, out = .error x ∧ tr = [⟨.fetchNotificationMethodTypes, .error x⟩]) ∨
      ∃ values, out = .ok (difference order (T.enabledNotifications P) values) ∧
        tr = [fetched values] := by
  unfold Repo.remainingPluginTypes
  rw [bind_eq, runs_bind]
  constructor
  · rintro (⟨x, rfl, h⟩ | ⟨tr₁, tr₂, values, rfl, h, rfl, rfl⟩)
    · exact Or.inl ⟨x, rfl, runs_call.mp h⟩
    · rw [runs_call.mp h]
      exact Or.inr ⟨values, rfl, rfl⟩
  · rintro (⟨x, rfl, rfl⟩ | ⟨values, rfl, rfl⟩)
    · exact Or.inl ⟨x, rfl, runs_call.mpr rfl⟩
    · exact Or.inr ⟨_, [], values, by simp, runs_call.mpr rfl, rfl, rfl⟩

/-- The handler, after an event that raised. -/
theorem runs_handler {ev : RepoEvent} (before : RepoTrace) {x : PyExn}
    {out : Except PyExn (List String)} (hev : Failed ev) (hone : inserts (before ++ [ev]) = 1)
    (h : Runs (if x = .databaseException then do
        let remaining ← Repo.remainingPluginTypes P T order
        if remaining ≠ [] ∧ n = 0 then throw x else return remaining
      else throw x) tr out) :
    Attempt order (T.enabledNotifications P) n (before ++ [ev] ++ tr) out := by
  split at h
  · rcases runs_bind.mp h with ⟨y, rfl, hread⟩ | ⟨tr₁, tr₂, types, rfl, hread, h⟩
    · rcases runs_remainingPluginTypes.mp hread with ⟨z, hz, rfl⟩ | ⟨values, hy, -⟩
      · exact .failed ⟨z, rfl⟩
      · cases hy
    · rcases runs_remainingPluginTypes.mp hread with ⟨z, hz, -⟩ | ⟨values, htypes, rfl⟩
      · cases hz
      · cases htypes
        rw [List.append_assoc, ← List.append_assoc [ev]]
        split at h
        · obtain ⟨rfl, rfl⟩ := h
          exact .refused hev
        · next hgo =>
          obtain ⟨rfl, rfl⟩ := h
          refine .handled hone hev fun hn => ?_
          by_contra hne
          exact hgo ⟨hne, hn⟩
  · obtain ⟨rfl, rfl⟩ := h
    rw [List.append_nil]
    exact .failed hev

theorem runs_attempt_try {out : Except PyExn (List String)}
    (h : Runs (Prog.tryCatch
      (do
        Repo.call (.insertNotificationMethodTypes remaining)
        Repo.remainingPluginTypes P T order)
      fun x =>
        if x = .databaseException then do
          let remaining ← Repo.remainingPluginTypes P T order
          if remaining ≠ [] ∧ n = 0 then throw x else return remaining
        else throw x) tr out) :
    Attempt order (T.enabledNotifications P) n tr out := by
  rcases runs_tryCatch.mp h with ⟨types, rfl, hbody⟩ | ⟨tr₁, tr₂, x, rfl, hbody, hhandler⟩
  · obtain ⟨tr₁, tr₂, _, rfl, hinsert, hread⟩ := runs_bind_ok.mp hbody
    obtain rfl := runs_call.mp hinsert
    rcases runs_remainingPluginTypes.mp hread with ⟨z, hz, -⟩ | ⟨values, htypes, rfl⟩
    · cases hz
    · cases htypes
      exact .looked
  · -- the insert raised, or the read after it did
    rcases runs_bind_error.mp hbody with hinsert | ⟨tr₃, tr₄, _, rfl, hinsert, hread⟩
    · obtain rfl := runs_call.mp hinsert
      exact runs_handler [] ⟨x, rfl⟩ rfl hhandler
    · obtain rfl := runs_call.mp hinsert
      rcases runs_remainingPluginTypes.mp hread with ⟨z, hz, rfl⟩ | ⟨values, htypes, -⟩
      · exact runs_handler [inserted remaining] ⟨z, rfl⟩ rfl hhandler
      · cases htypes

/-- An attempt that comes back ends with a read. The last one did not raise, or all is there. -/
theorem Attempt.of_ok {types : List String} (h : Attempt order enabled n tr (.ok types)) :
    ∃ before values, tr = before ++ [fetched values] ∧ inserts tr = 1 ∧
      types = difference order enabled values ∧
      (n = 0 → types ≠ [] → ∃ names, before = [inserted names]) := by
  cases h with
  | @looked names values =>
    exact ⟨[inserted names], values, rfl, rfl, rfl, fun _ _ => ⟨names, rfl⟩⟩
  | @handled before ev values hone _ hnil =>
    refine ⟨before ++ [ev], values, by simp, ?_, rfl, fun hn hne => absurd (hnil hn) hne⟩
    rw [List.append_cons, inserts_append, hone]
    rfl

/-! ## The loop -/

/--
How a registration comes to its end. Before the last attempt there were `k` inserts. The last
case is the one that the code does not notice.
-/
inductive Ending (enabled : List String) (k : Nat) : RepoTrace → Except PyExn Unit → Prop where
  | installed {before : RepoTrace} {values : List Json} :
      (∀ name ∈ enabled, Json.str name ∈ values) →
      Ending enabled k (before ++ [fetched values]) (.ok ())
  | refused {before : RepoTrace} {ev : RepoEvent} {values : List Json} {x : PyExn} :
      Failed ev → Ending enabled k (before ++ [ev, fetched values]) (.error x)
  | failed {before : RepoTrace} {ev : RepoEvent} {x : PyExn} :
      Failed ev → Ending enabled k (before ++ [ev]) (.error x)
  | unnoticed {before : RepoTrace} {types : List String} {values : List Json} :
      inserts before = k → (∃ name ∈ enabled, Json.str name ∉ values) →
      Ending enabled k (before ++ [inserted types, fetched values]) (.ok ())

theorem Ending.prepend {k : Nat} {out : Except PyExn Unit} (h : Ending enabled k tr out)
    (tr' : RepoTrace) : Ending enabled (inserts tr' + k) (tr' ++ tr) out := by
  cases h with
  | installed hall => exact List.append_assoc .. ▸ .installed hall
  | refused hev => exact List.append_assoc .. ▸ .refused hev
  | failed hev => exact List.append_assoc .. ▸ .failed hev
  | unnoticed hk hmissing =>
    refine List.append_assoc .. ▸ .unnoticed ?_ hmissing
    rw [inserts_append, hk]

theorem difference_eq_nil {values : List Json} :
    difference order enabled values = [] ↔ ∀ name ∈ enabled, Json.str name ∈ values := by
  rw [List.eq_nil_iff_forall_not_mem]
  constructor
  · intro h name hname
    by_contra hvalue
    exact h name (mem_difference.mpr ⟨hname, hvalue⟩)
  · intro h name hmem
    exact (mem_difference.mp hmem).2 (h name (mem_difference.mp hmem).1)

theorem exists_missing {values : List Json} (h : difference order enabled values ≠ []) :
    ∃ name ∈ enabled, Json.str name ∉ values := by
  by_contra hnone
  refine h (difference_eq_nil.mpr fun name hname => ?_)
  by_contra hvalue
  exact hnone ⟨name, hname, hvalue⟩

theorem Attempt.ending {x : PyExn} (h : Attempt order enabled n tr (.error x)) (k : Nat) :
    Ending enabled k tr (.error x) := by
  cases h with
  | refused hev => exact .refused hev
  | failed hev => exact .failed hev

theorem runs_attempts {out : Except PyExn Unit}
    (h : Runs (Repo.attempts P T order (n + 1) remaining) tr out) :
    Ending (T.enabledNotifications P) n tr out := by
  induction n generalizing remaining tr with
  | zero =>
    rcases runs_bind.mp h with ⟨x, rfl, htry⟩ | ⟨tr₁, tr₂, types, rfl, htry, hrest⟩
    · exact (runs_attempt_try htry).ending 0
    · -- the loop is over, whatever is still missing
      have hend : tr₂ = [] ∧ out = .ok () := by
        split at hrest <;> exact hrest
      obtain ⟨rfl, rfl⟩ := hend
      obtain ⟨before, values, rfl, -, htypes, hlast⟩ := (runs_attempt_try htry).of_ok
      rw [List.append_nil]
      by_cases hnil : types = []
      · rw [htypes] at hnil
        exact .installed (difference_eq_nil.mp hnil)
      · -- with types missing, the last attempt came back through its insert
        obtain ⟨names, rfl⟩ := hlast rfl hnil
        rw [htypes] at hnil
        rw [← List.nil_append ([inserted names] ++ [fetched values])]
        exact .unnoticed rfl (exists_missing hnil)
  | succ n ih =>
    rcases runs_bind.mp h with ⟨x, rfl, htry⟩ | ⟨tr₁, tr₂, types, rfl, htry, hrest⟩
    · exact (runs_attempt_try htry).ending (n + 1)
    · obtain ⟨before, values, rfl, hone, htypes, -⟩ := (runs_attempt_try htry).of_ok
      split at hrest
      · next hnil =>
        obtain ⟨rfl, rfl⟩ := hrest
        rw [htypes] at hnil
        rw [List.append_nil]
        exact .installed (difference_eq_nil.mp hnil)
      · have hending := (ih hrest).prepend (before ++ [fetched values])
        rw [hone, Nat.add_comm] at hending
        exact hending

/-! ## The whole registration -/

/-- The last read of the table found every name. -/
def SeenAtLastRead (enabled : List String) (tr : RepoTrace) : Prop :=
  ∃ before values, tr = before ++ [fetched values] ∧ ∀ name ∈ enabled, Json.str name ∈ values

/-- The last read of the table missed a name. -/
def MissedAtLastRead (enabled : List String) (tr : RepoTrace) : Prop :=
  ∃ before values, tr = before ++ [fetched values] ∧ ∃ name ∈ enabled, Json.str name ∉ values

/--
The attempts are used up, one for each type that was missing at first; the last insert came back
without an exception, and the read after it misses a type.
-/
def UsedUpUnnoticed (order : SetOrder) (enabled : List String) (tr : RepoTrace) : Prop :=
  ∃ first before names values,
    tr = fetched first :: before ++ [inserted names, fetched values] ∧
    inserts before + 1 = (difference order enabled first).length ∧
    ∃ name ∈ enabled, Json.str name ∉ values

theorem runs_registration {out : Except PyExn Unit}
    (h : Runs (Repo.insertConfiguredPlugins P T order) tr out) :
    (∃ first tr' k, tr = fetched first :: tr' ∧
      (difference order (T.enabledNotifications P) first).length = k + 1 ∧
      Ending (T.enabledNotifications P) k tr' out) ∨
    (∃ first, tr = [fetched first] ∧ out = .ok () ∧
      ∀ name ∈ T.enabledNotifications P, Json.str name ∈ first) ∨
    ∃ x y, tr = [⟨.fetchNotificationMethodTypes, .error x⟩] ∧ out = .error y := by
  rcases runs_bind.mp h with ⟨x, rfl, hread⟩ | ⟨tr₁, tr₂, types, rfl, hread, hloop⟩
  · rcases runs_remainingPluginTypes.mp hread with ⟨y, -, rfl⟩ | ⟨values, hx, -⟩
    · exact Or.inr (Or.inr ⟨y, x, rfl, rfl⟩)
    · cases hx
  · rcases runs_remainingPluginTypes.mp hread with ⟨y, hy, -⟩ | ⟨first, htypes, rfl⟩
    · cases hy
    · cases htypes
      cases hlen : (difference order (T.enabledNotifications P) first).length with
      | zero =>
        rw [hlen] at hloop
        obtain ⟨rfl, rfl⟩ := hloop
        exact Or.inr (Or.inl ⟨first, rfl, rfl,
          difference_eq_nil.mp (List.length_eq_zero_iff.mp hlen)⟩)
      | succ k =>
        rw [hlen] at hloop
        exact Or.inl ⟨first, tr₂, k, rfl, hlen, runs_attempts hloop⟩

theorem SeenAtLastRead.not_missed (h : SeenAtLastRead enabled tr) :
    ¬ MissedAtLastRead enabled tr := by
  obtain ⟨before, values, rfl, hall⟩ := h
  rintro ⟨before', values', heq, name, hname, hmissing⟩
  obtain ⟨-, hlast⟩ := List.append_inj' heq rfl
  cases hlast
  exact hmissing (hall name hname)

/-- An end with an exception is not the one that goes unnoticed. -/
theorem Ending.not_unnoticed {k : Nat} {x : PyExn} {before : RepoTrace} {names : List String}
    {values : List Json} :
    ¬ Ending enabled k (before ++ [inserted names, fetched values]) (.error x) := by
  intro h
  generalize htr : before ++ [inserted names, fetched values] = tr at h
  cases h with
  | refused hev =>
    obtain ⟨-, hlast⟩ := List.append_inj' htr rfl
    cases hlast
    obtain ⟨y, hy⟩ := hev
    cases hy
  | failed hev =>
    rw [List.append_cons] at htr
    obtain ⟨-, hlast⟩ := List.append_inj' htr rfl
    cases hlast
    obtain ⟨y, hy⟩ := hev
    cases hy

/-- A normal return means that all was seen, and after a last read that missed a name it raises. -/
def SoundOutcome (enabled : List String) (tr : RepoTrace) (out : Except PyExn Unit) : Prop :=
  (out = .ok () → SeenAtLastRead enabled tr) ∧ (MissedAtLastRead enabled tr → ∃ x, out = .error x)

theorem soundOutcome_iff {out : Except PyExn Unit}
    (h : Runs (Repo.insertConfiguredPlugins P T order) tr out) :
    SoundOutcome (T.enabledNotifications P) tr out ↔
      ¬ UsedUpUnnoticed order (T.enabledNotifications P) tr := by
  constructor
  · -- a run that was used up unnoticed would have to raise, and it does not
    rintro ⟨-, hraises⟩ ⟨first, before, names, values, rfl, -, hmissing⟩
    obtain ⟨x, rfl⟩ := hraises
      ⟨fetched first :: before ++ [inserted names], values, by simp, hmissing⟩
    rcases runs_registration h with ⟨first', tr', k, htr, -, hending⟩ | ⟨_, -, hout, -⟩ |
      ⟨y, z, htr, -⟩
    · rw [List.cons_append] at htr
      cases htr
      exact Ending.not_unnoticed hending
    · cases hout
    · have hlen := congrArg List.length htr
      simp at hlen
  · intro hnoticed
    rcases runs_registration h with ⟨first, tr', k, rfl, hlen, hending⟩ |
      ⟨first, rfl, rfl, hall⟩ | ⟨y, z, rfl, rfl⟩
    · cases hending with
      | @installed before values hall =>
        have hseen : SeenAtLastRead (T.enabledNotifications P)
            (fetched first :: (before ++ [fetched values])) :=
          ⟨fetched first :: before, values, rfl, hall⟩
        exact ⟨fun _ => hseen, fun hmissed => absurd hmissed hseen.not_missed⟩
      | refused hev => exact ⟨nofun, fun _ => ⟨_, rfl⟩⟩
      | failed hev => exact ⟨nofun, fun _ => ⟨_, rfl⟩⟩
      | @unnoticed before names values hk hmissing =>
        refine absurd ⟨first, before, names, values, rfl, ?_, hmissing⟩ hnoticed
        rw [hk, hlen]
    · have hseen : SeenAtLastRead (T.enabledNotifications P) [fetched first] :=
        ⟨[], first, rfl, hall⟩
      exact ⟨fun _ => hseen, fun hmissed => absurd hmissed hseen.not_missed⟩
    · exact ⟨nofun, fun _ => ⟨_, rfl⟩⟩

/--
**When a normal return means that the types are there.** For every content that the reads show
and every pattern of outcomes of the inserts: a normal return means that the last read found all
types, and an exception comes of a last read that missed one, if and only if the attempts are not
used up by an insert that came back normally and left a type missing.
-/
theorem registration_sound_iff {out : Except PyExn Unit}
    (h : Runs (Repo.insertConfiguredPlugins P T order) tr out) :
    ((out = .ok () → SeenAtLastRead (T.enabledNotifications P) tr) ∧
      (MissedAtLastRead (T.enabledNotifications P) tr → ∃ x, out = .error x)) ↔
    ¬ UsedUpUnnoticed order (T.enabledNotifications P) tr :=
  soundOutcome_iff h

/--
**The same over each driver.** What a driver does in a registration, whatever the library answers,
carries out a sequence of calls with the same outcome, of which this holds.
-/
theorem driver_registration_sound_iff {dbtr : Trace DbEffect DbEffect.Answer}
    {out : Except PyExn Unit}
    (h : Runs (NotificationProcessor.insertConfiguredPlugins P T D order) dbtr out) :
    ∃ calls, Carries D.carryOut calls dbtr ∧
      Runs (Repo.insertConfiguredPlugins P T order) calls out ∧
      (SoundOutcome (T.enabledNotifications P) calls out ↔
        ¬ UsedUpUnnoticed order (T.enabledNotifications P) calls) := by
  obtain ⟨calls, hcalls, hcarries⟩ := runs_insertConfiguredPlugins_driver.mp h
  exact ⟨calls, hcarries, hcalls, soundOutcome_iff hcalls⟩

/-! ## One missing type -/

/-- One attempt, whose insert comes back: then the registration returns, whatever is read next. -/
theorem runs_oneMissing {first values : List Json} {name : String}
    (h : difference order (T.enabledNotifications P) first = [name]) :
    Runs (Repo.insertConfiguredPlugins P T order)
      [fetched first, inserted [name], fetched values] (.ok ()) := by
  refine runs_bind_ok.mpr ⟨[fetched first], [inserted [name], fetched values], [name], rfl,
    runs_remainingPluginTypes.mpr (Or.inr ⟨first, by rw [h], rfl⟩), ?_⟩
  have hread : Runs (Repo.remainingPluginTypes P T order) [fetched values]
      (.ok (difference order (T.enabledNotifications P) values)) :=
    runs_remainingPluginTypes.mpr (Or.inr ⟨values, rfl, rfl⟩)
  refine runs_bind_ok.mpr ⟨[inserted [name], fetched values], [], _, rfl,
    runs_tryCatch.mpr (Or.inl ⟨_, rfl, runs_bind_ok.mpr
      ⟨[inserted [name]], [fetched values], (), rfl, runs_call.mpr rfl, hread⟩⟩), ?_⟩
  split <;> exact ⟨rfl, rfl⟩

namespace Deployment

/-- A set that is iterated in the order in which it was filled. -/
def asFilled : SetOrder := (twoProcesses true).order

theorem difference_email :
    difference asFilled (notifiers.enabledNotifications cpython) [] = ["EMAIL"] := by
  decide +kernel

end Deployment

open Deployment in
/-- The insert of the only type comes back, and the type is there. -/
theorem registration_sound_iff_email :
    (((Except.ok () : Except PyExn Unit) = .ok () →
        SeenAtLastRead (notifiers.enabledNotifications cpython)
          [fetched [], inserted ["EMAIL"], fetched [.str "EMAIL"]]) ∧
      (MissedAtLastRead (notifiers.enabledNotifications cpython)
          [fetched [], inserted ["EMAIL"], fetched [.str "EMAIL"]] →
        ∃ x, (Except.ok () : Except PyExn Unit) = .error x)) ↔
    ¬ UsedUpUnnoticed asFilled (notifiers.enabledNotifications cpython)
      [fetched [], inserted ["EMAIL"], fetched [.str "EMAIL"]] :=
  registration_sound_iff (runs_oneMissing difference_email)

open Deployment in
/-- `MysqlRepo` on the tables of a new installation, which no other process touches. -/
theorem driver_registration_sound_iff_mysql :
    ∃ calls, Carries Driver.mysql.carryOut calls
        ((NotificationProcessor.insertConfiguredPlugins cpython notifiers .mysql asFilled).trace
          (DbEffect.sem .pymysql server) ⟨emptyTables, none⟩) ∧
      Runs (Repo.insertConfiguredPlugins cpython notifiers asFilled) calls
        ((NotificationProcessor.insertConfiguredPlugins cpython notifiers .mysql asFilled).run
          (DbEffect.sem .pymysql server) ⟨emptyTables, none⟩).1 ∧
      (SoundOutcome (notifiers.enabledNotifications cpython) calls
        ((NotificationProcessor.insertConfiguredPlugins cpython notifiers .mysql asFilled).run
          (DbEffect.sem .pymysql server) ⟨emptyTables, none⟩).1 ↔
        ¬ UsedUpUnnoticed asFilled (notifiers.enabledNotifications cpython) calls) :=
  driver_registration_sound_iff (runs_trace _ _ _)

open Deployment in
/-- The insert of the only type comes back, and another process has removed the type again. -/
theorem returns_with_type_missing :
    Runs (Repo.insertConfiguredPlugins cpython notifiers asFilled)
      [fetched [], inserted ["EMAIL"], fetched []] (.ok ()) ∧
    ¬ SeenAtLastRead (notifiers.enabledNotifications cpython)
      [fetched [], inserted ["EMAIL"], fetched []] := by
  refine ⟨runs_oneMissing difference_email, fun hseen => hseen.not_missed ?_⟩
  exact ⟨[fetched [], inserted ["EMAIL"]], [], rfl, "EMAIL", by decide +kernel, by simp⟩

end MonascaNotification
