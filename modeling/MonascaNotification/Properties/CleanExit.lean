import MonascaNotification.Model.Supervisor

/-!
# The parent shuts down once

`clean_exit` tests `exiting` and sets it a line later, and the handler may be interrupted there by
itself. Nevertheless only one of its calls gets through, since the interrupted one does not come
back: `sys.exit` ends them all. So the shutdown is that of one undisturbed call.
-/

namespace MonascaNotification

open Infra Prog Interrupts

namespace Main

open Supervisor

/-! ## The discipline of `clean_exit` -/

/-- What is done to the processes. -/
def isShutdown : ProcessEffect → Bool
  | .log _ => false
  | .start _ => false
  | _ => true

/-- The signals that `main` handles. -/
def handled : List Signal := [.SIGCHLD, .SIGINT, .SIGTERM]

/-- An effect that is not on the flag or the table of handlers. -/
abbrev IsOther (e : FlagEffect Signal ProcessEffect) : Prop := ∃ e', e = .other e'

theorem uses_perform_other (e : ProcessEffect) : Uses IsOther (Supervisor.perform e) :=
  ⟨⟨e, rfl⟩, fun _ => trivial⟩

theorem uses_terminateProcess (waitForExit : Bool) (process : Nat) :
    Uses IsOther (terminateProcess waitForExit process) := by
  refine uses_bind (uses_perform_other _) fun answer => ?_
  split
  · refine uses_bind (uses_perform_other _) fun answer => ?_
    split <;> trivial
  · trivial
  · trivial

theorem uses_terminateProcesses (waitForExit : Bool) (processors : List Nat) :
    Uses IsOther (terminateProcesses waitForExit processors) := by
  induction processors generalizing waitForExit with
  | nil => trivial
  | cons process processors ih => exact uses_bind (uses_terminateProcess _ _) ih

theorem uses_killChildren (children : List Nat) : Uses IsOther (killChildren children) := by
  induction children with
  | nil => trivial
  | cons pid children ih =>
    exact uses_bind (uses_perform_other _) fun _ => uses_bind (uses_perform_other _) fun _ => ih

theorem final_shutdown (processors : List Nat) (signum : Signal) :
    Final (shutdown processors signum) := by
  refine Final.bind (uses_terminateProcesses _ _) fun waitForExit => ?_
  have hrest : Final (do
      let children ← Supervisor.perform .activeChildren
      killChildren children
      throw (exitStatus signum) : Supervisor Unit) :=
    Final.bind (uses_perform_other _) fun children =>
      Final.bind (uses_killChildren _) fun _ => .raise
  split
  · exact Final.bind (uses_perform_other _) fun _ => hrest
  · exact hrest

theorem guarded_cleanExit (processors : List Nat) (signum : Signal) :
    Guarded isShutdown handled (shutdown processors signum) (cleanExit processors signum) := by
  refine .get ?_ ?_
  · exact .other rfl fun _ => .ret
  · exact .other rfl fun _ => .set

theorem guarded_startProcesses {body : Supervisor Unit} (processors : List Nat)
    {f : Bool → Supervisor Unit} (hf : ∀ started, Guarded isShutdown handled body (f started)) :
    Guarded isShutdown handled body ((startProcesses processors).bind f) := by
  induction processors with
  | nil => exact hf true
  | cons process processors ih =>
    refine .other rfl fun answer => ?_
    match answer with
    | .ok () => exact ih
    | .error _ => exact hf false

theorem discipline (processors : List Nat) : Discipline isShutdown handled .SIGKILL
    (main processors) (cleanExit processors) (shutdown processors) where
  main := by
    refine .other rfl fun _ => guarded_startProcesses processors fun started => ?_
    cases started with
    | true =>
      exact .listen (by decide) (.listen (by decide) (.listen (by decide) .ret))
    | false => exact .other rfl fun _ => guarded_cleanExit processors .SIGKILL
  handler := fun signum _ => guarded_cleanExit processors signum
  final := final_shutdown processors

/-! ## What a shutdown does -/

abbrev SupervisorEvent := Event (FlagEffect Signal ProcessEffect)
  (FlagEffect.Answer ProcessEffect.Answer)

/-- The process whose `is_alive` was called. -/
def askedFor : SupervisorEvent → Option Nat
  | ⟨.other (.isAlive process), _⟩ => some process
  | _ => none

def foundAlive : SupervisorEvent → Option Nat
  | ⟨.other (.isAlive process), answer⟩ =>
    match (answer : Except PyExn Bool) with
    | .ok true => some process
    | _ => none
  | _ => none

def terminated : SupervisorEvent → Option Nat
  | ⟨.other (.terminate process), _⟩ => some process
  | _ => none

/-- A call of `terminate` that did not raise. -/
def signalled : SupervisorEvent → Option Nat
  | ⟨.other (.terminate process), answer⟩ =>
    match (answer : Except PyExn Unit) with
    | .ok () => some process
    | .error _ => none
  | _ => none

def slept : SupervisorEvent → Option Nat
  | ⟨.other (.sleep seconds), _⟩ => some seconds
  | _ => none

/-- What `active_children` gave. -/
def remaining : SupervisorEvent → Option (List Nat)
  | ⟨.other .activeChildren, children⟩ => some children
  | _ => none

def killed : SupervisorEvent → Option Nat
  | ⟨.other (.kill pid), _⟩ => some pid
  | _ => none

/-- The report on a complete shutdown. -/
structure Report (processors : List Nat) (signum : Signal) (tr : SupervisorTrace)
    (status : Int) : Prop where
  /-- Every process is asked once, in order. -/
  asked : tr.filterMap askedFor = processors
  /-- Who is alive is terminated. -/
  terminates : tr.filterMap terminated = tr.filterMap foundAlive
  /-- It waits two seconds if some `terminate` did not raise. -/
  waits : tr.filterMap slept = if tr.filterMap signalled = [] then [] else [2]
  /-- Whoever is left then is killed, each once. -/
  kills : ∃ children, tr.filterMap remaining = [children] ∧ tr.filterMap killed = children
  status_eq : status = exitStatus signum

/-- What the first loop does. -/
structure Terminations (processors : List Nat) (waitForExit waitForExit' : Bool)
    (tr : SupervisorTrace) : Prop where
  asked : tr.filterMap askedFor = processors
  terminates : tr.filterMap terminated = tr.filterMap foundAlive
  waits : waitForExit' = true ↔ waitForExit = true ∨ tr.filterMap signalled ≠ []
  sleeps : tr.filterMap slept = []
  remains : tr.filterMap remaining = []
  kills : tr.filterMap killed = []

theorem Terminations.append {processors processors' : List Nat} {w₁ w₂ w₃ : Bool}
    {tr₁ tr₂ : SupervisorTrace} (h₁ : Terminations processors w₁ w₂ tr₁)
    (h₂ : Terminations processors' w₂ w₃ tr₂) :
    Terminations (processors ++ processors') w₁ w₃ (tr₁ ++ tr₂) where
  asked := by rw [List.filterMap_append, h₁.asked, h₂.asked]
  terminates := by
    rw [List.filterMap_append, h₁.terminates, h₂.terminates, List.filterMap_append]
  waits := by
    rw [h₂.waits, h₁.waits, List.filterMap_append, ne_eq, ne_eq, ne_eq, List.append_eq_nil_iff]
    tauto
  sleeps := by rw [List.filterMap_append, h₁.sleeps, h₂.sleeps, List.append_nil]
  remains := by rw [List.filterMap_append, h₁.remains, h₂.remains, List.append_nil]
  kills := by rw [List.filterMap_append, h₁.kills, h₂.kills, List.append_nil]

theorem runs_perform_other {e : ProcessEffect} {tr : SupervisorTrace} {r : e.Answer}
    (h : Runs (Supervisor.perform e) tr (.ok r)) : tr = [⟨.other e, r⟩] := by
  obtain ⟨r', tr', rfl, rfl, hr⟩ := h
  cases hr
  rfl

theorem runs_terminateProcess {waitForExit waitForExit' : Bool} {process : Nat}
    {tr : SupervisorTrace}
    (h : Runs (terminateProcess waitForExit process) tr (.ok waitForExit')) :
    Terminations [process] waitForExit waitForExit' tr := by
  have hquiet : ∀ {answer : Except PyExn Bool} {w : Bool}, answer ≠ .ok true →
      w = waitForExit → Terminations [process] waitForExit w
        [⟨.other (.isAlive process), answer⟩] := by
    rintro answer w hne rfl
    refine ⟨rfl, ?_, by simp [List.filterMap_cons, signalled], rfl, rfl, rfl⟩
    cases answer with
    | error x => rfl
    | ok alive =>
      cases alive with
      | false => rfl
      | true => exact absurd rfl hne
  unfold terminateProcess at h
  replace h := runs_bind_ok.mp h
  obtain ⟨tr₁, tr₂, answer, rfl, h₁, h⟩ := h
  obtain rfl := runs_perform_other h₁
  cases answer with
  | error x =>
    obtain ⟨rfl, hout⟩ := h
    exact hquiet (by simp) (Except.ok.inj hout)
  | ok alive =>
    cases alive with
    | false =>
      obtain ⟨rfl, hout⟩ := h
      exact hquiet (by simp) (Except.ok.inj hout)
    | true =>
      replace h := runs_bind_ok.mp h
      obtain ⟨tr₃, tr₄, answer, rfl, h₃, h⟩ := h
      obtain rfl := runs_perform_other h₃
      cases answer with
      | error x =>
        obtain ⟨rfl, hout⟩ := h
        cases hout
        exact ⟨rfl, rfl, by simp [List.filterMap_cons, signalled], rfl, rfl, rfl⟩
      | ok u =>
        obtain ⟨rfl, hout⟩ := h
        cases hout
        exact ⟨rfl, rfl, by simp [List.filterMap_cons, signalled], rfl, rfl, rfl⟩

theorem runs_terminateProcesses {waitForExit waitForExit' : Bool} {processors : List Nat}
    {tr : SupervisorTrace}
    (h : Runs (terminateProcesses waitForExit processors) tr (.ok waitForExit')) :
    Terminations processors waitForExit waitForExit' tr := by
  induction processors generalizing waitForExit tr with
  | nil =>
    obtain ⟨rfl, hout⟩ := h
    cases hout
    exact ⟨rfl, rfl, by simp, rfl, rfl, rfl⟩
  | cons process processors ih =>
    obtain ⟨tr₁, tr₂, w, rfl, h₁, h₂⟩ := runs_bind_ok.mp h
    exact (runs_terminateProcess h₁).append (ih h₂)

/-- The second loop kills each of the children. -/
theorem runs_killChildren {children : List Nat} {tr : SupervisorTrace}
    (h : Runs (killChildren children) tr (.ok ())) :
    tr.filterMap killed = children ∧ tr.filterMap askedFor = [] ∧ tr.filterMap terminated = [] ∧
      tr.filterMap foundAlive = [] ∧ tr.filterMap signalled = [] ∧ tr.filterMap slept = [] ∧
      tr.filterMap remaining = [] := by
  induction children generalizing tr with
  | nil =>
    obtain ⟨rfl, -⟩ := h
    simp
  | cons pid children ih =>
    replace h := runs_bind_ok.mp h
    obtain ⟨tr₁, tr₂, _, rfl, h₁, h⟩ := h
    replace h := runs_bind_ok.mp h
    obtain ⟨tr₃, tr₄, _, rfl, h₃, h⟩ := h
    obtain rfl := runs_perform_other h₁
    obtain rfl := runs_perform_other h₃
    obtain ⟨hkilled, hrest⟩ := ih h
    refine ⟨?_, hrest⟩
    exact congrArg (pid :: ·) hkilled

/-- The program raises nothing. -/
def Returns {α : Type} (p : Supervisor α) : Prop := ∀ tr x, ¬ Runs p tr (.error x)

theorem Returns.bind {α β : Type} {p : Supervisor α} {f : α → Supervisor β} (hp : Returns p)
    (hf : ∀ a, Returns (f a)) : Returns (p.bind f) := by
  intro tr x h
  rcases runs_bind_error.mp h with h | ⟨_, _, a, -, -, h⟩
  · exact hp _ _ h
  · exact hf a _ _ h

theorem returns_pure {α : Type} (a : α) : Returns (.ret a) := fun _ _ h => nomatch h.2

theorem returns_perform (e : ProcessEffect) : Returns (Supervisor.perform e) := by
  rintro tr x ⟨_, _, -, -, h⟩
  cases h

theorem returns_terminateProcess (waitForExit : Bool) (process : Nat) :
    Returns (terminateProcess waitForExit process) := by
  refine (returns_perform _).bind fun answer => ?_
  split
  · refine (returns_perform _).bind fun answer => ?_
    split
    · exact returns_pure _
    · exact returns_pure _
  · exact returns_pure _
  · exact returns_pure _

theorem returns_terminateProcesses (waitForExit : Bool) (processors : List Nat) :
    Returns (terminateProcesses waitForExit processors) := by
  induction processors generalizing waitForExit with
  | nil => exact returns_pure _
  | cons process processors ih => exact (returns_terminateProcess _ _).bind ih

theorem returns_killChildren (children : List Nat) : Returns (killChildren children) := by
  induction children with
  | nil => exact returns_pure _
  | cons pid children ih =>
    exact (returns_perform _).bind fun _ => (returns_perform _).bind fun _ => ih

/-- A complete shutdown. -/
theorem runs_shutdown {processors : List Nat} {signum : Signal} {tr : SupervisorTrace}
    {status : Int} (h : Runs (shutdown processors signum) tr (.error status)) :
    Report processors signum tr status := by
  unfold shutdown at h
  replace h := runs_bind_error.mp h
  rcases h with h | ⟨tr₁, tr₂, waitForExit, rfl, hloop, h⟩
  · exact absurd h (returns_terminateProcesses _ _ _ _)
  have hloop := runs_terminateProcesses hloop
  -- the second half is the same with and without the wait
  have hrest : ∀ {tr₂ : SupervisorTrace}, Runs (do
      let children ← Supervisor.perform .activeChildren
      killChildren children
      throw (exitStatus signum) : Supervisor Unit) tr₂ (.error status) →
      ∃ children tr₃, tr₂ = ⟨.other .activeChildren, children⟩ :: tr₃ ∧
        Runs (killChildren children) tr₃ (.ok ()) ∧ status = exitStatus signum := by
    intro tr₂ h
    replace h := runs_bind_error.mp h
    rcases h with h | ⟨tr₃, tr₄, children, rfl, h₃, h⟩
    · exact absurd h (returns_perform _ _ _)
    obtain rfl := runs_perform_other h₃
    replace h := runs_bind_error.mp h
    rcases h with h | ⟨tr₅, tr₆, _, rfl, hkill, h⟩
    · exact absurd h (returns_killChildren _ _ _)
    obtain ⟨rfl, hout⟩ := h
    exact ⟨children, tr₅, by simp, hkill, Except.error.inj hout⟩
  have hreport : ∀ {wait : SupervisorTrace} {children : List Nat} {tr₃ : SupervisorTrace},
      wait = (if waitForExit = true then [⟨.other (.sleep 2), ()⟩] else []) →
      Runs (killChildren children) tr₃ (.ok ()) → status = exitStatus signum →
      Report processors signum
        (tr₁ ++ (wait ++ ⟨.other .activeChildren, children⟩ :: tr₃)) status := by
    rintro wait children tr₃ hw hkill hstatus
    obtain ⟨hkilled, hasked, hterm, hfound, hsignalled, hslept, hremain⟩ := runs_killChildren hkill
    have hwaits := hloop.waits
    obtain ⟨hwait, hwaited⟩ : (∀ {g : SupervisorEvent → Option Nat},
        g ⟨.other (.sleep 2), ()⟩ = none → wait.filterMap g = []) ∧
        wait.filterMap slept = if tr₁.filterMap signalled = [] then [] else [2] := by
      cases waitForExit with
      | true =>
        have hne : tr₁.filterMap signalled ≠ [] := (hwaits.mp rfl).resolve_left (by simp)
        subst hw
        exact ⟨fun hg => by simp [hg], by rw [if_neg hne]; rfl⟩
      | false =>
        have hnil : tr₁.filterMap signalled = [] := by
          by_contra hne
          cases hwaits.mpr (Or.inr hne)
        subst hw
        exact ⟨fun hg => rfl, by rw [if_pos hnil]; rfl⟩
    have hremaining : wait.filterMap remaining = [] := by
      subst hw
      split <;> rfl
    have hask : ∀ {g : SupervisorEvent → Option Nat}, g ⟨.other .activeChildren, children⟩ = none →
        (⟨.other .activeChildren, children⟩ :: tr₃ : SupervisorTrace).filterMap g =
          tr₃.filterMap g := fun hg => List.filterMap_cons_none hg
    have hparts : ∀ {β : Type} (g : SupervisorEvent → Option β),
        (tr₁ ++ (wait ++ ⟨.other .activeChildren, children⟩ :: tr₃)).filterMap g =
          tr₁.filterMap g ++ (wait.filterMap g ++
            (⟨.other .activeChildren, children⟩ :: tr₃ : SupervisorTrace).filterMap g) := by
      intro β g
      rw [List.filterMap_append, List.filterMap_append]
    refine ⟨?_, ?_, ?_, ⟨children, ?_, ?_⟩, hstatus⟩
    · rw [hparts, hloop.asked, hwait rfl, hask rfl, hasked, List.append_nil, List.append_nil]
    · rw [hparts, hparts, hloop.terminates, hwait rfl, hwait rfl, hask rfl, hask rfl, hterm, hfound]
    · rw [hparts, hparts, hloop.sleeps, hwaited, hask rfl, hslept, hwait rfl, hask rfl, hsignalled,
        List.append_nil, List.append_nil, List.append_nil, List.nil_append]
    · rw [hparts, hloop.remains, hremaining, List.nil_append, List.nil_append]
      exact congrArg (children :: ·) hremain
    · rw [hparts, hloop.kills, hwait rfl, hask rfl, hkilled, List.nil_append, List.nil_append]
  dsimp only at h
  split at h
  · next hwait =>
    replace h := runs_bind_error.mp h
    rcases h with h | ⟨tr₃, tr₄, _, rfl, hsleep, h⟩
    · exact absurd h (returns_perform _ _ _)
    obtain rfl := runs_perform_other hsleep
    obtain ⟨children, tr₅, rfl, hkill, hstatus⟩ := hrest h
    exact hreport (if_pos hwait).symm hkill hstatus
  · next hwait =>
    obtain ⟨children, tr₅, rfl, hkill, hstatus⟩ := hrest h
    exact @hreport [] children tr₅ (if_neg hwait).symm hkill hstatus

/-! ## Every run of the parent -/

/-- The parent with its handlers. -/
abbrev Running (processors : List Nat) :=
  Interrupts.Reachable Signal.SIGKILL (main processors) (cleanExit processors)

theorem foundAlive_sublist (tr : SupervisorTrace) :
    (tr.filterMap foundAlive).Sublist (tr.filterMap askedFor) := by
  induction tr with
  | nil => exact List.Sublist.refl _
  | cons ev tr ih =>
    have hsame : foundAlive ev = none ∨ foundAlive ev = askedFor ev := by
      unfold foundAlive askedFor
      split
      · split
        · exact Or.inr rfl
        · exact Or.inl rfl
      · exact Or.inl rfl
    rw [List.filterMap_cons, List.filterMap_cons]
    rcases hsame with hnone | hsame
    · rw [hnone]
      cases askedFor ev with
      | none => exact ih
      | some process => exact ih.cons _
    · rw [hsame]
      cases askedFor ev with
      | none => exact ih
      | some process => exact ih.cons_cons _

/-- Some answer. -/
def anyAnswer : (e : FlagEffect Signal ProcessEffect) → FlagEffect.Answer ProcessEffect.Answer e
  | .get => false
  | .set => ()
  | .listen _ => ()
  | .other (.log _) => ()
  | .other (.start _) => (.ok () : Except PyExn Unit)
  | .other (.isAlive _) => (.ok false : Except PyExn Bool)
  | .other (.terminate _) => (.ok () : Except PyExn Unit)
  | .other (.sleep _) => ()
  | .other .activeChildren => ([] : List Nat)
  | .other (.kill _) => (.ok () : Except PyExn Unit)

/-- Nobody is terminated twice, also by a shutdown that has not come to its end. -/
theorem terminated_sublist {processors : List Nat} {signum : Signal} {tr : SupervisorTrace}
    {p : Supervisor Unit} (h : Reaches (shutdown processors signum) tr p) :
    (tr.filterMap terminated).Sublist processors := by
  obtain ⟨tr', out, hrun, -⟩ := Prog.exists_run (A := fun _ _ => True) anyAnswer
    (fun _ => trivial) p
  have hrun := h.runs hrun
  obtain ⟨status, rfl⟩ := (final_shutdown processors signum).runs hrun
  have hreport := runs_shutdown hrun
  have hsub : ((tr ++ tr').filterMap terminated).Sublist processors := by
    rw [hreport.terminates]
    conv => rhs; rw [← hreport.asked]
    exact foundAlive_sublist _
  rw [List.filterMap_append] at hsub
  exact (List.sublist_append_left _ _).trans hsub

/-- The report is on the processes only. -/
theorem none_of_not_isAction {ev : SupervisorEvent} (h : isAction isShutdown ev = false) :
    askedFor ev = none ∧ foundAlive ev = none ∧ terminated ev = none ∧ signalled ev = none ∧
      slept ev = none ∧ remaining ev = none ∧ killed ev = none := by
  obtain ⟨e, r⟩ := ev
  cases e with
  | other e =>
    cases e with
    | log _ => exact ⟨rfl, rfl, rfl, rfl, rfl, rfl, rfl⟩
    | start _ => exact ⟨rfl, rfl, rfl, rfl, rfl, rfl, rfl⟩
    | _ => cases h
  | _ => exact ⟨rfl, rfl, rfl, rfl, rfl, rfl, rfl⟩

theorem report_actions {processors : List Nat} {signum : Signal} {tr : SupervisorTrace}
    {status : Int} (h : Report processors signum tr status) :
    Report processors signum (actions isShutdown tr) status := by
  have hasked := filterMap_actions (fun ev hev => (none_of_not_isAction hev).1) tr
  have hfound := filterMap_actions (fun ev hev => (none_of_not_isAction hev).2.1) tr
  have hterm := filterMap_actions (fun ev hev => (none_of_not_isAction hev).2.2.1) tr
  have hsignalled := filterMap_actions (fun ev hev => (none_of_not_isAction hev).2.2.2.1) tr
  have hslept := filterMap_actions (fun ev hev => (none_of_not_isAction hev).2.2.2.2.1) tr
  have hremaining := filterMap_actions (fun ev hev => (none_of_not_isAction hev).2.2.2.2.2.1) tr
  have hkilled := filterMap_actions (fun ev hev => (none_of_not_isAction hev).2.2.2.2.2.2) tr
  refine ⟨hasked.trans h.asked, ?_, ?_, ?_, h.status_eq⟩
  · rw [hterm, hfound, h.terminates]
  · rw [hslept, hsignalled, h.waits]
  · rw [hremaining, hkilled]
    exact h.kills

/--
**The parent shuts down once.** Take any run of `main` over a list of processes, with signals at any
points, also inside of the handler. The signals that were handled are the three. As long as
`exiting` is not set, no process was touched. At no time was a process terminated that was not on
the list, or one of its places twice. And when the parent has ended, what was done to the processes
is one complete shutdown for one of the signals, or for the `SIGKILL` that `main` passes on when a
start failed.
-/
theorem clean_exit_once {processors : List Nat}
    {s : Interrupts.State Signal ProcessEffect ProcessEffect.Answer Int}
    (h : Running processors s) :
    (∀ signum ∈ s.received, signum ∈ handled) ∧
    (s.flag = false → actions isShutdown s.trace = []) ∧
    (s.trace.filterMap terminated).Sublist processors ∧
    ∀ status, s.exited = some status → ∃ signum, (signum = .SIGKILL ∨ signum ∈ s.received) ∧
      Report processors signum (actions isShutdown s.trace) status := by
  obtain ⟨hown, hreceived⟩ := exclusive (discipline processors) h
  have hterm : ∀ tr : SupervisorTrace,
      (actions isShutdown tr).filterMap terminated = tr.filterMap terminated :=
    filterMap_actions fun ev hev => (none_of_not_isAction hev).2.2.1
  refine ⟨hreceived, ?_⟩
  cases hown with
  | nobody hflag hexited _ hnone =>
    refine ⟨fun _ => hnone, ?_, fun status hstatus => ?_⟩
    · rw [← hterm, hnone]
      exact List.nil_sublist _
    · rw [hexited] at hstatus
      cases hstatus
  | owner inner owner outer tr hflag hexited _ _ _ _ hreach hsame =>
    refine ⟨fun hno => ?_, ?_, fun status hstatus => ?_⟩
    · rw [hflag] at hno
      cases hno
    · rw [← hterm, hsame, hterm]
      exact terminated_sublist hreach
    · rw [hexited] at hstatus
      cases hstatus
  | ended signum tr x hflag hknown hexited _ hrun hsame =>
    have hreport := runs_shutdown hrun
    refine ⟨fun hno => ?_, ?_, fun status hstatus => ?_⟩
    · rw [hflag] at hno
      cases hno
    · rw [← hterm, hsame, hterm, hreport.terminates]
      conv => rhs; rw [← hreport.asked]
      exact foundAlive_sublist _
    · rw [hexited] at hstatus
      cases hstatus
      rw [hsame]
      exact ⟨signum, hknown, report_actions hreport⟩

/-! ## A run with two signals -/

/-- The first of two processes is alive and stays; it is the child 42. -/
def reply : (e : ProcessEffect) → e.Answer
  | .log _ => ()
  | .start _ => (.ok () : Except PyExn Unit)
  | .isAlive process => (.ok (process == 0) : Except PyExn Bool)
  | .terminate _ => (.ok () : Except PyExn Unit)
  | .sleep _ => ()
  | .activeChildren => ([42] : List Nat)
  | .kill _ => (.ok () : Except PyExn Unit)

/-- The parent in its loop. -/
def looping : Interrupts.State Signal ProcessEffect ProcessEffect.Answer Int :=
  advances reply 7 (initial .SIGKILL (main [0, 1]))

/-- A `SIGTERM` whose handler has just found `exiting` false. -/
def tested : Interrupts.State Signal ProcessEffect ProcessEffect.Answer Int :=
  advance reply (interrupt (cleanExit [0, 1]) .SIGTERM looping)

/-- There a child dies. -/
def overtaken : Interrupts.State Signal ProcessEffect ProcessEffect.Answer Int :=
  advances reply 11 (interrupt (cleanExit [0, 1]) .SIGCHLD tested)

theorem running_overtaken : Running [0, 1] overtaken := by
  have hlooping : Running [0, 1] looping := Reachable.init.advances reply 7
  have htested : Running [0, 1] tested :=
    (hlooping.interrupt (by decide +kernel) rfl).advance reply
  exact (htested.interrupt (by decide +kernel) rfl).advances reply 11

/-- The second signal overtakes the first, and the parent ends with its number. -/
theorem clean_exit_once_overtaken : overtaken.exited = some 17 ∧
    overtaken.received = [.SIGTERM, .SIGCHLD] ∧ ∃ signum,
      (signum = .SIGKILL ∨ signum ∈ overtaken.received) ∧
      Report [0, 1] signum (actions isShutdown overtaken.trace) 17 := by
  have hexited : overtaken.exited = some 17 := by decide +kernel
  exact ⟨hexited, by decide +kernel, (clean_exit_once running_overtaken).2.2.2 17 hexited⟩

end Main

end MonascaNotification
