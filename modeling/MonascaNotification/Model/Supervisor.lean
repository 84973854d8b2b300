import MonascaNotification.Infra.Interrupts
import MonascaNotification.Python.Value

/-!
# `main` and `clean_exit`

The parent process of the engines. `clean_exit` is its handler for three signals, and it may be
interrupted by itself: the parent gets a signal for each child that it terminates. The global
`exiting` is the flag of `Infra.Interrupts`.

A process object is named by its place in the list `processors`. What ends the parent is
`SystemExit`, which neither `except Exception` of `main.py` catches.
-/

namespace MonascaNotification

open Infra

/-- The signals that `main.py` names. -/
inductive Signal where
  | SIGCHLD
  | SIGINT
  | SIGTERM
  | SIGKILL
  deriving DecidableEq

/-- The numbers on Linux. -/
def Signal.signum : Signal → Int
  | .SIGCHLD => 17
  | .SIGINT => 2
  | .SIGTERM => 15
  | .SIGKILL => 9

inductive ProcessEffect where
  | log (message : String)
  | start (process : Nat)
  | isAlive (process : Nat)
  | terminate (process : Nat)
  | sleep (seconds : Nat)
  | activeChildren
  | kill (pid : Nat)
  deriving DecidableEq

namespace ProcessEffect

/-- The operations on processes may raise. `multiprocessing.active_children` gives process ids. -/
def Answer : ProcessEffect → Type
  | .log _ => Unit
  | .start _ => Except PyExn Unit
  | .isAlive _ => Except PyExn Bool
  | .terminate _ => Except PyExn Unit
  | .sleep _ => Unit
  | .activeChildren => List Nat
  | .kill _ => Except PyExn Unit

end ProcessEffect

/-- Programs of the parent. They raise the status of `sys.exit`. -/
abbrev Supervisor (α : Type) := FlagProg Signal ProcessEffect ProcessEffect.Answer Int α

abbrev SupervisorTrace := FlagTrace Signal ProcessEffect ProcessEffect.Answer

namespace Supervisor

def perform (e : ProcessEffect) : Supervisor e.Answer := Prog.perform (.other e) fun r => .ret r

def log (message : String) : Supervisor Unit := perform (.log message)

/-- Read and set the global `exiting`. -/
def getExiting : Supervisor Bool := Prog.perform .get fun exiting => .ret exiting

def setExiting : Supervisor Unit := Prog.perform .set fun _ => .ret ()

/-- `signal.signal(sig, clean_exit)` -/
def signal (sig : Signal) : Supervisor Unit := Prog.perform (.listen sig) fun _ => .ret ()

end Supervisor

namespace Main

open Supervisor

/-- One turn of the first loop of `clean_exit`, with the value of `wait_for_exit`. -/
def terminateProcess (waitForExit : Bool) (process : Nat) : Supervisor Bool := do
  match ← perform (.isAlive process) with
  | .ok true =>
    match ← perform (.terminate process) with
    | .ok () => return true
    | .error _ => return waitForExit
  | .ok false => return waitForExit
  | .error _ => return waitForExit

def terminateProcesses : Bool → List Nat → Supervisor Bool
  | waitForExit, [] => return waitForExit
  | waitForExit, process :: processors => do
    let waitForExit ← terminateProcess waitForExit process
    terminateProcesses waitForExit processors

/-- The second loop of `clean_exit`. What `os.kill` raises is dropped. -/
def killChildren : List Nat → Supervisor Unit
  | [] => return ()
  | pid :: children => do
    log ("Killing pid " ++ toString pid)
    let _ ← perform (.kill pid)
    killChildren children

/-- The argument of `sys.exit`. -/
def exitStatus (signum : Signal) : Int := if signum = .SIGTERM then 0 else signum.signum

/-- `clean_exit`, after `exiting = True`. -/
def shutdown (processors : List Nat) (signum : Signal) : Supervisor Unit := do
  let waitForExit ← terminateProcesses false processors
  if waitForExit then
    perform (.sleep 2)
  let children ← perform .activeChildren
  killChildren children
  throw (exitStatus signum)

def cleanExit (processors : List Nat) (signum : Signal) : Supervisor Unit := do
  if ← getExiting then
    log ("Exit in progress clean_exit received additional signal " ++ toString signum.signum)
  else
    log ("Received signal " ++ toString signum.signum ++ ", beginning graceful shutdown.")
    setExiting
    shutdown processors signum

/-- `process.start()` for each process. Whether none raised. -/
def startProcesses : List Nat → Supervisor Bool
  | [] => return true
  | process :: processors => do
    match ← perform (.start process) with
    | .ok () => startProcesses processors
    | .error _ => return false

/--
`main`, after the list `processors` is complete, up to the loop that sleeps. From there on only the
handlers act.
-/
def main (processors : List Nat) : Supervisor Unit := do
  log "Starting processes"
  if ← startProcesses processors then
    signal .SIGCHLD
    signal .SIGINT
    signal .SIGTERM
  else
    log "Error! Exiting."
    cleanExit processors .SIGKILL

end Main

end MonascaNotification
