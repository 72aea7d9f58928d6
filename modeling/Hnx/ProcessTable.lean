import Hnx.SyscallErrors
import Mathlib.Tactic

/-!
# Processes and waiting

A wait that does not end at once sleeps until it is resumed. 64 is `PROCESS_MAX`.
-/

namespace HnxKernel

open Function

inductive ProcessState where
  | new
  | ready
  | running
  | sleeping
  | waiting
  | exited
  | faulted
  deriving DecidableEq, Repr

structure ProcessEntry where
  pid : Nat
  parentPid : Nat
  state : ProcessState
  exitCode : Int
  reaped : Bool
  deriving DecidableEq, Repr

def ProcessEntry.ended (entry : ProcessEntry) : Bool :=
  entry.state = .exited || entry.state = .faulted

inductive StatusPointer where
  | null
  | writable
  | faulting
  deriving DecidableEq, Repr

inductive SleepingWait where
  | specific (child : Nat) (status : StatusPointer)
  | polling (want : Nat) (status : StatusPointer) (spins : Nat)
  deriving DecidableEq, Repr

structure Processes where
  slots : Fin 64 → Option ProcessEntry
  nextPid : Nat
  spaces : Nat → Bool
  fdTables : Nat → Bool
  sleepers : Nat → Option SleepingWait
  /-- The children and statuses that successful wait calls returned, the last one
  first. -/
  returned : List (Nat × Int)

namespace Processes

def init : Processes where
  slots := fun _ => none
  nextPid := 1
  spaces := fun _ => false
  fdTables := fun _ => false
  sleepers := fun _ => none
  returned := []

def processByPid (sys : Processes) (pid : Nat) : Option ProcessEntry :=
  (List.finRange 64).findSome? fun slot => (sys.slots slot).filter fun entry => entry.pid = pid

def processTableFree (sys : Processes) (pid : Nat) : Processes :=
  { sys with slots := fun slot => (sys.slots slot).filter fun entry => entry.pid ≠ pid }

def modify (sys : Processes) (pid : Nat) (change : ProcessEntry → ProcessEntry) : Processes :=
  { sys with
    slots := fun slot => (sys.slots slot).map fun entry =>
      if entry.pid = pid then change entry else entry }

def freeSlot (sys : Processes) : Option (Fin 64) :=
  (List.finRange 64).find? fun slot => (sys.slots slot).isNone

/-- How far `process_spawn_argv` comes. -/
inductive SpawnOutcome where
  | refused
  | noFdTable
  | noThread
  | spawned
  deriving DecidableEq, Repr

def processSpawn (sys : Processes) (parent : Nat) (outcome : SpawnOutcome) : Processes :=
  match outcome with
  | .refused => sys
  | _ =>
    match sys.freeSlot with
    | none => sys
    | some slot =>
      let numbered := { sys with nextPid := sys.nextPid + 1 }
      match outcome with
      | .spawned =>
        { numbered with
          slots := update sys.slots slot
            (some ⟨sys.nextPid, parent, .ready, 0, false⟩)
          spaces := update sys.spaces sys.nextPid true
          fdTables := update sys.fdTables sys.nextPid true }
      | _ => numbered

def processEnd (sys : Processes) (pid : Nat) (st : ProcessState) (code : Int) : Processes :=
  sys.modify pid fun entry => { entry with state := st, exitCode := code }

def cInt (val : Nat) : Int := ((val : Int) + 2 ^ 31) % 2 ^ 32 - 2 ^ 31

def done (sys : Processes) (caller : Nat) : Processes :=
  { sys with sleepers := update sys.sleepers caller none }

def sleep (sys : Processes) (caller : Nat) (call : SleepingWait) : Processes :=
  { sys with sleepers := update sys.sleepers caller (some call) }

def deliver (sys : Processes) (caller child : Nat) (code : Int) (status : StatusPointer) :
    Int × Processes :=
  match status with
  | .faulting => (-sysEfault, sys.done caller)
  | _ => (cInt child, { sys.done caller with returned := (child, code) :: sys.returned })

def reap (sys : Processes) (child : Nat) : Processes :=
  processTableFree
    { sys with
      spaces := update sys.spaces child false
      fdTables := update sys.fdTables child false }
    child

/-- The value, unless the call sleeps; nothing if the memory of the child was released. -/
def processWaitRound (sys : Processes) (caller child : Nat) (status : StatusPointer) :
    Option (Option Int × Processes) :=
  match sys.processByPid child with
  | none => none
  | some entry =>
    if entry.ended then
      if cInt child < 0 then some (some (cInt child), (sys.reap child).done caller)
      else
        let (val, post) := (sys.reap child).deliver caller child entry.exitCode status
        some (some val, post)
    else some (none, sys.sleep caller (.specific child status))

def sysWait (sys : Processes) (caller pid : Nat) (status : StatusPointer) :
    Option (Option Int × Processes) :=
  match sys.processByPid pid with
  | none => some (some (-sysEchild), sys)
  | some entry =>
    if entry.parentPid ≠ caller then some (some (-sysEchild), sys)
    else sys.processWaitRound caller pid status

def reapable (sys : Processes) (caller want pid : Nat) : Bool :=
  match sys.processByPid pid with
  | none => false
  | some entry =>
    entry.parentPid = caller && (want = 0 || entry.pid = want) && entry.ended && !entry.reaped

def scanned : List Nat := (List.range 256).map (· + 1)

def hasChildren (sys : Processes) (caller : Nat) : Bool :=
  scanned.any fun pid =>
    match sys.processByPid pid with
    | none => false
    | some entry => entry.parentPid = caller && !entry.reaped

def processReapZombie (sys : Processes) (caller want : Nat) : Option Nat :=
  scanned.find? fun pid => sys.reapable caller want pid

def pollRound (sys : Processes) (caller want : Nat) (nohang : Bool) (status : StatusPointer)
    (spins : Nat) : Option Int × Processes :=
  match sys.processReapZombie caller want with
  | some child =>
    let code := ((sys.processByPid child).map ProcessEntry.exitCode).getD 0
    let (val, post) :=
      (sys.modify child fun entry => { entry with reaped := true }).deliver caller child code
        status
    (some val, post)
  | none =>
    if ¬ sys.hasChildren caller then (some (-sysEchild), sys.done caller)
    else if nohang then (some 0, sys.done caller)
    else (none, sys.sleep caller (.polling want status (spins + 1)))

def polls (pid : Nat) (nohang : Bool) : Bool := pid = 0 || pid = 2 ^ 64 - 1 || nohang

def wanted (pid : Nat) : Nat :=
  if pid = 2 ^ 64 - 1 then 0 else pid

def sysWaitpid (sys : Processes) (caller pid : Nat) (nohang : Bool) (status : StatusPointer) :
    Option (Option Int × Processes) :=
  if polls pid nohang then some (sys.pollRound caller (wanted pid) nohang status 0)
  else sys.sysWait caller pid status

def resume (sys : Processes) (caller : Nat) : Option (Option Int × Processes) :=
  match sys.sleepers caller with
  | none => none
  | some (.specific child status) => sys.processWaitRound caller child status
  | some (.polling want status spins) =>
    if spins < 2000 then some (sys.pollRound caller want false status spins)
    else some (some (-sysEchild), sys.done caller)

/-- Process 0 stands for the kernel, which spawns the first process. -/
inductive Event where
  | spawn (parent : Nat) (outcome : SpawnOutcome)
  | exit (pid : Nat) (code : Int)
  | fault (pid : Nat) (code : Int)
  | wait (caller pid : Nat) (status : StatusPointer)
  | waitpid (caller pid : Nat) (nohang : Bool) (status : StatusPointer)
  | resume (caller : Nat)
  deriving DecidableEq, Repr

def acts (sys : Processes) (pid : Nat) : Bool :=
  ((sys.processByPid pid).any fun entry => !entry.ended) && (sys.sleepers pid).isNone

def allowed (sys : Processes) : Event → Bool
  | .spawn parent _ => parent = 0 || sys.acts parent
  | .exit pid _ | .fault pid _ => sys.acts pid
  | .wait caller _ _ | .waitpid caller _ _ _ => sys.acts caller
  | .resume caller => (sys.sleepers caller).isSome

def apply (sys : Processes) : Event → Option Processes
  | .spawn parent outcome => some (sys.processSpawn parent outcome)
  | .exit pid code => some (sys.processEnd pid .exited code)
  | .fault pid code => some (sys.processEnd pid .faulted code)
  | .wait caller pid status => (sys.sysWait caller pid status).map Prod.snd
  | .waitpid caller pid nohang status => (sys.sysWaitpid caller pid nohang status).map Prod.snd
  | .resume caller => (sys.resume caller).map Prod.snd

def run : Processes → List Event → Option Processes
  | sys, [] => some sys
  | sys, event :: rest =>
    if sys.allowed event then (sys.apply event).bind fun post => post.run rest else none

end Processes

end HnxKernel
