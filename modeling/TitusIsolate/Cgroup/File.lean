import Mathlib.Data.Finset.Basic
import TitusIsolate.Cgroup.Cpuset
import TitusIsolate.Cgroup.Manager

/-!
# The file cgroup manager

`set_cpuset`, `set_quota` and `set_shares` each start a thread that makes one write
and return at once; the three memory settings are written by the caller. A write
that succeeds marks its container as isolated, whatever file it was for; one that
fails is counted and swallowed. Releasing a container takes the mark away and leaves
the files and the threads in flight alone.

A run is a list of events: a call on the manager, or the end of one of the threads
in flight, each with the outcome of the write it makes. Threads end in any order.
The world records beside the manager what no program variable holds and the results
below speak of: which call is the latest for each file, which write landed last, and
which containers have been released since they were last written to.
-/

namespace TitusIsolate

/-- The cgroup files a container's settings are written to. -/
inductive CgroupFile where
  | cpuset
  | quota
  | shares
  | memoryMigrate
  | memorySpreadPage
  | memorySpreadSlab
  deriving DecidableEq, Repr

/-- What is in a container's files, as far as they can be read. -/
abbrev Files := WorkloadId → CgroupFile → Option String

/-- One `func(container_name, value)`. -/
structure Write where
  container : WorkloadId
  file : CgroupFile
  value : String
  deriving DecidableEq, Repr

/-- The files once a write has landed. -/
def Files.write (files : Files) (w : Write) : Files :=
  fun c f => if c = w.container ∧ f = w.file then some w.value else files c f

@[simp] theorem Files.write_self (files : Files) (w : Write) :
    files.write w w.container w.file = some w.value := by
  simp [Files.write]

theorem Files.write_other (files : Files) {w : Write} {c : WorkloadId} {f : CgroupFile}
    (h : ¬ (c = w.container ∧ f = w.file)) : files.write w c f = files c f := by
  simp [Files.write, h]

/-- `str(int(on))` -/
def strOfBool (on : Bool) : String := if on then "1" else "0"

/-- The write a `set_*` call makes. -/
def CgroupCall.write : CgroupCall → Option Write
  | .setCpuset c threadIds => some ⟨c, .cpuset, getThreadIdsStr threadIds⟩
  | .setQuota c quota => some ⟨c, .quota, toString quota⟩
  | .setShares c shares => some ⟨c, .shares, toString shares⟩
  | .setMemoryMigrate c on => some ⟨c, .memoryMigrate, strOfBool on⟩
  | .setMemorySpreadPage c on => some ⟨c, .memorySpreadPage, strOfBool on⟩
  | .setMemorySpreadSlab c on => some ⟨c, .memorySpreadSlab, strOfBool on⟩
  | .releaseContainer _ => none

namespace Files

/-- What is left in the files by a call whose write has ended, with the given outcome. -/
def perform (files : Files) (c : CgroupCall) (ok : Bool) : Files :=
  match c.write with
  | none => files
  | some w => if ok then files.write w else files

/-- Calls made one after another; `ok n` is the outcome of the `n`-th. -/
def performAll (files : Files) : List CgroupCall → (Nat → Bool) → Files
  | [], _ => files
  | c :: cs, ok => performAll (files.perform c (ok 0)) cs (fun n => ok (n + 1))

end Files

/-- Whether a file's setter hands its write to a thread of its own. -/
def CgroupFile.isThreaded : CgroupFile → Bool
  | .cpuset => true
  | .quota => true
  | .shares => true
  | .memoryMigrate => false
  | .memorySpreadPage => false
  | .memorySpreadSlab => false

/-- A thread that has been started and has not ended. Threads are numbered in the
order in which the calls that started them were made. -/
structure WriterThread where
  number : Nat
  write : Write
  deriving DecidableEq, Repr

/-- `FileCgroupManager`, by its attributes, and the threads it has started. -/
structure FileCgroupManager where
  threads : List WriterThread
  isolatedWorkloadIds : Finset WorkloadId
  writeCount : Nat
  failCount : Nat

namespace FileCgroupManager

/-- `FileCgroupManager()` -/
def init : FileCgroupManager := ⟨[], ∅, 0, 0⟩

/-- `__start(func, args)` -/
def start (m : FileCgroupManager) (t : WriterThread) : FileCgroupManager :=
  { m with threads := m.threads ++ [t] }

/-- `__write_succeeded(container_name)` -/
def writeSucceeded (m : FileCgroupManager) (c : WorkloadId) : FileCgroupManager :=
  { m with
    isolatedWorkloadIds := insert c m.isolatedWorkloadIds
    writeCount := m.writeCount + 1 }

/-- `__write_failed()` -/
def writeFailed (m : FileCgroupManager) : FileCgroupManager :=
  { m with failCount := m.failCount + 1 }

/-- `release_container(container_name)` -/
def releaseContainer (m : FileCgroupManager) (c : WorkloadId) : FileCgroupManager :=
  { m with isolatedWorkloadIds := m.isolatedWorkloadIds.erase c }

/-- `has_pending_work()` -/
def hasPendingWork (m : FileCgroupManager) : Bool := decide (m.threads.length > 0)

end FileCgroupManager

/-- The manager, the files it writes, and the record of what happened. -/
structure FileWorld where
  manager : FileCgroupManager
  files : Files
  /-- The number of `set_*` calls made so far. -/
  clock : Nat
  /-- The latest `set_*` call for each file: its number and its value. -/
  latest : WorkloadId → CgroupFile → Option (Nat × String)
  /-- The highest number among the writes that have succeeded on each file. -/
  landed : WorkloadId → CgroupFile → Option Nat
  /-- Released, and no `set_*` call made since. -/
  released : WorkloadId → Bool

/-- What happens next, and how the write it makes ends. -/
inductive FileEvent where
  | call (c : CgroupCall) (ok : Bool)
  | complete (i : Nat) (ok : Bool)
  deriving DecidableEq, Repr

namespace FileWorld

/-- A manager that has done nothing, over the files as it finds them. -/
def init (files : Files) : FileWorld where
  manager := FileCgroupManager.init
  files := files
  clock := 0
  latest := fun _ _ => none
  landed := fun _ _ => none
  released := fun _ => false

/-- `__set(func, container_name, value)`, made by the call with the given number. -/
def set (s : FileWorld) (number : Nat) (w : Write) (ok : Bool) : FileWorld :=
  if ok then
    { s with
      -- any write that succeeds marks the container isolated
      manager := s.manager.writeSucceeded w.container
      files := s.files.write w
      landed := fun c f =>
        if c = w.container ∧ f = w.file then some (max number ((s.landed c f).getD 0))
        else s.landed c f }
  else { s with manager := s.manager.writeFailed }

/-- Record a `set_*` call. -/
def note (s : FileWorld) (w : Write) : FileWorld :=
  { s with
    clock := s.clock + 1
    latest := fun c f =>
      if c = w.container ∧ f = w.file then some (s.clock, w.value) else s.latest c f
    released := fun c => if c = w.container then false else s.released c }

/-- One call on the manager; `ok` is the outcome of a write made by the caller. -/
def perform (s : FileWorld) (c : CgroupCall) (ok : Bool) : FileWorld :=
  match c with
  | .releaseContainer container =>
      { s with
        manager := s.manager.releaseContainer container
        released := fun c => if c = container then true else s.released c }
  | c =>
      match c.write with
      | none => s
      | some w =>
          -- the setter returns at once and the write is still to come
          if w.file.isThreaded then
            { s.note w with manager := s.manager.start ⟨s.clock, w⟩ }
          else (s.note w).set s.clock w ok

/-- Calls made one after another; `ok n` is the outcome of the `n`-th. -/
def performAll (s : FileWorld) : List CgroupCall → (Nat → Bool) → FileWorld
  | [], _ => s
  | c :: cs, ok => performAll (s.perform c (ok 0)) cs (fun n => ok (n + 1))

/-- The thread at position `i` ends. -/
def complete (s : FileWorld) (i : Nat) (ok : Bool) : FileWorld :=
  match s.manager.threads[i]? with
  | none => s
  | some t =>
      { s with manager := { s.manager with threads := s.manager.threads.eraseIdx i } }.set
        t.number t.write ok

/-- A call, or the end of a thread. -/
def step (s : FileWorld) : FileEvent → FileWorld
  | .call c ok => s.perform c ok
  | .complete i ok => s.complete i ok

/-- `get_cpuset(container_name)` -/
def getCpuset (s : FileWorld) (c : WorkloadId) : Except PyError (List Nat) :=
  match s.files c .cpuset with
  | none => .ok []
  | some cpusetStr => parseCpuset cpusetStr

/-- What the reconciler reads. -/
def view (s : FileWorld) : CgroupView where
  hasPendingWork := s.manager.hasPendingWork
  getCpuset := s.getCpuset

end FileWorld

end TitusIsolate
