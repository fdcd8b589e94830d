import Mathlib.Data.List.Sort
import TitusIsolate.Cgroup.Manager
import TitusIsolate.Model.Processor

/-!
# The reconciler

Compares, for every workload claimed on the CPU model, the claimed thread ids with
the cpuset read back, and calls the exit handler for each that differs. It does
nothing while cgroup writes are pending.
-/

namespace TitusIsolate

/-- `RECONCILIATION_FAILURE_EXIT` -/
def reconciliationFailureExit : Int := 4

/-- `Reconciler`, by its counters. -/
structure Reconciler where
  skipCount : Nat
  successCount : Nat
  deriving DecidableEq, Repr

/-- What one call of `reconcile` does. -/
structure ReconcileOutcome where
  reconciler : Reconciler
  /-- The exit handler's calls, in order. -/
  exits : List Int
  raised : Option PyError

namespace Reconciler

/-- `get_workloads(cpu)` -/
def getWorkloads (cpu : Cpu) : OrderedDict WorkloadId (List Nat) :=
  cpu.getThreads.foldl (fun workloads t =>
    t.workloadIds.foldl (fun workloads w =>
      match workloads.get? w with
      | some threadIds => workloads.insert w (threadIds ++ [t.id])
      | none => workloads.insert w [t.id]) workloads) OrderedDict.empty

/-- The loop over the workloads: the exits made, and the exception that ended it. -/
def check (getCpuset : WorkloadId → Except PyError (List Nat)) :
    List (WorkloadId × List Nat) → List Int × Option PyError
  | [] => ([], none)
  | (w, threadIds) :: rest =>
      match getCpuset w with
      | .error e => ([], some e)
      | .ok cpuset =>
          let exits :=
            if cpuset.insertionSort (· ≤ ·) ≠ threadIds.insertionSort (· ≤ ·) then
              [reconciliationFailureExit]
            else []
          let tail := check getCpuset rest
          (exits ++ tail.1, tail.2)

/-- `reconcile(cpu)` -/
def reconcile (r : Reconciler) (cgroup : CgroupView) (cpu : Cpu) : ReconcileOutcome :=
  if cgroup.hasPendingWork then
    { reconciler := { r with skipCount := r.skipCount + 1 }, exits := [], raised := none }
  else
    let result := check cgroup.getCpuset (getWorkloads cpu).entries
    match result.2 with
    | some e => { reconciler := r, exits := result.1, raised := some e }
    | none =>
        { reconciler := { r with successCount := r.successCount + 1 }
          exits := result.1, raised := none }

end Reconciler

end TitusIsolate
