import TitusIsolate.Model.Workload

/-!
# What the workload manager asks of a cgroup manager

The workload manager never reads the cgroup side while it isolates: it only issues
calls, in an order that its own state and the allocator's answer determine. So one
`isolate` is described by the list of calls it makes, and each cgroup manager by
what it does with a call.

`MockCgroupManager` is the synchronous manager of the tests: every call takes effect
at once, and releasing a container forgets its cpuset and with it its isolated mark.
-/

namespace TitusIsolate

/-- The calls of the `CgroupManager` interface that change something. -/
inductive CgroupCall where
  | setCpuset (containerName : WorkloadId) (threadIds : List Nat)
  | setQuota (containerName : WorkloadId) (quota : Int)
  | setShares (containerName : WorkloadId) (shares : Int)
  | setMemoryMigrate (containerName : WorkloadId) (on : Bool)
  | setMemorySpreadPage (containerName : WorkloadId) (on : Bool)
  | setMemorySpreadSlab (containerName : WorkloadId) (on : Bool)
  | releaseContainer (containerName : WorkloadId)
  deriving DecidableEq, Repr

/-- What the reconciler reads from a cgroup manager. -/
structure CgroupView where
  hasPendingWork : Bool
  getCpuset : WorkloadId → Except PyError (List Nat)

/-- `MockCgroupManager`, by its attributes. -/
structure MockCgroupManager where
  containerUpdateMap : OrderedDict WorkloadId (List Nat)
  containerUpdateCounts : OrderedDict WorkloadId Nat
  memoryMigrate : Bool
  memorySpreadPage : Bool
  memorySpreadSlab : Bool

namespace MockCgroupManager

/-- `MockCgroupManager()` -/
def init : MockCgroupManager where
  containerUpdateMap := OrderedDict.empty
  containerUpdateCounts := OrderedDict.empty
  memoryMigrate := false
  memorySpreadPage := false
  memorySpreadSlab := false

/-- One call of the interface. Quota and shares are ignored, as in the tests. -/
def perform (m : MockCgroupManager) : CgroupCall → MockCgroupManager
  | .setCpuset w threadIds =>
      { m with
        containerUpdateMap := m.containerUpdateMap.insert w threadIds
        containerUpdateCounts :=
          m.containerUpdateCounts.insert w ((m.containerUpdateCounts.get? w).getD 0 + 1) }
  | .setQuota _ _ => m
  | .setShares _ _ => m
  | .setMemoryMigrate _ on => { m with memoryMigrate := on }
  | .setMemorySpreadPage _ on => { m with memorySpreadPage := on }
  | .setMemorySpreadSlab _ on => { m with memorySpreadSlab := on }
  | .releaseContainer w =>
      if w ∈ m.containerUpdateMap.keys then
        { m with containerUpdateMap := m.containerUpdateMap.erase w }
      else m

/-- Calls made one after another. -/
def performAll (m : MockCgroupManager) (calls : List CgroupCall) : MockCgroupManager :=
  calls.foldl perform m

/-- `get_cpuset(container_name)` -/
def getCpuset (m : MockCgroupManager) (w : WorkloadId) : List Nat :=
  (m.containerUpdateMap.get? w).getD []

/-- `get_isolated_workload_ids()` -/
def getIsolatedWorkloadIds (m : MockCgroupManager) : List WorkloadId := m.containerUpdateMap.keys

/-- What the reconciler reads. -/
def view (m : MockCgroupManager) : CgroupView where
  hasPendingWork := false
  getCpuset w := .ok (m.getCpuset w)

end MockCgroupManager

end TitusIsolate
