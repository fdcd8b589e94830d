import TitusIsolate.Model.Processor

/-!
# Violations of isolation

A placement is violated where a workload is on two packages and where a core has two
workloads. The two kinds are listed in dictionaries, a core under its package's id and its
own joined by a colon, and a placement is better than another when it has fewer workloads
across packages, or as many and fewer shared cores.
-/

namespace TitusIsolate

/-- `utils.get_workload_ids(cpu)`. The ids go through a `set`, whose order is left open; no
reader depends on it. -/
def getWorkloadIds (cpu : Cpu) : List WorkloadId := (cpu.getThreads.flatMap Thread.workloadIds).dedup

/-- `get_cross_package_violations(cpu)` -/
def getCrossPackageViolations (cpu : Cpu) : OrderedDict WorkloadId (List Nat) :=
  (getWorkloadIds cpu).foldl (fun violations workloadId =>
    let packages := getPackagesWithWorkload cpu workloadId
    if packages.length > 1 then violations.insert workloadId (packages.map Package.id)
    else violations) OrderedDict.empty

/-- `set(__get_workload_ids(core))` -/
def Core.getUniqueWorkloadIds (c : Core) : List WorkloadId :=
  (c.getThreads.flatMap Thread.workloadIds).dedup

/-- `':'.join([str(package.get_id()), str(core.get_id())])` -/
def violationKey (packageId coreId : Nat) : String := ":".intercalate [packageId.repr, coreId.repr]

/-- `get_shared_core_violations(cpu)` -/
def getSharedCoreViolations (cpu : Cpu) : OrderedDict String (List WorkloadId) :=
  cpu.getPackages.foldl (fun violations package =>
    package.getCores.foldl (fun violations core =>
      let uniqueWorkloadIds := core.getUniqueWorkloadIds
      if uniqueWorkloadIds.length > 1 then
        violations.insert (violationKey package.id core.id) uniqueWorkloadIds
      else violations) violations) OrderedDict.empty

/-- `has_better_isolation(cur_cpu, new_cpu)` -/
def hasBetterIsolation (curCpu newCpu : Cpu) : Bool :=
  let curCrossPackageViolationCount := (getCrossPackageViolations curCpu).keys.length
  let newCrossPackageViolationCount := (getCrossPackageViolations newCpu).keys.length
  let curSharedCoreViolationCount := (getSharedCoreViolations curCpu).keys.length
  let newSharedCoreViolationCount := (getSharedCoreViolations newCpu).keys.length
  let crossPackageViolationChange : Int :=
    (newCrossPackageViolationCount : Int) - curCrossPackageViolationCount
  let sharedCoreViolationChange : Int :=
    (newSharedCoreViolationCount : Int) - curSharedCoreViolationCount
  -- the top row of the matrix, the bottom row, and the middle one
  if crossPackageViolationChange < 0 then true
  else if crossPackageViolationChange > 0 then false
  else decide (sharedCoreViolationChange < 0)

end TitusIsolate
