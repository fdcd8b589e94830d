import TitusIsolate.Model.Processor

/-!
# What the metrics say of a CPU

The gauges report how many threads are claimed, how many are not, and how many claims there
are beyond the first of each thread.
-/

namespace TitusIsolate

/-- `get_allocated_size(cpu)` -/
def getAllocatedSize (cpu : Cpu) : Nat := (cpu.getThreads.filter (fun t => t.isClaimed)).length

/-- `get_unallocated_size(cpu)` -/
def getUnallocatedSize (cpu : Cpu) : Nat := (cpu.getThreads.filter (fun t => !t.isClaimed)).length

/-- `get_oversubscribed_thread_count(cpu)` -/
def getOversubscribedThreadCount (cpu : Cpu) : Nat :=
  cpu.getThreads.foldl (fun oversubscribedThreadCount t =>
    let workloadsOnThreadCount := t.workloadIds.length
    if workloadsOnThreadCount > 1 then oversubscribedThreadCount + (workloadsOnThreadCount - 1)
    else oversubscribedThreadCount) 0

end TitusIsolate
