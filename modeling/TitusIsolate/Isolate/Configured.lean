import TitusIsolate.Allocate.Builtin
import TitusIsolate.Api.Status
import TitusIsolate.Config.RestartWatcher

/-!
# The configured allocator

The process is configured with the names of two allocators, and `get_fallback_allocator`
builds one from each and wraps them: the workload manager never gets an allocator bare.
A name that is not known stands for the remote allocator, whose constructor may raise.
-/

namespace TitusIsolate

/-- `CPU_ALLOCATOR` -/
def cpuAllocatorProperty : String := "TITUS_ISOLATE_ALLOCATOR"

/-- `FALLBACK_ALLOCATOR` -/
def fallbackAllocatorProperty : String := "TITUS_ISOLATE_FALLBACK_ALLOCATOR"

/-- `DEFAULT_FALLBACK_ALLOCATOR` -/
def defaultFallbackAllocator : String := AllocatorClass.naive.configName

section

variable {Rng : Type} (random : RandomSource Rng) (remote : Except PyError (CpuAllocator Rng))

/-- `CPU_ALLOCATOR_NAME_TO_CLASS_MAP[allocator_str]()` -/
def AllocatorClass.build : AllocatorClass → Except PyError (CpuAllocator Rng)
  | .greedy => .ok (greedyCpuAllocator Rng)
  | .naive => .ok (naiveCpuAllocator random)
  | .noop => .ok (noopCpuAllocator Rng)
  | .grpcRemote => remote

/-- `get_allocator(allocator_str)` -/
def getAllocator (allocatorStr : Option String) : Except PyError (CpuAllocator Rng) :=
  (AllocatorClass.ofConfig allocatorStr).build random remote

/-- `get_fallback_allocator(config_manager)` -/
def getFallbackAllocator (fallbackQueueDepth : Int) (configManager : ConfigManager String) :
    Except PyError (CpuAllocator Rng) := do
  let primaryAllocStr := configManager.getStr cpuAllocatorProperty none
  let secondaryAllocStr :=
    configManager.getStr fallbackAllocatorProperty (some defaultFallbackAllocator)
  let primaryAllocator ← getAllocator random remote primaryAllocStr
  let secondaryAllocator ← getAllocator random remote secondaryAllocStr
  .ok (fallbackCpuAllocator fallbackQueueDepth primaryAllocator secondaryAllocator)

end

end TitusIsolate
