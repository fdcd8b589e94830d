import Mathlib.Data.List.Dedup
import TitusIsolate.Lib.FirstMax
import TitusIsolate.Lib.Touch
import TitusIsolate.Model.Workload

/-!
# The CPU model

A CPU is a list of packages, a package a list of cores, a core a list of threads,
and a thread carries the ids of the workloads that claim it. Each level is refused
when it is empty and a thread never lists an id twice, so both facts are fields.

The program hands out threads, cores and packages by reference and mutates them in
place. Here a core or package is referred to by its position in the list that holds
it, and a thread of a whole CPU by its position in `get_threads()`. Two threads with
the same id are still two threads.
-/

namespace TitusIsolate

/-- `set(xs) == set(ys)`, with `eq` as the `__eq__` of the members. -/
def sameSet {α : Type} (eq : α → α → Bool) (xs ys : List α) : Bool :=
  xs.all (fun x => ys.any (eq x)) && ys.all (fun y => xs.any (eq y))

/-- `xs[:n]`; a negative `n` counts from the end. -/
def sliceTo {α : Type} (xs : List α) (n : Int) : List α :=
  if n < 0 then xs.take (xs.length + n).toNat else xs.take n.toNat

/-! ## Threads -/

/-- `Thread`: an id, and the workloads that claim it. -/
structure Thread where
  id : Nat
  workloadIds : List WorkloadId
  nodup : workloadIds.Nodup
  deriving DecidableEq, Repr

namespace Thread

/-- `Thread(processor_id)` -/
def ofId (processorId : Nat) : Thread := ⟨processorId, [], List.nodup_nil⟩

/-- The ids go through a `set`, whose order is left open; no reader depends on it. -/
def claim (t : Thread) (workloadId : WorkloadId) : Thread :=
  { t with workloadIds := (t.workloadIds ++ [workloadId]).dedup, nodup := List.nodup_dedup _ }

/-- `free(workload_id)` -/
def free (t : Thread) (workloadId : WorkloadId) : Thread :=
  if workloadId ∈ t.workloadIds then
    { t with workloadIds := t.workloadIds.erase workloadId, nodup := t.nodup.erase _ }
  else t

/-- `clear()` -/
def clear (t : Thread) : Thread := { t with workloadIds := [], nodup := List.nodup_nil }

/-- `is_claimed()` -/
def isClaimed (t : Thread) : Bool := decide (t.workloadIds.length > 0)

/-- `__eq__` -/
def eq (t other : Thread) : Bool :=
  t.id == other.id && sameSet (· == ·) t.workloadIds other.workloadIds

@[simp] theorem ofId_workloadIds (i : Nat) : (ofId i).workloadIds = [] := rfl

@[simp] theorem claim_id (t : Thread) (w : WorkloadId) : (t.claim w).id = t.id := rfl

@[simp] theorem clear_id (t : Thread) : t.clear.id = t.id := rfl

@[simp] theorem clear_workloadIds (t : Thread) : t.clear.workloadIds = [] := rfl

@[simp] theorem free_id (t : Thread) (w : WorkloadId) : (t.free w).id = t.id := by
  unfold free; split <;> rfl

@[simp] theorem mem_claim {t : Thread} {w u : WorkloadId} :
    u ∈ (t.claim w).workloadIds ↔ u = w ∨ u ∈ t.workloadIds := by
  simp [claim, or_comm]

@[simp] theorem mem_free {t : Thread} {w u : WorkloadId} :
    u ∈ (t.free w).workloadIds ↔ u ≠ w ∧ u ∈ t.workloadIds := by
  unfold free
  split
  · exact t.nodup.mem_erase_iff
  · rename_i h
    refine ⟨?_, ?_⟩
    · intro hu
      exact ⟨fun he => h (he ▸ hu), hu⟩
    · exact And.right

theorem isClaimed_iff {t : Thread} : t.isClaimed = true ↔ ∃ w, w ∈ t.workloadIds := by
  unfold isClaimed
  rw [decide_eq_true_iff, gt_iff_lt, List.length_pos_iff_exists_mem]

theorem not_isClaimed_iff {t : Thread} : t.isClaimed = false ↔ t.workloadIds = [] := by
  unfold isClaimed
  simp

@[simp] theorem isClaimed_claim (t : Thread) (w : WorkloadId) : (t.claim w).isClaimed = true :=
  isClaimed_iff.mpr ⟨w, by simp⟩

@[simp] theorem isClaimed_clear (t : Thread) : t.clear.isClaimed = false :=
  not_isClaimed_iff.mpr rfl

/-- Claiming an empty thread makes it the claimant's alone. -/
theorem claim_workloadIds_of_empty {t : Thread} (h : t.isClaimed = false) (w : WorkloadId) :
    (t.claim w).workloadIds = [w] := by
  simp [claim, not_isClaimed_iff.mp h]

/-- `for w in workloads: t.claim(w)` -/
theorem mem_foldl_claim {t : Thread} {workloads : List WorkloadId} {w : WorkloadId} :
    w ∈ (workloads.foldl claim t).workloadIds ↔ w ∈ workloads ∨ w ∈ t.workloadIds := by
  induction workloads generalizing t with
  | nil => simp
  | cons v workloads ih =>
    rw [List.foldl_cons, ih, mem_claim, List.mem_cons, or_left_comm, or_assoc]

@[simp] theorem foldl_claim_id {t : Thread} {workloads : List WorkloadId} :
    (workloads.foldl claim t).id = t.id := by
  induction workloads generalizing t with
  | nil => rfl
  | cons v workloads ih => rw [List.foldl_cons, ih, claim_id]

end Thread

/-- `utils.get_empty_threads(threads)` -/
def getEmptyThreads (threads : List Thread) : List Thread := threads.filter (fun t => !t.isClaimed)

/-- `utils.get_claimed_threads(threads)` -/
def getClaimedThreads (threads : List Thread) : List Thread := threads.filter (fun t => t.isClaimed)

/-! ## Cores -/

/-- `Core`: an id and at least one thread. -/
structure Core where
  id : Nat
  threads : List Thread
  nonempty : threads ≠ []
  deriving DecidableEq, Repr

namespace Core

/-- `get_threads()` -/
def getThreads (c : Core) : List Thread := c.threads

/-- `get_empty_threads()` -/
def getEmptyThreads (c : Core) : List Thread := TitusIsolate.getEmptyThreads c.getThreads

/-- `__eq__` -/
def eq (c other : Core) : Bool :=
  c.id == other.id && sameSet Thread.eq c.getThreads other.getThreads

/-- Update each thread, given its position, where the core starts at position `k`. -/
def mapThreadsFrom (f : Nat → Thread → Thread) (k : Nat) (c : Core) : Core :=
  { c with
    threads := (c.threads.zipIdx k).map (fun e => f e.2 e.1)
    nonempty := by simpa using c.nonempty }

end Core

/-! ## Packages -/

/-- `Package`: an id and at least one core. -/
structure Package where
  id : Nat
  cores : List Core
  nonempty : cores ≠ []
  deriving DecidableEq, Repr

namespace Package

/-- `get_cores()` -/
def getCores (p : Package) : List Core := p.cores

/-- `get_threads()` -/
def getThreads (p : Package) : List Thread := p.getCores.flatMap Core.getThreads

/-- `get_empty_threads()` -/
def getEmptyThreads (p : Package) : List Thread := TitusIsolate.getEmptyThreads p.getThreads

/-- `__eq__` -/
def eq (p other : Package) : Bool :=
  p.id == other.id && sameSet Core.eq p.getCores other.getCores

/-- `utils.get_emptiest_core(package)`: the first core with the most empty threads. -/
def getEmptiestCore (p : Package) : Fin p.cores.length :=
  ⟨firstMaxIdx (fun c => c.getEmptyThreads.length) p.cores, firstMaxIdx_lt p.nonempty⟩

/-- The package after an update of the core at position `i`. -/
def modifyCore (p : Package) (i : Nat) (f : Core → Core) : Package :=
  { p with
    cores := p.cores.modify i f
    nonempty := by
      intro h
      have := congrArg List.length h
      simp only [List.length_modify, List.length_nil] at this
      exact p.nonempty (List.length_eq_zero_iff.mp this) }

/-- Update each thread, given its position, where the package starts at position `k`. -/
def mapThreadsFrom (f : Nat → Thread → Thread) (k : Nat) (p : Package) : Package :=
  { p with
    cores := mapFrom (fun c => c.getThreads.length) (Core.mapThreadsFrom f) k p.cores
    nonempty := mapFrom_ne_nil p.nonempty }

end Package

/-! ## The CPU -/

/-- `Cpu`: at least one package. -/
structure Cpu where
  packages : List Package
  nonempty : packages ≠ []
  deriving DecidableEq, Repr

namespace Cpu

/-- `get_packages()` -/
def getPackages (cpu : Cpu) : List Package := cpu.packages

/-- `get_threads()` -/
def getThreads (cpu : Cpu) : List Thread := cpu.getPackages.flatMap Package.getThreads

/-- `get_empty_threads()` -/
def getEmptyThreads (cpu : Cpu) : List Thread := TitusIsolate.getEmptyThreads cpu.getThreads

/-- `get_claimed_threads()` -/
def getClaimedThreads (cpu : Cpu) : List Thread := TitusIsolate.getClaimedThreads cpu.getThreads

/-- The first package with the most empty threads. -/
def getEmptiestPackage (cpu : Cpu) : Fin cpu.packages.length :=
  ⟨firstMaxIdx (fun p => p.getEmptyThreads.length) cpu.packages, firstMaxIdx_lt cpu.nonempty⟩

/-- `utils.is_cpu_full(cpu)` -/
def isCpuFull (cpu : Cpu) : Bool :=
  decide ((cpu.getPackages.flatMap Package.getEmptyThreads).length = 0)

/-- `__eq__` -/
def eq (cpu other : Cpu) : Bool := sameSet Package.eq cpu.getPackages other.getPackages

/-- The CPU after an update of the package at position `i`. -/
def modifyPackage (cpu : Cpu) (i : Nat) (f : Package → Package) : Cpu :=
  { cpu with
    packages := cpu.packages.modify i f
    nonempty := by
      intro h
      have := congrArg List.length h
      simp only [List.length_modify, List.length_nil] at this
      exact cpu.nonempty (List.length_eq_zero_iff.mp this) }

/-- Update each thread, given its position in `get_threads()`. -/
def mapThreadsIdx (cpu : Cpu) (f : Nat → Thread → Thread) : Cpu :=
  { cpu with
    packages := mapFrom (fun p => p.getThreads.length) (Package.mapThreadsFrom f) 0 cpu.packages
    nonempty := mapFrom_ne_nil cpu.nonempty }

/-- `for t in self.get_threads(): t.clear()` -/
def clear (cpu : Cpu) : Cpu := cpu.mapThreadsIdx (fun _ t => t.clear)

/-- `res[w_id] += [t.get_id()]` for every claim, in thread order. -/
def getWorkloadIdsToThreadIds (cpu : Cpu) : OrderedDict WorkloadId (List Nat) :=
  cpu.getThreads.foldl (fun res t =>
    if t.isClaimed then
      t.workloadIds.foldl (fun res w => res.insert w ((res.get? w).getD [] ++ [t.id])) res
    else res) OrderedDict.empty

/-- `{i: t.get_id() for i, t in enumerate(self.get_threads())}` -/
def getNaturalIndexing2OriginalIndexing (cpu : Cpu) : OrderedDict Nat Nat :=
  OrderedDict.ofPairs (cpu.getThreads.zipIdx.map (fun e => (e.2, e.1.id)))

theorem getThreads_mapThreadsIdx (cpu : Cpu) (f : Nat → Thread → Thread) :
    (cpu.mapThreadsIdx f).getThreads = cpu.getThreads.zipIdx.map (fun e => f e.2 e.1) := by
  have hcore : ∀ k (c : Core), Core.getThreads (Core.mapThreadsFrom f k c)
      = (c.getThreads.zipIdx k).map (fun e => f e.2 e.1) := fun _ _ => rfl
  have hpackage : ∀ k (p : Package), Package.getThreads (Package.mapThreadsFrom f k p)
      = (p.getThreads.zipIdx k).map (fun e => f e.2 e.1) := by
    intro k p
    exact mapFrom_flatMap (fun _ => rfl) hcore k p.cores
  exact mapFrom_flatMap (fun _ => rfl) hpackage 0 cpu.packages

theorem getElem?_getThreads_mapThreadsIdx (cpu : Cpu) (f : Nat → Thread → Thread) (i : Nat) :
    (cpu.mapThreadsIdx f).getThreads[i]? = cpu.getThreads[i]?.map (f i) := by
  rw [getThreads_mapThreadsIdx, List.getElem?_map, List.getElem?_zipIdx, Nat.zero_add,
    Option.map_map]
  rfl

/-- What an update makes of a thread is a thread afterwards. -/
theorem mem_getThreads_mapThreadsIdx {cpu : Cpu} {i : Nat} {t : Thread}
    (h : cpu.getThreads[i]? = some t) (f : Nat → Thread → Thread) :
    f i t ∈ (cpu.mapThreadsIdx f).getThreads := by
  refine List.mem_of_getElem? (i := i) ?_
  rw [getElem?_getThreads_mapThreadsIdx, h]
  rfl

@[simp] theorem length_getThreads_mapThreadsIdx (cpu : Cpu) (f : Nat → Thread → Thread) :
    (cpu.mapThreadsIdx f).getThreads.length = cpu.getThreads.length := by
  rw [getThreads_mapThreadsIdx, List.length_map, List.length_zipIdx]

/-- An update that `g` does not see, seen through `g`. -/
theorem map_getThreads_mapThreadsIdx {β : Type} {g : Thread → β} {f : Nat → Thread → Thread}
    (h : ∀ i t, g (f i t) = g t) (cpu : Cpu) :
    (cpu.mapThreadsIdx f).getThreads.map g = cpu.getThreads.map g := by
  refine List.ext_getElem? ?_
  intro i
  rw [List.getElem?_map, List.getElem?_map, getElem?_getThreads_mapThreadsIdx, Option.map_map]
  exact congrFun (congrArg Option.map (funext (h i))) _

theorem getThreads_mapThreadsIdx_const (cpu : Cpu) (f : Thread → Thread) :
    (cpu.mapThreadsIdx (fun _ => f)).getThreads = cpu.getThreads.map f := by
  rw [getThreads_mapThreadsIdx]
  have : (fun e : Thread × Nat => f e.1) = f ∘ Prod.fst := rfl
  rw [this, ← List.map_map, List.zipIdx_map_fst]

theorem getThreads_clear (cpu : Cpu) : cpu.clear.getThreads = cpu.getThreads.map Thread.clear :=
  getThreads_mapThreadsIdx_const cpu _

/-- A CPU has a thread. -/
theorem getThreads_ne_nil (cpu : Cpu) : cpu.getThreads ≠ [] := by
  obtain ⟨p, hp⟩ := List.exists_mem_of_ne_nil _ cpu.nonempty
  obtain ⟨c, hc⟩ := List.exists_mem_of_ne_nil _ p.nonempty
  obtain ⟨t, ht⟩ := List.exists_mem_of_ne_nil _ c.nonempty
  exact List.ne_nil_of_mem
    (List.mem_flatMap.mpr ⟨p, hp, List.mem_flatMap.mpr ⟨c, hc, ht⟩⟩)

theorem isCpuFull_iff {cpu : Cpu} : cpu.isCpuFull = true ↔ cpu.getEmptyThreads.length = 0 := by
  have : cpu.getPackages.flatMap Package.getEmptyThreads = cpu.getEmptyThreads := by
    unfold getEmptyThreads getThreads TitusIsolate.getEmptyThreads
    rw [List.filter_flatMap]
    rfl
  unfold isCpuFull
  rw [decide_eq_true_iff, this]

end Cpu

/-- `update.get_threads(cpu, workload_id)`: the ids of the threads a workload claims. -/
def Update.getThreads (cpu : Cpu) (workloadId : WorkloadId) : List Nat :=
  (cpu.getThreads.filter (fun t => workloadId ∈ t.workloadIds)).map Thread.id

/-! ## Where a workload is -/

/-- `utils.get_threads_with_workload(core, workload_id)`, of whatever has threads. -/
def getThreadsWithWorkload (threads : List Thread) (workloadId : WorkloadId) : List Thread :=
  threads.filter (fun t => workloadId ∈ t.workloadIds)

/-- `utils.is_on_package(package, workload_id)` -/
def isOnPackage (p : Package) (workloadId : WorkloadId) : Bool :=
  decide ((getThreadsWithWorkload p.getThreads workloadId).length > 0)

/-- `utils.get_packages_with_workload(cpu, workload_id)` -/
def getPackagesWithWorkload (cpu : Cpu) (workloadId : WorkloadId) : List Package :=
  cpu.getPackages.filter (fun p => isOnPackage p workloadId)

end TitusIsolate
