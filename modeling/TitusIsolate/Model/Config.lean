import Mathlib.Data.List.Range
import Mathlib.Data.List.Nodup
import TitusIsolate.Lib.Raising
import TitusIsolate.Lib.RowMajor
import TitusIsolate.Model.Processor

/-!
# Building a CPU

`get_cpu` numbers the threads row by row: the first threads of all cores come first,
then the second ones. On any machine with at least one package, core and thread it
builds a CPU, and its threads have distinct ids.
-/

namespace TitusIsolate

/-- `Core(identifier, threads)` -/
def Core.new (identifier : Nat) (threads : List Thread) : Except PyError Core :=
  if h : threads ≠ [] then .ok ⟨identifier, threads, h⟩
  else .error (.valueError "A CPU core must have at least 1 thread")

/-- `Package(identifier, cores)` -/
def Package.new (identifier : Nat) (cores : List Core) : Except PyError Package :=
  if h : cores ≠ [] then .ok ⟨identifier, cores, h⟩
  else .error (.valueError "A CPU package must have at least 1 core.")

/-- `Cpu(packages)` -/
def Cpu.new (packages : List Package) : Except PyError Cpu :=
  if h : packages ≠ [] then .ok ⟨packages, h⟩
  else .error (.valueError "A CPU must contain at least 1 package.")

namespace Config

/-- The id of a thread: `row * package_count * core_count + package * core_count + core`. -/
def threadIndex (packageCount coreCount packageIndex coreIndex rowIndex : Nat) : Nat :=
  rowIndex * packageCount * coreCount + packageIndex * coreCount + coreIndex

/-- `__get_threads(package_index, core_index, package_count, core_count, thread_count)` -/
def getThreads (packageIndex coreIndex packageCount coreCount threadCount : Nat) : List Thread :=
  (List.range threadCount).map
    (fun rowIndex =>
      Thread.ofId (threadIndex packageCount coreCount packageIndex coreIndex rowIndex))

/-- `get_cpu(package_count, cores_per_package, threads_per_core)` -/
def getCpu (packageCount coresPerPackage threadsPerCore : Nat) : Except PyError Cpu := do
  let packages ← (List.range packageCount).mapM (fun p => do
    let cores ← (List.range coresPerPackage).mapM (fun c =>
      Core.new c (getThreads p c packageCount coresPerPackage threadsPerCore))
    Package.new p cores)
  Cpu.new packages

/-- One package with one core of two threads. -/
def twoThreads : Cpu :=
  ⟨[⟨0, [⟨0, [Thread.ofId 0, Thread.ofId 1], by decide⟩], by decide⟩], by decide⟩

/-- Two packages of one core of two threads: thread `2` comes before thread `1`. -/
def crossed : Cpu :=
  ⟨[⟨0, [⟨0, [Thread.ofId 0, Thread.ofId 2], by decide⟩], by decide⟩,
    ⟨1, [⟨0, [Thread.ofId 1, Thread.ofId 3], by decide⟩], by decide⟩], by decide⟩

example : getCpu 1 1 2 = .ok twoThreads := by decide

example : getCpu 2 1 2 = .ok crossed := by decide

/-! ## What it builds -/

variable {P C T : Nat}

theorem mapM_ok {α β ε : Type} (f : α → β) (xs : List α) :
    xs.mapM (fun x => (Except.ok (f x) : Except ε β)) = .ok (xs.map f) := List.mapM_pure

/-- Where a thread sits can be read off its id. -/
theorem threadIndex_inj {p p' c c' r r' : Nat} (hp : p < P) (hp' : p' < P) (hc : c < C)
    (hc' : c' < C) (h : threadIndex P C p c r = threadIndex P C p' c' r') :
    p = p' ∧ c = c' ∧ r = r' := by
  unfold threadIndex at h
  rw [← Nat.add_mul, ← Nat.add_mul] at h
  obtain ⟨hrest, hcc⟩ := RowMajor.place_inj hc hc' h
  obtain ⟨hrr, hpp⟩ := RowMajor.place_inj hp hp' hrest
  exact ⟨hpp, hcc, hrr⟩

theorem getThreads_ids (p c : Nat) :
    (getThreads p c P C T).map Thread.id = (List.range T).map (threadIndex P C p c) := by
  unfold getThreads
  rw [List.map_map]
  rfl

theorem getThreads_ne_nil (p c : Nat) (hT : 0 < T) : getThreads p c P C T ≠ [] := by
  intro h
  have := congrArg List.length h
  simp only [getThreads, List.length_map, List.length_range, List.length_nil] at this
  omega

/-- **A machine with a thread gets a CPU**: a package for each socket, and on it the cores
with their threads. -/
theorem getCpu_eq (hP : 0 < P) (hC : 0 < C) (hT : 0 < T) :
    ∃ (core : Nat → Nat → Core) (package : Nat → Package) (cpu : Cpu),
      getCpu P C T = .ok cpu
      ∧ (∀ p c, (core p c).id = c ∧ (core p c).threads = getThreads p c P C T)
      ∧ (∀ p, (package p).id = p ∧ (package p).cores = (List.range C).map (core p))
      ∧ cpu.packages = (List.range P).map package := by
  -- no constructor is handed an empty list
  have hcores : List.range C ≠ [] := by simp; omega
  have hpackages : List.range P ≠ [] := by simp; omega
  let core : Nat → Nat → Core := fun p c => ⟨c, getThreads p c P C T, getThreads_ne_nil p c hT⟩
  let package : Nat → Package := fun p => ⟨p, (List.range C).map (core p), by simpa using hcores⟩
  refine ⟨core, package, ⟨(List.range P).map package, by simpa using hpackages⟩, ?_,
    fun _ _ => ⟨rfl, rfl⟩, fun _ => ⟨rfl, rfl⟩, rfl⟩
  have hcore : ∀ p c, Core.new c (getThreads p c P C T) = .ok (core p c) :=
    fun p c => dif_pos (getThreads_ne_nil p c hT)
  have hpackage : ∀ p, Package.new p ((List.range C).map (core p)) = .ok (package p) :=
    fun p => dif_pos (by simpa using hcores)
  unfold getCpu
  simp only [hcore, mapM_ok]
  have hbind : ∀ p, (Except.ok ((List.range C).map (core p)) >>= fun cores => Package.new p cores)
      = (Except.ok (package p) : Except PyError Package) := hpackage
  simp only [hbind, mapM_ok]
  exact dif_pos (by simpa using hpackages)

/-- Its threads are those of its packages and cores in order. -/
theorem getCpu_ok (hP : 0 < P) (hC : 0 < C) (hT : 0 < T) :
    ∃ cpu, getCpu P C T = .ok cpu
      ∧ cpu.getThreads = (List.range P).flatMap
          (fun p => (List.range C).flatMap (fun c => getThreads p c P C T)) := by
  obtain ⟨core, package, cpu, hcpu, hcore, hpackage, hpackages⟩ := getCpu_eq hP hC hT
  refine ⟨cpu, hcpu, ?_⟩
  unfold Cpu.getThreads Cpu.getPackages
  rw [hpackages, List.flatMap_map]
  congr 1
  funext p
  unfold Package.getThreads Package.getCores
  rw [(hpackage p).2, List.flatMap_map]
  congr 1
  funext c
  exact (hcore p c).2

/-- The threads of a CPU built here have distinct ids. -/
theorem getCpu_ids_nodup {cpu : Cpu} (hP : 0 < P) (hC : 0 < C) (hT : 0 < T)
    (h : getCpu P C T = .ok cpu) : (cpu.getThreads.map Thread.id).Nodup := by
  obtain ⟨cpu', hcpu', hthreads⟩ := getCpu_ok hP hC hT
  rw [h] at hcpu'
  obtain rfl := Except.ok.inj hcpu'
  rw [hthreads]
  simp only [List.map_flatMap, getThreads_ids]
  rw [List.nodup_flatMap]
  refine ⟨?_, ?_⟩
  · intro p hp
    have hp := List.mem_range.mp hp
    rw [List.nodup_flatMap]
    refine ⟨?_, ?_⟩
    · intro c hc
      have hc := List.mem_range.mp hc
      refine List.Nodup.map_on ?_ List.nodup_range
      intro r _ r' _ he
      exact (threadIndex_inj hp hp hc hc he).2.2
    · refine List.Nodup.pairwise_of_forall_ne List.nodup_range ?_
      intro c hc c' hc' hne i hi hi'
      obtain ⟨r, _, rfl⟩ := List.mem_map.mp hi
      obtain ⟨r', _, he⟩ := List.mem_map.mp hi'
      exact hne (threadIndex_inj hp hp (List.mem_range.mp hc') (List.mem_range.mp hc) he).2.1.symm
  · refine List.Nodup.pairwise_of_forall_ne List.nodup_range ?_
    intro p hp p' hp' hne i hi hi'
    obtain ⟨c, hc, hi⟩ := List.mem_flatMap.mp hi
    obtain ⟨c', hc', hi'⟩ := List.mem_flatMap.mp hi'
    obtain ⟨r, _, rfl⟩ := List.mem_map.mp hi
    obtain ⟨r', _, he⟩ := List.mem_map.mp hi'
    exact hne (threadIndex_inj (List.mem_range.mp hp') (List.mem_range.mp hp)
      (List.mem_range.mp hc') (List.mem_range.mp hc) he).1.symm

open Raising in
/-- A CPU is built only for a machine with a thread. -/
theorem getCpu_pos {cpu : Cpu} (h : getCpu P C T = .ok cpu) : 0 < P ∧ 0 < C ∧ 0 < T := by
  obtain ⟨packages, hpackages, hcpu⟩ := bind_eq_ok.mp h
  have hP : 0 < P := by
    by_contra hzero
    obtain rfl : P = 0 := by omega
    cases hpackages
    exact absurd hcpu (by simp [Cpu.new])
  obtain ⟨package, hpackage⟩ := ok_of_mapM_ok hpackages 0 (List.mem_range.mpr hP)
  obtain ⟨cores, hcores, hpackage⟩ := bind_eq_ok.mp hpackage
  have hC : 0 < C := by
    by_contra hzero
    obtain rfl : C = 0 := by omega
    cases hcores
    exact absurd hpackage (by simp [Package.new])
  obtain ⟨core, hcore⟩ := ok_of_mapM_ok hcores 0 (List.mem_range.mpr hC)
  refine ⟨hP, hC, ?_⟩
  by_contra hzero
  obtain rfl : T = 0 := by omega
  exact absurd hcore (by simp [Core.new, getThreads])

end Config

end TitusIsolate
