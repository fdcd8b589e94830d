import TitusIsolate.Allocate.ResponseDict
import TitusIsolate.Lib.Raising
import TitusIsolate.Proof.Shape

/-!
# Responses survive encoding

Level by level, what `parse_cpu` makes of an encoded thread, core or package looks like the
one that was encoded: the same ids in the same order, and on each thread the same set of
workloads. The order of a thread's workloads is not kept, so a thread is read back only up
to `__eq__`.
-/

namespace TitusIsolate

open Raising PyValue

section

variable {α : Type}

/-! ## Reading what was written -/

theorem PyValue.getItem_dict {entries : List (String × PyValue α)} {key : String} {v : PyValue α}
    (h : entries.lookup key = some v) : (dict entries).getItem key = .ok v := by
  simp only [getItem, h]

theorem PyValue.get_dict {entries : List (String × PyValue α)} {key : String}
    {default v : PyValue α} (h : entries.lookup key = some v) :
    (dict entries).get key default = .ok v := by
  simp only [get, h, Option.getD_some]

theorem PyValue.asNat_natCast (n : Nat) : (int n : PyValue α).asNat = .ok n := by
  have hpos : (0 : Int) ≤ n := Int.natCast_nonneg n
  simp only [asNat, if_pos hpos, Int.toNat_natCast]

theorem Thread.new_natCast (n : Nat) : Thread.new n = .ok (Thread.ofId n) := by
  unfold Thread.new
  rw [if_neg (by omega), Int.toNat_natCast]

/-- Texts in a list are read back. -/
theorem mapM_asStr (xs : List String) :
    (xs.map (PyValue.str : String → PyValue α)).mapM asStr = .ok xs := by
  have h : (xs.map (PyValue.str : String → PyValue α)).mapM asStr = .ok (xs.map id) :=
    mapM_map_eq_ok (fun _ _ => rfl)
  rwa [List.map_id] at h

/-- Natural numbers in a list are read back. -/
theorem mapM_asNat (xs : List Nat) :
    (xs.map (fun (i : Nat) => (.int i : PyValue α))).mapM asNat = .ok xs := by
  have h : (xs.map (fun (i : Nat) => (.int i : PyValue α))).mapM asNat = .ok (xs.map id) :=
    mapM_map_eq_ok (fun i _ => asNat_natCast i)
  rwa [List.map_id] at h

/-! ## The CPU -/

/-- A thread is read back with its id and its set of workloads. -/
theorem parseThread_toDict (t : Thread) :
    ∃ t', parseThread (t.toDict : PyValue α) = .ok t' ∧ t'.seen = t.seen := by
  refine ⟨t.workloadIds.foldl Thread.claim (Thread.ofId t.id), ?_, ?_⟩
  · refine bind_eq_ok.mpr ⟨.int t.id, getItem_dict rfl, bind_eq_ok.mpr ⟨t.id, rfl,
      bind_eq_ok.mpr ⟨Thread.ofId t.id, Thread.new_natCast t.id, bind_eq_ok.mpr
        ⟨t.workloadIdList, getItem_dict rfl, bind_eq_ok.mpr ⟨_, rfl, bind_eq_ok.mpr
          ⟨t.workloadIds, mapM_asStr t.workloadIds, rfl⟩⟩⟩⟩⟩⟩
  · refine Prod.ext Thread.foldl_claim_id (Finset.ext ?_)
    intro w
    simp only [Thread.seen, List.mem_toFinset]
    rw [Thread.mem_foldl_claim]
    simp

/-- What looks like a list that is not empty is not empty. -/
theorem ne_nil_of_map_eq {β γ δ : Type} {u : β → δ} {v : γ → δ} {xs : List β} {ys : List γ}
    (h : ys.map v = xs.map u) (hne : xs ≠ []) : ys ≠ [] := by
  rintro rfl
  exact hne (List.map_eq_nil_iff.mp h.symm)

theorem parseCore_toDict (c : Core) :
    ∃ c', parseCore (c.toDict : PyValue α) = .ok c' ∧ c'.view Thread.seen = c.view Thread.seen := by
  obtain ⟨threads, hthreads, hview⟩ :=
    mapM_map_view c.getThreads (fun t _ => parseThread_toDict (α := α) t)
  have hne : threads ≠ [] := ne_nil_of_map_eq hview c.nonempty
  refine ⟨⟨c.id, threads, hne⟩, ?_, Prod.ext rfl hview⟩
  refine bind_eq_ok.mpr ⟨_, getItem_dict rfl, bind_eq_ok.mpr ⟨_, rfl, bind_eq_ok.mpr
    ⟨threads, hthreads, bind_eq_ok.mpr ⟨_, getItem_dict rfl, bind_eq_ok.mpr
      ⟨c.id, asNat_natCast c.id, ?_⟩⟩⟩⟩⟩
  unfold Core.new
  rw [dif_pos hne]

theorem parsePackage_toDict (p : Package) :
    ∃ p', parsePackage (p.toDict : PyValue α) = .ok p'
      ∧ p'.view Thread.seen = p.view Thread.seen := by
  obtain ⟨cores, hcores, hview⟩ :=
    mapM_map_view p.getCores (fun c _ => parseCore_toDict (α := α) c)
  have hne : cores ≠ [] := ne_nil_of_map_eq hview p.nonempty
  refine ⟨⟨p.id, cores, hne⟩, ?_, Prod.ext rfl hview⟩
  refine bind_eq_ok.mpr ⟨_, getItem_dict rfl, bind_eq_ok.mpr ⟨_, rfl, bind_eq_ok.mpr
    ⟨cores, hcores, bind_eq_ok.mpr ⟨_, getItem_dict rfl, bind_eq_ok.mpr
      ⟨p.id, asNat_natCast p.id, ?_⟩⟩⟩⟩⟩
  unfold Package.new
  rw [dif_pos hne]

/-- **Parsing a CPU undoes encoding it.** -/
theorem parseCpu_toDict (cpu : Cpu) :
    ∃ cpu', parseCpu (cpu.toDict : PyValue α) = .ok cpu'
      ∧ cpu'.view Thread.seen = cpu.view Thread.seen := by
  obtain ⟨packages, hpackages, hview⟩ :=
    mapM_map_view cpu.getPackages (fun p _ => parsePackage_toDict (α := α) p)
  have hne : packages ≠ [] := ne_nil_of_map_eq hview cpu.nonempty
  refine ⟨⟨packages, hne⟩, ?_, hview⟩
  refine bind_eq_ok.mpr ⟨_, getItem_dict rfl, bind_eq_ok.mpr ⟨_, rfl, bind_eq_ok.mpr
    ⟨packages, hpackages, ?_⟩⟩⟩
  unfold Cpu.new
  rw [dif_pos hne]

/-! ## Workload allocations -/

theorem deserializeWorkloadResponse_toDict (a : WorkloadAllocateResponse) :
    deserializeWorkloadResponse (a.toDict : PyValue α) = .ok a :=
  bind_eq_ok.mpr ⟨_, getItem_dict rfl, bind_eq_ok.mpr ⟨a.workloadId, rfl, bind_eq_ok.mpr
    ⟨_, getItem_dict rfl, bind_eq_ok.mpr ⟨_, rfl, bind_eq_ok.mpr
      ⟨a.threadIds, mapM_asNat a.threadIds, bind_eq_ok.mpr ⟨_, getItem_dict rfl, bind_eq_ok.mpr
        ⟨a.cpuShares, rfl, bind_eq_ok.mpr ⟨_, getItem_dict rfl, bind_eq_ok.mpr
          ⟨a.cpuQuota, rfl, bind_eq_ok.mpr ⟨_, get_dict rfl, bind_eq_ok.mpr
            ⟨a.memoryMigrate, rfl, bind_eq_ok.mpr ⟨_, get_dict rfl, bind_eq_ok.mpr
              ⟨a.memorySpreadPage, rfl, bind_eq_ok.mpr ⟨_, get_dict rfl, bind_eq_ok.mpr
                ⟨a.memorySpreadSlab, rfl, rfl⟩⟩⟩⟩⟩⟩⟩⟩⟩⟩⟩⟩⟩⟩⟩

/-! ## Metadata -/

/-- What the constructor makes sure of. -/
structure Signed (name : PyValue α) (metadata : OrderedDict String (PyValue α)) : Prop where
  cpuAllocator : metadata.get? cpuAllocatorKey = some name
  allocatorServiceTaskId : allocatorServiceTaskIdKey ∈ metadata.keys

theorem signed_new (titusTaskId : Option String) (cpu : Cpu) (was : List WorkloadAllocateResponse)
    (name : PyValue α) (metadata : Option (OrderedDict String (PyValue α))) :
    Signed name (AllocateResponse.new .str titusTaskId cpu was name metadata).metadata := by
  have hne : cpuAllocatorKey ≠ allocatorServiceTaskIdKey := by decide
  have hname : ((metadata.getD OrderedDict.empty).insert cpuAllocatorKey name).get? cpuAllocatorKey
      = some name := by
    rw [OrderedDict.get?_insert, if_pos rfl]
  unfold AllocateResponse.new
  simp only
  split
  · rename_i hmem
    exact ⟨hname, hmem⟩
  · refine ⟨?_, OrderedDict.mem_keys_insert.mpr (Or.inl rfl)⟩
    rw [OrderedDict.get?_insert, if_neg hne, hname]

/-- Signing again what is signed changes nothing. -/
theorem Signed.new_metadata {name : PyValue α} {metadata : OrderedDict String (PyValue α)}
    (h : Signed name metadata) (titusTaskId : Option String) (cpu : Cpu)
    (was : List WorkloadAllocateResponse) :
    (AllocateResponse.new .str titusTaskId cpu was name (some metadata)).metadata = metadata := by
  unfold AllocateResponse.new
  simp only [Option.getD_some]
  rw [OrderedDict.insert_eq_self h.cpuAllocator, if_pos h.allocatorServiceTaskId]

/-- The cell is entered beside the signature. -/
theorem Signed.insert_cell {name : PyValue α} {metadata : OrderedDict String (PyValue α)}
    (h : Signed name metadata) (cell : PyValue α) : Signed name (metadata.insert cellKey cell) where
  cpuAllocator := by
    have hne : cpuAllocatorKey ≠ cellKey := by decide
    rw [OrderedDict.get?_insert, if_neg hne, h.cpuAllocator]
  allocatorServiceTaskId := OrderedDict.mem_keys_insert.mpr (Or.inr h.allocatorServiceTaskId)

/-! ## Responses -/

/--
**A response survives encoding.** It is read back with a CPU equal to its own, of the same
packages, cores and thread ids and the same sets of workloads, with the same allocations in
order, and with the same metadata but for the cell. Whatever process reads it, and whatever
headers come with it.
-/
theorem deserializeResponse_toDict (titusTaskId titusTaskId' : Option String)
    (headers : String → Option String) (cpu : Cpu) (was : List WorkloadAllocateResponse)
    (name : PyValue α) (metadata : Option (OrderedDict String (PyValue α))) :
    (∃ r', deserializeResponse titusTaskId' headers
          (AllocateResponse.new .str titusTaskId cpu was name metadata).toDict = .ok r'
        ∧ r'.cpu.eq cpu = true
        ∧ r'.cpu.view Thread.seen = cpu.view Thread.seen
        ∧ r'.workloadAllocations = was
        ∧ r'.metadata
          = (AllocateResponse.new .str titusTaskId cpu was name metadata).metadata.insert cellKey
              (.str ((headers titusIsolateCellHeader).getD unknownCell)))
      ∧ ∃ cpu', parseCpu (cpu.toDict : PyValue α) = .ok cpu'
        ∧ cpu'.eq cpu = true ∧ cpu'.view Thread.seen = cpu.view Thread.seen := by
  obtain ⟨cpu', hcpu, hview⟩ := parseCpu_toDict (α := α) cpu
  refine ⟨?_, cpu', hcpu, Cpu.eq_of_view hview, hview⟩
  have hsigned := signed_new titusTaskId cpu was name metadata
  have hallocs : (was.map (WorkloadAllocateResponse.toDict : _ → PyValue α)).mapM
      deserializeWorkloadResponse = .ok was := by
    have h : (was.map (WorkloadAllocateResponse.toDict : _ → PyValue α)).mapM
        deserializeWorkloadResponse = .ok (was.map id) :=
      mapM_map_eq_ok (fun a _ => deserializeWorkloadResponse_toDict a)
    rwa [List.map_id] at h
  have hcell := hsigned.insert_cell (.str ((headers titusIsolateCellHeader).getD unknownCell))
  refine ⟨_, bind_eq_ok.mpr ⟨_, getItem_dict rfl, bind_eq_ok.mpr ⟨cpu', hcpu, bind_eq_ok.mpr
    ⟨_, getItem_dict rfl, bind_eq_ok.mpr ⟨_, congrArg Except.ok (OrderedDict.ofPairs_entries _),
      bind_eq_ok.mpr ⟨name, getKey_eq_ok.mpr hcell.cpuAllocator, bind_eq_ok.mpr
        ⟨_, getItem_dict rfl, bind_eq_ok.mpr ⟨_, rfl, bind_eq_ok.mpr ⟨was, hallocs, rfl⟩⟩⟩⟩⟩⟩⟩⟩,
    Cpu.eq_of_view hview, hview, rfl, hcell.new_metadata titusTaskId' cpu' was⟩

end

end TitusIsolate
