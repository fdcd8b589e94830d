import TitusIsolate.Isolate.Host
import TitusIsolate.Isolate.Reconciler
import TitusIsolate.Proof.Agreement
import TitusIsolate.Proof.Writes
import TitusIsolate.Proof.Truthful

/-!
# What is asked for is what is claimed

The reconciler compares the CPU model with what the kernel reads back from the cpuset files.
While `isolate` makes its calls and threads write, model and files differ. What holds all
the time is about the calls: when those still to be made are made, the last cpuset asked for
each workload is the one that it will claim.
-/

namespace TitusIsolate

/-! ## Reading back -/

/-- The kernel lists each thread that was written once, as single ids and ranges. -/
def ShowsWritten (kernel : String → String) : Prop :=
  ∀ ids : List Nat, ids ≠ [] → ∃ entries : List CpusetEntry,
    kernel (getThreadIdsStr ids) = writeCpuset entries
      ∧ (entries.flatMap CpusetEntry.ids).Nodup
      ∧ ∀ i, i ∈ entries.flatMap CpusetEntry.ids ↔ i ∈ ids

/-- What the reconciler reads: cpuset files as the kernel shows them. -/
def FileWorld.readBack (kernel : String → String) (s : FileWorld) : CgroupView where
  hasPendingWork := s.manager.hasPendingWork
  getCpuset c :=
    match s.files c .cpuset with
    | none => .ok []
    | some cpusetStr => parseCpuset (kernel cpusetStr)

theorem parseCpuset_readBack {kernel : String → String} (hkernel : ShowsWritten kernel)
    {ids : List Nat} (hne : ids ≠ []) :
    ∃ back, parseCpuset (kernel (getThreadIdsStr ids)) = .ok back ∧ back.Nodup
      ∧ ∀ i, i ∈ back ↔ i ∈ ids := by
  obtain ⟨entries, htext, hnodup, hmem⟩ := hkernel ids hne
  refine ⟨_, ?_, hnodup, hmem⟩
  rw [htext]
  refine parseCpuset_writeCpuset ?_
  rintro rfl
  obtain ⟨i, hi⟩ := List.exists_mem_of_ne_nil ids hne
  exact absurd ((hmem i).mpr hi) (by simp)

/-- Ids in ascending order as the kernel lists them: neighbours as one range. -/
def cpulistEntries : List Nat → List CpusetEntry
  | [] => []
  | i :: is =>
      match cpulistEntries is with
      | [] => [.single i]
      | .single j :: es =>
          if h : i + 1 = j then .range i j (by omega) :: es else .single i :: .single j :: es
      | .range j k le :: es =>
          if h : i + 1 = j then .range i k (by omega) :: es else .single i :: .range j k le :: es

/-- What a cpuset file shows after a list of ids has been written to it. -/
def cpulist (written : String) : String :=
  match parseCpuset written with
  | .ok ids => writeCpuset (cpulistEntries (ids.dedup.insertionSort (· ≤ ·)))
  | .error _ => written

example : cpulist "5,0,1,1,2,9,8" = "0-2,5,8-9" := by decide +kernel

theorem ids_cpulistEntries : ∀ ids : List Nat,
    (cpulistEntries ids).flatMap CpusetEntry.ids = ids
  | [] => rfl
  | i :: is => by
      have ih := ids_cpulistEntries is
      unfold cpulistEntries
      split
      · rename_i hnil
        rw [hnil] at ih
        rw [← ih]
        rfl
      · rename_i j es hentries
        rw [hentries] at ih
        split
        · rename_i hnext
          rw [← ih, List.flatMap_cons, List.flatMap_cons]
          have hpair : i + 1 + 1 - i = 2 := by omega
          simp only [CpusetEntry.ids, ← hnext, hpair, List.range'_succ, List.range'_zero,
            List.cons_append, List.nil_append]
        · rw [← ih]
          rfl
      · rename_i j k le es hentries
        rw [hentries] at ih
        split
        · rename_i hnext
          rw [← ih, List.flatMap_cons, List.flatMap_cons]
          have hlen : k + 1 - i = (k + 1 - (i + 1)) + 1 := by omega
          simp only [CpusetEntry.ids, ← hnext, hlen, List.range'_succ, List.cons_append]
        · rw [← ih]
          rfl

theorem cpulist_showsWritten : ShowsWritten cpulist := by
  intro ids hne
  have hperm := List.perm_insertionSort (· ≤ ·) ids.dedup
  refine ⟨cpulistEntries (ids.dedup.insertionSort (· ≤ ·)), ?_, ?_, ?_⟩
  · unfold cpulist
    rw [parseCpuset_getThreadIdsStr hne]
  · rw [ids_cpulistEntries]
    exact hperm.nodup_iff.mpr (List.nodup_dedup ids)
  · intro i
    rw [ids_cpulistEntries, hperm.mem_iff, List.mem_dedup]

/-! ## What has been asked for -/

/-- The cpuset a container has been asked to have, after one more call. -/
def askCpuset (u : WorkloadId) (asked : Option String) : CgroupCall → Option String
  | .setCpuset c threadIds => if u = c then some (getThreadIdsStr threadIds) else asked
  | _ => asked

theorem askCpuset_releases (u : WorkloadId) (asked : Option String) (removes : List WorkloadId) :
    (removes.map CgroupCall.releaseContainer).foldl (askCpuset u) asked = asked := by
  induction removes with
  | nil => rfl
  | cons w ws ih => exact ih

theorem askCpuset_allocation (u : WorkloadId) (asked : Option String)
    (a : WorkloadAllocateResponse) :
    (WorkloadManager.allocationCalls a).foldl (askCpuset u) asked
      = if u = a.workloadId then some (getThreadIdsStr a.threadIds) else asked := rfl

/-- What is asked of a file by the calls of a response. -/
theorem askCpuset_applyIsolation (u : WorkloadId) (asked : Option String)
    {last : Option AllocateResponse} {response : AllocateResponse}
    (honce : ListsOnce response.workloadAllocations) :
    (WorkloadManager.applyIsolation last response).foldl (askCpuset u) asked
      = match findAllocation response.workloadAllocations u with
        | none => asked
        | some a => if WorkloadManager.skips last a then asked
            else some (getThreadIdsStr a.threadIds) :=
  look_foldl_allocations (askCpuset u) id (fun a => some (getThreadIdsStr a.threadIds))
    (WorkloadManager.skips last) (fun asked a => askCpuset_allocation u asked a) asked honce

/-- The latest cpuset call for a container. -/
def FileWorld.asked (s : FileWorld) (u : WorkloadId) : Option String :=
  (s.latest u .cpuset).map Prod.snd

theorem FileWorld.latest_perform {s : FileWorld} {c : CgroupCall} {w : Write} {ok : Bool}
    (h : c.write = some w) : (s.perform c ok).latest = (s.note w).latest := by
  rw [perform_of_write h]
  split
  · rfl
  · rw [latest_set]

theorem FileWorld.asked_perform_other {s : FileWorld} {c : CgroupCall} {w : Write} (ok : Bool)
    (u : WorkloadId) (h : c.write = some w) (hfile : w.file ≠ .cpuset) :
    (s.perform c ok).asked u = s.asked u := by
  unfold asked
  rw [latest_perform h, latest_note, if_neg (fun hx => hfile hx.2.symm)]

/-- A call that is made asks for what it asks for. -/
theorem FileWorld.asked_perform (s : FileWorld) (c : CgroupCall) (ok : Bool) (u : WorkloadId) :
    (s.perform c ok).asked u = askCpuset u (s.asked u) c := by
  cases c with
  | releaseContainer v => rfl
  | setCpuset v threadIds =>
    unfold asked
    rw [latest_perform rfl, latest_note]
    by_cases hu : u = v
    · simp [hu, askCpuset]
    · simp [hu, askCpuset]
  | setQuota v quota => exact asked_perform_other ok u (w := ⟨v, .quota, _⟩) rfl (by simp)
  | setShares v shares => exact asked_perform_other ok u (w := ⟨v, .shares, _⟩) rfl (by simp)
  | setMemoryMigrate v on =>
    exact asked_perform_other ok u (w := ⟨v, .memoryMigrate, _⟩) rfl (by simp)
  | setMemorySpreadPage v on =>
    exact asked_perform_other ok u (w := ⟨v, .memorySpreadPage, _⟩) rfl (by simp)
  | setMemorySpreadSlab v on =>
    exact asked_perform_other ok u (w := ⟨v, .memorySpreadSlab, _⟩) rfl (by simp)

theorem FileWorld.asked_complete (s : FileWorld) (i : Nat) (ok : Bool) (u : WorkloadId) :
    (s.complete i ok).asked u = s.asked u := by
  unfold asked complete
  cases s.manager.threads[i]? with
  | none => rfl
  | some t =>
    dsimp only
    rw [latest_set]

namespace Host

/-- The calls still to be made, and the manager there will be when they are. -/
def due (h : Host) : List CgroupCall × WorkloadManager := h.inCall.getD ([], h.wm)

/-- What a container's cpuset will have been asked to be when the calls are made. -/
def dueCpuset (h : Host) (u : WorkloadId) : Option String :=
  h.due.1.foldl (askCpuset u) (h.world.asked u)

/-- The text is a list of these threads, in some order. -/
def Asks (text : Option String) (threadIds : List Nat) : Prop :=
  ∃ asked, text = some (getThreadIdsStr asked) ∧ ∀ i, i ∈ asked ↔ i ∈ threadIds

theorem Asks.congr {text : Option String} {ids ids' : List Nat} (h : Asks text ids)
    (hsame : ∀ i, i ∈ ids ↔ i ∈ ids') : Asks text ids' := by
  obtain ⟨asked, htext, hmem⟩ := h
  exact ⟨asked, htext, fun i => (hmem i).trans (hsame i)⟩

/-- The cpusets asked for are those claimed. -/
structure AskedAsClaimed (h : Host) : Prop where
  threads : DistinctThreads h.due.2.cpu
  claimed : ∀ u, Claimed h.due.2.cpu u →
    Asks (h.dueCpuset u) (Update.getThreads h.due.2.cpu u)
  /-- The allocations that a later call may skip have been asked for. -/
  last : ∀ u a,
    (WorkloadManager.getWorkloadAllocationDict h.due.2.lastResponse).get? u = some a →
      Asks (h.dueCpuset u) a.threadIds

section

variable {Rng : Type} {allocator : CpuAllocator Rng}
  {reportCpuEvent : Ambient Rng → AllocateRequest → AllocateResponse → Except PyError Unit}

/-- A call begins: what it will do is now due. -/
theorem askedAsClaimed_isolate (htruth : allocator.IsTruthful) {h : Host}
    (hasked : h.AskedAsClaimed) (hidle : h.inCall = none) (call : IsolateCall Rng) :
    AskedAsClaimed
      { h with
        inCall := some ((h.wm.isolate allocator reportCpuEvent call).cgroupCalls,
          (h.wm.isolate allocator reportCpuEvent call).manager) } := by
  -- before the call there is nothing due but what has been asked for
  have hdue : h.due = ([], h.wm) := by
    unfold due
    rw [hidle]
    rfl
  have hcpuset : ∀ u, h.dueCpuset u = h.world.asked u := by
    intro u
    unfold dueCpuset
    rw [hdue]
    rfl
  obtain ⟨hthreads, hclaimed, hlast⟩ := hasked
  simp only [hdue, hcpuset] at hthreads hclaimed hlast
  cases hres : (allocator.isolate call.ambient (h.wm.requestFor call)).result with
  | error e =>
    -- the containers are released, and nothing else changes
    rw [isolate_of_error hres]
    refine ⟨hthreads, ?_, ?_⟩
    · intro u hcl
      have hask : Asks (h.world.asked u) (Update.getThreads h.wm.cpu u) := hclaimed u hcl
      rw [← askCpuset_releases u (h.world.asked u) call.removes] at hask
      exact hask
    · intro u a ha
      have hask : Asks (h.world.asked u) a.threadIds := hlast u a ha
      rw [← askCpuset_releases u (h.world.asked u) call.removes] at hask
      exact hask
  | ok response =>
    have hinst := isolate_of_ok reportCpuEvent hres
    have htrue := htruth.answer _ _ _ hthreads hres
    -- what is asked of one file by the whole call
    have hask : ∀ u, (h.wm.isolate allocator reportCpuEvent call).cgroupCalls.foldl (askCpuset u)
        (h.world.asked u) = match findAllocation response.workloadAllocations u with
          | none => h.world.asked u
          | some a => if WorkloadManager.skips h.wm.lastResponse a then h.world.asked u
              else some (getThreadIdsStr a.threadIds) := by
      intro u
      rw [hinst.cgroupCalls, List.foldl_append, askCpuset_releases]
      exact askCpuset_applyIsolation u _ htrue.once
    -- an allocation has been asked for by this call, or was by the one that listed it last
    have hlisted : ∀ u a, findAllocation response.workloadAllocations u = some a →
        Asks ((h.wm.isolate allocator reportCpuEvent call).cgroupCalls.foldl (askCpuset u)
          (h.world.asked u)) a.threadIds := by
      intro u a ha
      rw [hask, ha]
      dsimp only
      split
      · rename_i hskip
        obtain ⟨b, hb, hsame⟩ := skips_iff.mp hskip
        rw [((findAllocation_eq_some_iff htrue.once).mp ha).2] at hb
        exact (hlast u b hb).congr hsame.threadIds
      · exact ⟨a.threadIds, rfl, fun _ => Iff.rfl⟩
    refine ⟨?_, ?_, ?_⟩
    · show DistinctThreads (h.wm.isolate allocator reportCpuEvent call).manager.cpu
      rw [hinst.cpu]
      exact htrue.threads
    · intro u hcl
      have hcl' : Claimed response.cpu u := hinst.cpu ▸ hcl
      show Asks _ (Update.getThreads (h.wm.isolate allocator reportCpuEvent call).manager.cpu u)
      rw [hinst.cpu]
      cases hfind : findAllocation response.workloadAllocations u with
      | some a =>
        obtain ⟨hmem, rfl⟩ := (findAllocation_eq_some_iff htrue.once).mp hfind
        exact (hlisted _ a hfind).congr (htrue.listed a hmem)
      | none =>
        -- not of this call: it is where it was
        obtain ⟨_, hstays⟩ := htrue.unlisted u hcl' (findAllocation_eq_none_iff.mp hfind)
        have hold : Claimed h.wm.cpu u := by
          rw [claimed_iff_getThreads] at hcl' ⊢
          rw [hstays] at hcl'
          exact hcl'
        show Asks ((h.wm.isolate allocator reportCpuEvent call).cgroupCalls.foldl (askCpuset u)
          (h.world.asked u)) _
        rw [hask, hfind, hstays]
        exact hclaimed u hold
    · intro u a ha
      have ha' : (WorkloadManager.getWorkloadAllocationDict
          (h.wm.isolate allocator reportCpuEvent call).manager.lastResponse).get? u = some a := ha
      rw [hinst.lastResponse, getWorkloadAllocationDict_get? htrue.once] at ha'
      exact hlisted u a ha'

/-- A call that is made is no longer due. -/
theorem dueCpuset_advance {h : Host} {c : CgroupCall} {cs : List CgroupCall}
    {wm : WorkloadManager} (hin : h.inCall = some (c :: cs, wm)) (ok : Bool) (u : WorkloadId) :
    dueCpuset { h with world := h.world.perform c ok, inCall := some (cs, wm) } u
      = h.dueCpuset u := by
  unfold dueCpuset due
  rw [hin]
  show cs.foldl (askCpuset u) ((h.world.perform c ok).asked u) = _
  rw [FileWorld.asked_perform]
  rfl

theorem askedAsClaimed_of_same {h h' : Host} (hasked : h.AskedAsClaimed)
    (hwm : h'.due.2 = h.due.2) (hcpuset : ∀ u, h'.dueCpuset u = h.dueCpuset u) :
    h'.AskedAsClaimed := by
  obtain ⟨hthreads, hclaimed, hlast⟩ := hasked
  refine ⟨?_, ?_, ?_⟩
  · rw [hwm]
    exact hthreads
  · intro u
    rw [hwm, hcpuset]
    exact hclaimed u
  · intro u a
    rw [hwm, hcpuset]
    exact hlast u a

/-- **What is asked for stays what is claimed**, whatever happens next. -/
theorem askedAsClaimed_step (htruth : allocator.IsTruthful) (h : Host) (e : HostEvent Rng)
    (hasked : h.AskedAsClaimed) : (h.step allocator reportCpuEvent e).AskedAsClaimed := by
  rcases h.step_cases allocator reportCpuEvent e with ⟨hs, _⟩ | ⟨call, rfl, hin, hs⟩
    | ⟨ok, wm, rfl, hin, hs⟩ | ⟨ok, c, cs, wm, rfl, hin, hs⟩ | ⟨i, ok, rfl, hs⟩
  · rw [hs]
    exact hasked
  · rw [hs]
    exact askedAsClaimed_isolate htruth hasked hin call
  · -- the call ends and leaves the state that was due
    rw [hs]
    refine askedAsClaimed_of_same hasked ?_ ?_
    · unfold due
      rw [hin]
      rfl
    · intro u
      unfold dueCpuset due
      rw [hin]
      rfl
  · rw [hs]
    refine askedAsClaimed_of_same hasked ?_ (dueCpuset_advance hin ok)
    unfold due
    rw [hin]
    rfl
  · rw [hs]
    refine askedAsClaimed_of_same hasked rfl ?_
    intro u
    unfold dueCpuset
    show h.due.1.foldl (askCpuset u) ((h.world.complete i ok).asked u) = _
    rw [FileWorld.asked_complete]

end

end Host

end TitusIsolate
