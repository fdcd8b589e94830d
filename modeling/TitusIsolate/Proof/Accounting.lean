import TitusIsolate.Lib.Run
import TitusIsolate.Model.Config
import TitusIsolate.Proof.Greedy
import TitusIsolate.Proof.Isolate
import TitusIsolate.Proof.Naive

/-!
# The books of the workload manager

Greedy and Naive keep one promise each: Greedy gives every workload the threads it
asks for or raises, Naive gives it that many or all there are. Naive's promise rests
on the CPU it is handed, whose placed workloads it leaves alone, so it is an invariant
of the manager and not a property of one call. `Promise` is what the two have in
common, and `Accounts` what any allocator that keeps a promise makes of a run.
-/

namespace TitusIsolate

/-- The threads a workload is given: of `n` threads, when it asks for `count`. -/
abbrev Want := Int → Nat → Int

/-- Greedy gives what is asked for. -/
def wantAll : Want := fun count _ => count

/-- Naive gives what there is. -/
def wantAvailable : Want := fun count n => min count n

/-- Every workload that has claims has what it is to be given. -/
def Settled (want : Want) (cpu : Cpu) (workloads : WorkloadMap) : Prop :=
  ∀ w ∈ workloads.values, 0 ≤ w.threadCount ∧
    (Claimed cpu w.taskId →
      (holdCount cpu.getThreads w.taskId : Int) = want w.threadCount cpu.getThreads.length)

/-- What an answer owes a settled request. -/
structure Promise (want : Want) (ambient : Ambient Rng) (request : AllocateRequest)
    (response : AllocateResponse) : Prop where
  allocations : response.workloadAllocations
    = getWorkloadAllocations ambient.memoryFlags response.cpu request.workloads.values
  ids : response.cpu.getThreads.map Thread.id = request.cpu.getThreads.map Thread.id
  held : Settled want request.cpu request.workloads → ∀ w ∈ request.workloads.values,
    (holdCount response.cpu.getThreads w.taskId : Int)
      = want w.threadCount request.cpu.getThreads.length
  other : ∀ u, u ∉ request.workloads.keys → ¬ Claimed response.cpu u

/-- The allocator keeps a promise whenever it answers. -/
def CpuAllocator.Keeps {Rng : Type} (allocator : CpuAllocator Rng) (want : Want) : Prop :=
  ∀ ambient request response, (allocator.isolate ambient request).result = .ok response →
    Promise want ambient request response

section

variable {Rng : Type}

theorem greedy_keeps : (greedyCpuAllocator Rng).Keeps wantAll := by
  intro ambient request response h
  have hanswer := greedy_answer h
  exact
    { allocations := hanswer.allocations
      ids := hanswer.ids
      held := fun _ w hw => hanswer.placed w hw
      other := by
        intro u hu hcl
        have hzero := hanswer.other u hu
        rw [claimed_iff] at hcl
        omega }

theorem naive_keeps (random : RandomSource Rng) : (naiveCpuAllocator random).Keeps wantAvailable := by
  intro ambient request response h
  obtain ⟨response', hok, hanswer⟩ := naive_answer random ambient request
  rw [hok] at h
  obtain rfl := Except.ok.inj h
  exact
    { allocations := hanswer.allocations
      ids := hanswer.ids
      held := by
        intro hsettled w hw
        by_cases hcl : Claimed request.cpu w.taskId
        · have hmem : w.taskId ∈ request.workloads.keys := WorkloadMap.mem_keys_iff.mpr ⟨w, hw, rfl⟩
          rw [holdCount_of_getThreads (hanswer.kept _ hmem hcl), (hsettled w hw).2 hcl]
        · exact hanswer.placed w hw hcl (hsettled w hw).1
      other := hanswer.other }

end

/-! ## The invariant -/

/-- The state of a manager whose workloads ask for fixed counts. -/
structure Accounts (want : Want) (count : WorkloadId → Int) (ids : List Nat)
    (wm : WorkloadManager) : Prop where
  threadIds : wm.cpu.getThreads.map Thread.id = ids
  counts : ∀ w ∈ wm.workloads.values, w.threadCount = count w.taskId
  held : ∀ w ∈ wm.workloads.values,
    (holdCount wm.cpu.getThreads w.taskId : Int) = want w.threadCount ids.length
  other : ∀ u, u ∉ wm.workloads.keys → ¬ Claimed wm.cpu u
  ledger : ∀ response, wm.lastResponse = some response → ∃ flags,
    response.workloadAllocations = getWorkloadAllocations flags wm.cpu wm.workloads.values

section

variable {Rng : Type} {want : Want} {count : WorkloadId → Int} {ids : List Nat}

theorem Accounts.init (want : Want) (count : WorkloadId → Int) (instanceId : Option String)
    {cpu : Cpu} (hclear : ∀ u, ¬ Claimed cpu u) :
    Accounts want count (cpu.getThreads.map Thread.id) (WorkloadManager.init instanceId cpu) where
  threadIds := rfl
  counts := by intro w hw; exact absurd hw (by simp [WorkloadManager.init])
  held := by intro w hw; exact absurd hw (by simp [WorkloadManager.init])
  other := fun u _ => hclear u
  ledger := by intro response h; exact absurd h (by simp [WorkloadManager.init])

variable {allocator : CpuAllocator Rng}
  {reportCpuEvent : Ambient Rng → AllocateRequest → AllocateResponse → Except PyError Unit}

/-- **One call keeps the books**, whether it goes through or fails. -/
theorem Accounts.step (hkeeps : allocator.Keeps want) (hnn : ∀ u, 0 ≤ count u)
    {wm : WorkloadManager} {call : IsolateCall Rng}
    (hadds : ∀ w ∈ call.adds, w.threadCount = count w.taskId) (h : Accounts want count ids wm) :
    Accounts want count ids (wm.step allocator reportCpuEvent call) := by
  unfold WorkloadManager.step
  cases hres : (allocator.isolate call.ambient (wm.requestFor call)).result with
  | error e =>
    rw [isolate_of_error hres]
    exact ⟨h.threadIds, h.counts, h.held, h.other, h.ledger⟩
  | ok response =>
    have hinst := isolate_of_ok reportCpuEvent hres
    have hpromise := hkeeps _ _ _ hres
    have hlen : wm.cpu.getThreads.length = ids.length := by
      rw [← h.threadIds, List.length_map]
    have hcounts : ∀ w ∈ (wm.newWorkloads call.adds call.removes).values,
        w.threadCount = count w.taskId := by
      intro w hw
      rcases mem_values_newWorkloads hw with hw | hw
      · exact hadds w hw
      · exact h.counts w hw
    -- the request is settled: who has claims was in the map, asking for the same
    have hsettled : Settled want wm.cpu (wm.newWorkloads call.adds call.removes) := by
      intro w hw
      refine ⟨by rw [hcounts w hw]; exact hnn _, ?_⟩
      intro hcl
      have hkey : w.taskId ∈ wm.workloads.keys := by
        by_contra hno
        exact h.other _ hno hcl
      obtain ⟨v, hv, hid⟩ := WorkloadMap.mem_keys_iff.mp hkey
      rw [hlen, ← hid, h.held v hv, h.counts v hv, hcounts w hw, hid]
    exact
      { threadIds := by rw [hinst.cpu, hpromise.ids]; exact h.threadIds
        counts := by rw [hinst.workloads]; exact hcounts
        held := by
          rw [hinst.workloads, hinst.cpu]
          intro w hw
          rw [hpromise.held hsettled w hw, ← hlen]
          rfl
        other := by
          rw [hinst.workloads, hinst.cpu]
          exact hpromise.other
        ledger := by
          intro r hr
          rw [hinst.lastResponse] at hr
          obtain rfl := Option.some.inj hr
          rw [hinst.workloads, hinst.cpu]
          exact ⟨_, hpromise.allocations⟩ }

/-- **The books are kept over any run.** -/
theorem Accounts.run
    (reportCpuEvent : Ambient Rng → AllocateRequest → AllocateResponse → Except PyError Unit)
    (hkeeps : allocator.Keeps want) (hnn : ∀ u, 0 ≤ count u)
    {calls : List (IsolateCall Rng)}
    (hcalls : ∀ call ∈ calls, ∀ w ∈ call.adds, w.threadCount = count w.taskId)
    {wm : WorkloadManager} (h : Accounts want count ids wm) :
    Accounts want count ids (Run.exec (WorkloadManager.step allocator reportCpuEvent) wm calls) := by
  refine Run.exec_of_mem ?_ h
  exact fun wm call hcall hwm => hwm.step hkeeps hnn (hcalls call hcall)

/-- Once a call was answered there is a last response. -/
theorem lastResponse_isSome_step {wm : WorkloadManager} {call : IsolateCall Rng}
    (h : wm.lastResponse.isSome ∨ (wm.isolate allocator reportCpuEvent call).success = true) :
    (wm.step allocator reportCpuEvent call).lastResponse.isSome := by
  unfold WorkloadManager.step
  cases hres : (allocator.isolate call.ambient (wm.requestFor call)).result with
  | error e =>
    rw [isolate_of_error hres] at h ⊢
    rcases h with h | h
    · exact h
    · exact absurd h (by simp)
  | ok response =>
    rw [(isolate_of_ok _ hres).lastResponse]
    rfl

theorem lastResponse_isSome_run {wm : WorkloadManager} {calls : List (IsolateCall Rng)}
    (h : ∃ before call after, calls = before ++ call :: after
      ∧ ((Run.exec (WorkloadManager.step allocator reportCpuEvent) wm before).isolate allocator
          reportCpuEvent call).success = true) :
    (Run.exec (WorkloadManager.step allocator reportCpuEvent) wm calls).lastResponse.isSome := by
  obtain ⟨before, call, after, rfl, hsuccess⟩ := h
  rw [Run.exec_append, Run.exec_cons]
  -- from the successful call on, every call keeps or replaces the response
  have hthen := lastResponse_isSome_step (Or.inr hsuccess)
  exact Run.exec_invariant (I := fun wm : WorkloadManager => wm.lastResponse.isSome = true)
    (fun _ _ hs => lastResponse_isSome_step (Or.inl hs)) hthen after

end

/-- Under Greedy no thread is ever shared. -/
theorem greedy_exclusive_run {Rng : Type}
    {reportCpuEvent : Ambient Rng → AllocateRequest → AllocateResponse → Except PyError Unit}
    {wm : WorkloadManager} (h : Exclusive wm.cpu.getThreads) (calls : List (IsolateCall Rng)) :
    Exclusive (Run.exec (WorkloadManager.step (greedyCpuAllocator Rng) reportCpuEvent) wm
      calls).cpu.getThreads := by
  refine Run.exec_invariant (I := fun wm : WorkloadManager => Exclusive wm.cpu.getThreads) ?_ h calls
  intro wm call hwm
  unfold WorkloadManager.step
  cases hres : ((greedyCpuAllocator Rng).isolate call.ambient (wm.requestFor call)).result with
  | error e =>
    rw [isolate_of_error hres]
    exact hwm
  | ok response =>
    rw [(isolate_of_ok _ hres).cpu]
    exact (greedy_answer hres).exclusive

/-! ## What the books say -/

/-- The last response of a manager, against its CPU and its map. -/
structure Ledger (wm : WorkloadManager) (response : AllocateResponse) : Prop where
  once : (response.workloadAllocations.map WorkloadAllocateResponse.workloadId).Nodup
  listed : ∀ u, u ∈ response.workloadAllocations.map WorkloadAllocateResponse.workloadId
    ↔ ∃ w ∈ wm.workloads.values, w.taskId = u ∧ 0 < w.threadCount
  amounts : ∀ a ∈ response.workloadAllocations, ∀ w ∈ wm.workloads.values,
    w.taskId = a.workloadId →
      a.threadIds = Update.getThreads wm.cpu w.taskId
        ∧ a.cpuQuota = 100000 * w.threadCount ∧ a.cpuShares = 100 * w.threadCount

/-- A manager that runs on Greedy or Naive, on a CPU of `n` threads. -/
structure Booked (kind : AllocatorKind) (n : Nat) (wm : WorkloadManager) : Prop where
  claimed : ∀ u, Claimed wm.cpu u ↔ ∃ w ∈ wm.workloads.values, w.taskId = u ∧ 0 < w.threadCount
  greedy : kind = .greedy → Exclusive wm.cpu.getThreads
    ∧ ∀ w ∈ wm.workloads.values, 0 < w.threadCount →
        (holdCount wm.cpu.getThreads w.taskId : Int) = w.threadCount
  naive : kind = .naive → ∀ w ∈ wm.workloads.values, 0 < w.threadCount →
    (holdCount wm.cpu.getThreads w.taskId : Int) = min w.threadCount n
  /-- A workload's threads are distinct ids where the CPU's are. -/
  distinct : (wm.cpu.getThreads.map Thread.id).Nodup → ∀ u, (Update.getThreads wm.cpu u).Nodup
  ledger : ∀ response, wm.lastResponse = some response → Ledger wm response

section

variable {want : Want} {count : WorkloadId → Int} {ids : List Nat} {wm : WorkloadManager}

theorem Accounts.claimed (h : Accounts want count ids wm)
    (hwant : ∀ c, 0 < want c ids.length ↔ 0 < c) (u : WorkloadId) :
    Claimed wm.cpu u ↔ ∃ w ∈ wm.workloads.values, w.taskId = u ∧ 0 < w.threadCount := by
  refine ⟨?_, ?_⟩
  · intro hcl
    have hkey : u ∈ wm.workloads.keys := by
      by_contra hno
      exact h.other _ hno hcl
    obtain ⟨w, hw, rfl⟩ := WorkloadMap.mem_keys_iff.mp hkey
    have hheld := h.held w hw
    rw [claimed_iff] at hcl
    exact ⟨w, hw, rfl, (hwant _).mp (by omega)⟩
  · intro hx
    obtain ⟨w, hw, rfl, hpos⟩ := hx
    have hheld := h.held w hw
    have := (hwant _).mpr hpos
    rw [claimed_iff]
    omega

/-- The last response lists the workloads that ask for a thread, with what they have. -/
theorem Accounts.ledger_spec (h : Accounts want count ids wm)
    (hwant : ∀ c, 0 < want c ids.length ↔ 0 < c) {response : AllocateResponse}
    (hlast : wm.lastResponse = some response) : Ledger wm response := by
  obtain ⟨flags, halloc⟩ := h.ledger response hlast
  -- a response leaves out the workloads without a thread
  have hids : response.workloadAllocations.map WorkloadAllocateResponse.workloadId
      = (wm.workloads.values.filter (fun w => Update.getThreads wm.cpu w.taskId ≠ [])).map
          Workload.taskId := by
    rw [halloc, getWorkloadAllocations_eq, List.map_map]
    rfl
  refine ⟨?_, ?_, ?_⟩
  · rw [hids]
    exact wm.workloads.values_taskId_nodup.sublist (List.filter_sublist.map _)
  · intro u
    rw [hids, ← h.claimed hwant]
    simp only [List.mem_map, List.mem_filter, ne_eq, decide_eq_true_eq]
    refine ⟨?_, ?_⟩
    · intro hx
      obtain ⟨w, ⟨_, hne⟩, rfl⟩ := hx
      exact claimed_iff_getThreads.mpr hne
    · intro hcl
      obtain ⟨w, hw, rfl, _⟩ := (h.claimed hwant u).mp hcl
      exact ⟨w, ⟨hw, claimed_iff_getThreads.mp hcl⟩, rfl⟩
  · intro a ha w hw hid
    rw [halloc, mem_getWorkloadAllocations] at ha
    obtain ⟨v, hv, _, rfl⟩ := ha
    have hvw : v = w := List.inj_on_of_nodup_map wm.workloads.values_taskId_nodup hv hw hid.symm
    subst hvw
    refine ⟨rfl, ?_, ?_⟩
    · exact Int.mul_comm _ _
    · exact Int.mul_comm _ _

theorem getThreads_nodup {cpu : Cpu} (h : (cpu.getThreads.map Thread.id).Nodup) (u : WorkloadId) :
    (Update.getThreads cpu u).Nodup :=
  h.sublist (List.filter_sublist.map _)

end

section

variable {Rng : Type} (random : RandomSource Rng)
  (reportCpuEvent : Ambient Rng → AllocateRequest → AllocateResponse → Except PyError Unit)
  (instanceId : Option String) {cpu : Cpu} (count : WorkloadId → Int)
  {calls : List (IsolateCall Rng)}

/--
**The invariant of the workload manager.** Under Greedy or Naive, started on an
unclaimed CPU and with a fixed count for each task id, every state reached has its
CPU, its map and its last response in agreement.
-/
theorem reachable_booked {kind : AllocatorKind} (hkind : kind ≠ .noop)
    (hclear : ∀ u, ¬ Claimed cpu u) (hnn : ∀ u, 0 ≤ count u)
    (hcalls : ∀ call ∈ calls, ∀ w ∈ call.adds, w.threadCount = count w.taskId) :
    Booked kind cpu.getThreads.length
        (Run.exec (WorkloadManager.step (kind.build random) reportCpuEvent)
          (WorkloadManager.init instanceId cpu) calls)
      ∧ ((∃ before call after, calls = before ++ call :: after
            ∧ ((Run.exec (WorkloadManager.step (kind.build random) reportCpuEvent)
                (WorkloadManager.init instanceId cpu) before).isolate (kind.build random)
                reportCpuEvent call).success = true) →
          (Run.exec (WorkloadManager.step (kind.build random) reportCpuEvent)
            (WorkloadManager.init instanceId cpu) calls).lastResponse.isSome) := by
  refine ⟨?_, lastResponse_isSome_run⟩
  have hlen : (cpu.getThreads.map Thread.id).length = cpu.getThreads.length := List.length_map _
  have hpos : 0 < cpu.getThreads.length := List.length_pos_of_ne_nil cpu.getThreads_ne_nil
  cases kind with
  | noop => exact absurd rfl hkind
  | greedy =>
    have hacc := (Accounts.init wantAll count instanceId hclear).run reportCpuEvent
      greedy_keeps hnn hcalls
    have hwant : ∀ c, 0 < wantAll c (cpu.getThreads.map Thread.id).length ↔ 0 < c :=
      fun _ => Iff.rfl
    have hex : Exclusive (WorkloadManager.init instanceId cpu).cpu.getThreads := by
      intro t ht
      have hnil : t.workloadIds = [] :=
        List.eq_nil_iff_forall_not_mem.mpr (fun u hu => hclear u ⟨t, ht, hu⟩)
      rw [hnil]
      exact Nat.zero_le _
    exact
      { claimed := hacc.claimed hwant
        greedy := fun _ => ⟨greedy_exclusive_run hex calls, fun w hw _ => hacc.held w hw⟩
        naive := fun h => absurd h (by simp)
        distinct := getThreads_nodup
        ledger := fun _ hr => hacc.ledger_spec hwant hr }
  | naive =>
    have hacc := (Accounts.init wantAvailable count instanceId hclear).run reportCpuEvent
      (naive_keeps random) hnn hcalls
    have hwant : ∀ c, 0 < wantAvailable c (cpu.getThreads.map Thread.id).length ↔ 0 < c := by
      intro c
      unfold wantAvailable
      omega
    exact
      { claimed := hacc.claimed hwant
        greedy := fun h => absurd h (by simp)
        naive := by
          intro _ w hw _
          rw [← hlen]
          exact hacc.held w hw
        distinct := getThreads_nodup
        ledger := fun _ hr => hacc.ledger_spec hwant hr }

end

/-- `a` is placed, `b` asks for too much, and `a` is removed and added again. -/
def placeRefuseReplace : List (IsolateCall Unit) :=
  [⟨Ambient.unset (), [⟨"a", "job", 1⟩], []⟩, ⟨Ambient.unset (), [⟨"b", "job", 3⟩], ["a"]⟩,
    ⟨Ambient.unset (), [⟨"a", "job", 1⟩], ["a", "c"]⟩]

theorem reachable_booked_greedy :
    Booked .greedy 2 (Run.exec (WorkloadManager.step
        (AllocatorKind.greedy.build RandomSource.reversing) (fun _ _ _ => .ok ()))
      (WorkloadManager.init none Config.twoThreads) placeRefuseReplace) :=
  (reachable_booked RandomSource.reversing (fun _ _ _ => .ok ()) none
    (fun u => if u = "a" then 1 else 3) (by decide) twoThreads_unclaimed
    (by intro u; by_cases h : u = "a" <;> simp [h]) (by decide)).1

end TitusIsolate
