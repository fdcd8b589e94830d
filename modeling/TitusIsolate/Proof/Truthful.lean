import TitusIsolate.Allocate.RemoteProcess
import TitusIsolate.Isolate.Configured
import TitusIsolate.Proof.Fallback
import TitusIsolate.Proof.LastResponse
import TitusIsolate.Proof.RemoteDecode

/-!
# Answers can be taken at their word

The workload manager writes what an answer lists and keeps the CPU it comes with, and never
compares the two. It need not: whatever allocators are configured, an answer lists each
workload once, with the threads it claims, and leaves out a claimed workload only when the
call does not place it and it stays where it was.
-/

namespace TitusIsolate

open GrpcRemoteIsolationAllocator Raising

/-! ## The contract -/

/-- The threads of the CPU have distinct ids. -/
def DistinctThreads (cpu : Cpu) : Prop := (cpu.getThreads.map Thread.id).Nodup

/-- The answer tells the truth about the CPU it comes with: who is listed is listed with the threads
it has there. -/
structure Truthful (request : AllocateRequest) (response : AllocateResponse) : Prop where
  threads : DistinctThreads response.cpu
  once : ListsOnce response.workloadAllocations
  listed : ∀ a ∈ response.workloadAllocations,
    ∀ i, i ∈ a.threadIds ↔ i ∈ Update.getThreads response.cpu a.workloadId
  /-- A workload that is claimed and not listed is none of the call's, and stays. -/
  unlisted : ∀ u, Claimed response.cpu u →
    (∀ a ∈ response.workloadAllocations, a.workloadId ≠ u) →
      u ∉ request.workloads.keys
        ∧ Update.getThreads response.cpu u = Update.getThreads request.cpu u

/-- What an allocator that raises makes of the request it was handed. -/
structure Leaves (request left : AllocateRequest) : Prop where
  threads : DistinctThreads left.cpu
  workloads : left.workloads = request.workloads
  other : ∀ u, u ∉ request.workloads.keys → Claimed left.cpu u →
    Update.getThreads left.cpu u = Update.getThreads request.cpu u

/-- Whatever the allocator answers is truthful, and where it raises it has left the request
in order. -/
structure CpuAllocator.IsTruthful {Rng : Type} (allocator : CpuAllocator Rng) : Prop where
  answer : ∀ ambient request response, DistinctThreads request.cpu →
    (allocator.isolate ambient request).result = .ok response → Truthful request response
  left : ∀ ambient request e, DistinctThreads request.cpu →
    (allocator.isolate ambient request).result = .error e →
      Leaves request (allocator.isolate ambient request).request

/-- An answer to what was left of a request is one to the request. -/
theorem Truthful.of_left {request left : AllocateRequest} {response : AllocateResponse}
    (hleft : Leaves request left) (h : Truthful left response) : Truthful request response where
  threads := h.threads
  once := h.once
  listed := h.listed
  unlisted := by
    intro u hcl hnone
    obtain ⟨hkey, hsame⟩ := h.unlisted u hcl hnone
    rw [hleft.workloads] at hkey
    refine ⟨hkey, hsame.trans (hleft.other u hkey ?_)⟩
    rw [claimed_iff_getThreads, ← hsame]
    exact claimed_iff_getThreads.mp hcl

theorem Leaves.trans {request left left' : AllocateRequest} (h : Leaves request left)
    (h' : Leaves left left') : Leaves request left' where
  threads := h'.threads
  workloads := h'.workloads.trans h.workloads
  other := by
    intro u hkey hcl
    have hsame := h'.other u (by rw [h.workloads]; exact hkey) hcl
    refine hsame.trans (h.other u hkey ?_)
    rw [claimed_iff_getThreads, ← hsame]
    exact claimed_iff_getThreads.mp hcl

/-! ## The built-in allocators -/

section

variable {Rng : Type}

/-- Allocations read off the CPU they come with are truthful about the call's workloads. -/
theorem truthful_of_allocations {flags : MemoryFlags} {request : AllocateRequest}
    {response : AllocateResponse} (hthreads : DistinctThreads response.cpu)
    (hallocs : response.workloadAllocations
      = getWorkloadAllocations flags response.cpu request.workloads.values)
    (hother : ∀ u, u ∉ request.workloads.keys → Claimed response.cpu u →
      Update.getThreads response.cpu u = Update.getThreads request.cpu u) :
    Truthful request response where
  threads := hthreads
  once := by
    rw [hallocs]
    exact getWorkloadAllocations_listsOnce _ _ _
  listed := by
    intro a ha i
    rw [hallocs, mem_getWorkloadAllocations] at ha
    obtain ⟨w, _, _, rfl⟩ := ha
    rfl
  unlisted := by
    intro u hcl hnone
    have hkey : u ∉ request.workloads.keys := by
      intro hkey
      obtain ⟨w, hw, rfl⟩ := WorkloadMap.mem_keys_iff.mp hkey
      refine hnone (allocationOf flags response.cpu w) ?_ rfl
      rw [hallocs, mem_getWorkloadAllocations]
      exact ⟨w, hw, claimed_iff_getThreads.mp hcl, rfl⟩
    exact ⟨hkey, hother u hkey hcl⟩

theorem greedy_truthful : (greedyCpuAllocator Rng).IsTruthful where
  answer ambient request response hthreads h := by
    have hanswer := greedy_answer h
    refine truthful_of_allocations ?_ hanswer.allocations ?_
    · unfold DistinctThreads
      rw [hanswer.ids]
      exact hthreads
    · intro u hkey hcl
      have hzero := hanswer.other u hkey
      rw [claimed_iff] at hcl
      omega
  left ambient request e hthreads h := by
    -- cleared, then filled with the call's own workloads until it raised
    obtain ⟨hworkloads, hother⟩ := greedy_request ambient request
    obtain ⟨cpu, hreq, _, hplaced, _⟩ := greedy_result ambient request
    refine ⟨?_, hworkloads, ?_⟩
    · unfold DistinctThreads
      rw [hreq]
      dsimp only
      rw [hplaced.ids, Cpu.getThreads_clear, ids_clear]
      exact hthreads
    · intro u hkey hcl
      have hzero := hother u hkey
      rw [claimed_iff] at hcl
      omega

theorem naive_truthful (random : RandomSource Rng) : (naiveCpuAllocator random).IsTruthful where
  answer ambient request response hthreads h := by
    obtain ⟨response', hok, hanswer⟩ := naive_answer random ambient request
    rw [hok] at h
    obtain rfl := Except.ok.inj h
    refine truthful_of_allocations ?_ hanswer.allocations ?_
    · unfold DistinctThreads
      rw [hanswer.ids]
      exact hthreads
    · exact fun u hkey hcl => absurd hcl (hanswer.other u hkey)
  left ambient request e _ h := by
    obtain ⟨response', hok, _⟩ := naive_answer random ambient request
    rw [hok] at h
    exact absurd h (by simp)

theorem noop_truthful : (noopCpuAllocator Rng).IsTruthful where
  answer ambient request response hthreads h := by
    obtain rfl := Except.ok.inj h
    exact truthful_of_allocations hthreads rfl (fun _ _ _ => rfl)
  left ambient request e _ h := absurd h (by simp [noopCpuAllocator])

/-- **A fallback keeps the contract of its allocators**: what the primary leaves of the
request does no harm. -/
theorem fallback_truthful {fallbackQueueDepth : Int} {primary secondary : CpuAllocator Rng}
    (hp : primary.IsTruthful) (hs : secondary.IsTruthful) :
    (fallbackCpuAllocator fallbackQueueDepth primary secondary).IsTruthful where
  answer ambient request response hthreads h := by
    rcases fallback_ok_cases h with hprimary | hsecondary | ⟨e, herr, hsecondary⟩
    · exact hp.answer _ _ _ hthreads hprimary
    · exact hs.answer _ _ _ hthreads hsecondary
    · have hleft := hp.left _ _ _ hthreads herr
      exact (hs.answer _ _ _ hleft.threads hsecondary).of_left hleft
  left ambient request e hthreads h := by
    cases hdepth : FallbackCpuAllocator.shouldFallbackImmediately fallbackQueueDepth ambient with
    | error e' =>
      rw [fallback_immediate hdepth] at h ⊢
      exact hs.left _ _ _ hthreads h
    | ok _ =>
      cases hprimary : (primary.isolate ambient request).result with
      | ok response =>
        rw [fallback_primary hdepth hprimary, hprimary] at h
        exact absurd h (by simp)
      | error e' =>
        rw [fallback_secondary hdepth hprimary] at h ⊢
        have hleft := hp.left _ _ _ hthreads hprimary
        exact hleft.trans (hs.left _ _ _ hleft.threads h)

end

/-! ## The remote allocator -/

section

variable {Rng Constraints : Type} {a : GrpcRemoteIsolationAllocator}

/-- What is read back lists the keys of the answer's cpusets, in their order. -/
theorem deser_lists {ambient : Ambient Rng} {response : Pb.IsolationResponse}
    {decoded : AllocateResponse} (h : a.deser ambient response = .ok decoded) :
    decoded.workloadAllocations.map WorkloadAllocateResponse.workloadId
      = response.cpusets.entries.map Prod.fst := by
  obtain ⟨⟨wars, id2workloads⟩, hloop, hdecoded⟩ := bind_eq_ok.mp h
  obtain ⟨_, hcarries⟩ := deserCpusets_carries hloop
  obtain rfl := (Except.ok.inj hdecoded).symm
  refine List.forall₂_eq_eq_eq ▸ ?_
  exact (List.forall₂_map_left_iff.mpr (List.forall₂_map_right_iff.mpr
    (hcarries.imp (fun _ _ hc => hc.workloadId))))

theorem deser_listsOnce {ambient : Ambient Rng} {response : Pb.IsolationResponse}
    {decoded : AllocateResponse} (h : a.deser ambient response = .ok decoded) :
    ListsOnce decoded.workloadAllocations := by
  unfold ListsOnce
  rw [deser_lists h]
  exact response.cpusets.nodup

/-- **Whatever the service answers**, what is read back is truthful. -/
theorem deser_truthful {P C T : Nat} (hmachine : Config.getCpu P C T = .ok a.emptyCpu)
    {ambient : Ambient Rng} {request : AllocateRequest} {response : Pb.IsolationResponse}
    {decoded : AllocateResponse} (h : a.deser ambient response = .ok decoded) :
    Truthful request decoded := by
  obtain ⟨hP, hC, hT⟩ := Config.getCpu_pos hmachine
  have hwritten := deser_written (unclaimed_getCpu hP hC hT hmachine) h
  have hkeys := deser_lists h
  have honce := deser_listsOnce h
  obtain ⟨⟨wars, id2workloads⟩, hloop, hdecoded⟩ := bind_eq_ok.mp h
  obtain rfl := (Except.ok.inj hdecoded).symm
  rw [allocateResponse_workloadAllocations] at hkeys
  refine ⟨?_, honce, ?_, ?_⟩
  · unfold DistinctThreads
    rw [allocateResponse_cpu, Cpu.map_getThreads_mapThreadsIdx (fun _ => claimWorkloads_id _)]
    exact Config.getCpu_ids_nodup hP hC hT hmachine
  · -- the one allocation under its id is the one the contract of the loop speaks of
    intro war hwar
    have hkey : war.workloadId ∈ response.cpusets.keys := by
      have hmem : war.workloadId ∈ wars.map WorkloadAllocateResponse.workloadId :=
        List.mem_map_of_mem hwar
      rw [hkeys] at hmem
      exact hmem
    obtain ⟨cpuset, hget⟩ := OrderedDict.mem_keys_iff.mp hkey
    obtain ⟨war', hone, _, _, _, _, _, hids⟩ := hwritten.allocations _ _ hget
    have hmem : war ∈ wars.filter (fun b => b.workloadId = war.workloadId) :=
      List.mem_filter.mpr ⟨hwar, decide_eq_true rfl⟩
    rw [allocateResponse_workloadAllocations] at hone
    rw [hone, List.mem_singleton] at hmem
    rw [← hmem] at hids
    exact hids
  · -- a claim is read from a cpuset, and that has its allocation
    intro u hcl hnone
    obtain ⟨cpuset, hget⟩ := OrderedDict.mem_keys_iff.mp (hwritten.claimants u hcl)
    obtain ⟨war, hone, _⟩ := hwritten.allocations u cpuset hget
    have hmem : war ∈ [war] := List.mem_singleton_self war
    rw [← hone] at hmem
    obtain ⟨hwar, hid⟩ := List.mem_filter.mp hmem
    exact absurd (of_decide_eq_true hid) (hnone war hwar)

theorem remote_truthful {P C T : Nat} (hmachine : Config.getCpu P C T = .ok a.emptyCpu)
    (service : RemoteService Rng Constraints) : (a.toCpuAllocator service).IsTruthful where
  answer ambient request response _ h := by
    obtain ⟨req, _, h⟩ := bind_eq_ok.mp h
    obtain ⟨answer, _, h⟩ := bind_eq_ok.mp h
    exact deser_truthful hmachine h
  left ambient request e hthreads _ := ⟨hthreads, rfl, fun _ _ _ => rfl⟩

/-- What the three built-in allocators and the remote one have, the allocator of any name has. -/
theorem getAllocator_rule {P : CpuAllocator Rng → Prop} {random : RandomSource Rng}
    {remote : Except PyError (CpuAllocator Rng)} (hgreedy : P (greedyCpuAllocator Rng))
    (hnaive : P (naiveCpuAllocator random)) (hnoop : P (noopCpuAllocator Rng))
    (hremote : ∀ b, remote = .ok b → P b) {name : Option String} {b : CpuAllocator Rng}
    (h : getAllocator random remote name = .ok b) : P b := by
  unfold getAllocator at h
  cases hclass : AllocatorClass.ofConfig name with
  | greedy =>
    rw [hclass] at h
    obtain rfl := Except.ok.inj h
    exact hgreedy
  | naive =>
    rw [hclass] at h
    obtain rfl := Except.ok.inj h
    exact hnaive
  | noop =>
    rw [hclass] at h
    obtain rfl := Except.ok.inj h
    exact hnoop
  | grpcRemote =>
    rw [hclass] at h
    exact hremote b h

/-- **What a fallback keeps of its allocators**, the allocator that is configured has. -/
theorem getFallbackAllocator_rule {P : CpuAllocator Rng → Prop} {random : RandomSource Rng}
    {remote : Except PyError (CpuAllocator Rng)} {fallbackQueueDepth : Int}
    {configManager : ConfigManager String} (hgreedy : P (greedyCpuAllocator Rng))
    (hnaive : P (naiveCpuAllocator random)) (hnoop : P (noopCpuAllocator Rng))
    (hremote : ∀ b, remote = .ok b → P b)
    (hfallback : ∀ primary secondary, P primary → P secondary →
      P (fallbackCpuAllocator fallbackQueueDepth primary secondary))
    {allocator : CpuAllocator Rng}
    (h : getFallbackAllocator random remote fallbackQueueDepth configManager = .ok allocator) :
    P allocator := by
  obtain ⟨primary, hprimary, h⟩ := bind_eq_ok.mp h
  obtain ⟨secondary, hsecondary, h⟩ := bind_eq_ok.mp h
  obtain rfl := Except.ok.inj h
  exact hfallback _ _ (getAllocator_rule hgreedy hnaive hnoop hremote hprimary)
    (getAllocator_rule hgreedy hnaive hnoop hremote hsecondary)

/-- **Every allocator that can be configured is truthful**, whatever the service answers. -/
theorem configured_truthful {P C T : Nat} {endpoint : Option String}
    {instanceCtx : Pb.InstanceContext} {sysCoreIds sysCoresUsage sysCoresHardIsolate : Option String}
    {service : RemoteService Rng Constraints} {random : RandomSource Rng} {fallbackQueueDepth : Int}
    {configManager : ConfigManager String} {allocator : CpuAllocator Rng}
    (h : getFallbackAllocator random
      ((GrpcRemoteIsolationAllocator.init endpoint instanceCtx P C T sysCoreIds sysCoresUsage
        sysCoresHardIsolate).map (fun a => a.toCpuAllocator service))
      fallbackQueueDepth configManager = .ok allocator) : allocator.IsTruthful := by
  have hremote : ∀ b, (GrpcRemoteIsolationAllocator.init endpoint instanceCtx P C T sysCoreIds
      sysCoresUsage sysCoresHardIsolate).map (fun a => a.toCpuAllocator service) = .ok b →
      b.IsTruthful := by
    intro b hb
    obtain ⟨a, ha, rfl⟩ := map_eq_ok.mp hb
    exact remote_truthful (getCpu_of_init ha) service
  exact getFallbackAllocator_rule greedy_truthful (naive_truthful random) noop_truthful hremote
    (fun _ _ => fallback_truthful) h

end

end TitusIsolate
