import TitusIsolate.Lib.Run
import TitusIsolate.Model.Config
import TitusIsolate.Proof.LostWrites
import TitusIsolate.Proof.Truthful

/-!
# Skipping unchanged allocations

`__apply_isolation` takes the last response for a record of what is in the files. It is
one as long as no write is lost. A write that fails is swallowed and the response stands
all the same, so from then on an equal allocation is skipped over files that do not hold
it, and nothing writes them again before the allocation changes.

In every state of a run the files show what the last response asks for, but for the
writes that were lost (`Recorded`), whether that response was written or skipped.
-/

namespace TitusIsolate

/-! ## Files -/

/-- A call and, when it started a thread, the end of that thread leave in the files what
`Files.perform` says. -/
theorem FileWorld.files_perform_complete (s : FileWorld) (c : CgroupCall) (ok : Bool) :
    ((s.perform c ok).complete s.manager.threads.length ok).files = s.files.perform c ok := by
  cases hw : c.write with
  -- a release starts no thread, so there is none at that position
  | none =>
    obtain ⟨u, rfl⟩ := write_eq_none_iff.mp hw
    simp [perform, complete, FileCgroupManager.releaseContainer, Files.perform, CgroupCall.write]
  | some w =>
    rw [perform_of_write hw]
    unfold Files.perform
    rw [hw]
    dsimp only
    by_cases ht : w.file.isThreaded = true
    · -- the new thread is the last one
      rw [if_pos ht, complete]
      simp only [FileCgroupManager.start, List.getElem?_concat_length]
      rw [files_set]
      rfl
    · have hlast : ((s.note w).set s.clock w ok).manager.threads[s.manager.threads.length]?
          = none := by
        rw [threads_set]
        exact List.getElem?_eq_none (Nat.le_refl _)
      rw [if_neg ht, complete, hlast]
      dsimp only
      rw [files_set]
      rfl

/-- The calls of a response write the files of the allocations they do not skip. -/
theorem Files.spares_applied_iff {removes : List WorkloadId}
    {skip : WorkloadAllocateResponse → Bool} {allocs : List WorkloadAllocateResponse}
    (honce : ListsOnce allocs) {a : WorkloadAllocateResponse} (ha : a ∈ allocs) (f : CgroupFile) :
    Spares (removes.map CgroupCall.releaseContainer ++ allocs.flatMap
        (fun a => if skip a then [] else WorkloadManager.allocationCalls a)) a.workloadId f
      ↔ skip a = true := by
  refine ⟨?_, ?_⟩
  · intro hspares
    by_contra hwritten
    have hcall : a.callFor f ∈ WorkloadManager.allocationCalls a :=
      WorkloadAllocateResponse.mem_allocationCalls.mpr ⟨f, rfl⟩
    refine hspares (a.callFor f) (List.mem_append_right _ (List.mem_flatMap.mpr ⟨a, ha, ?_⟩)) _
      (WorkloadAllocateResponse.callFor_write a f) ⟨rfl, rfl⟩
    rw [if_neg hwritten]
    exact hcall
  · intro hskip c hc w hw hown
    rcases List.mem_append.mp hc with hc | hc
    · obtain ⟨u, _, rfl⟩ := List.mem_map.mp hc
      exact absurd hw (by simp [CgroupCall.write])
    · obtain ⟨b, hb, hc⟩ := List.mem_flatMap.mp hc
      split at hc
      · exact List.not_mem_nil hc
      · -- a call for the same workload belongs to the allocation that is skipped
        rename_i hwritten
        obtain ⟨g, rfl⟩ := WorkloadAllocateResponse.mem_allocationCalls.mp hc
        rw [WorkloadAllocateResponse.callFor_write] at hw
        obtain rfl := Option.some.inj hw
        obtain rfl := List.inj_on_of_nodup_map honce ha hb hown.1
        exact hwritten hskip

/-! ## A run -/

/-- A manager, the files its calls have been written to, and which of these files are
without the last write made for them. -/
structure Written where
  wm : WorkloadManager
  files : Files
  lost : WorkloadId → CgroupFile → Prop

/-- A call of `isolate`; `ok n` says how its `n`-th call on the cgroup manager ends. -/
structure WrittenCall (Rng : Type) where
  call : IsolateCall Rng
  ok : Nat → Bool

/-- An allocator whose responses list no workload twice. -/
def CpuAllocator.AnswersOnce {Rng : Type} (allocator : CpuAllocator Rng) : Prop :=
  ∀ ambient request response, (allocator.isolate ambient request).result = .ok response →
    ListsOnce response.workloadAllocations

namespace Written

/-- A new manager over whatever is in the files: it has made no write. -/
def init (instanceId : Option String) (cpu : Cpu) (files : Files) : Written where
  wm := WorkloadManager.init instanceId cpu
  files := files
  lost := fun _ _ => False

/-- The last response lists an equal allocation. -/
def ListedBefore (s : Written) (a : WorkloadAllocateResponse) : Prop :=
  ∃ last b, s.wm.lastResponse = some last ∧ b ∈ last.workloadAllocations ∧ SameAllocation a b

/-- The last response lists no workload twice, and the files show what it asks for, but for
the writes that were lost. -/
def Recorded (s : Written) : Prop :=
  ∀ last, s.wm.lastResponse = some last → ListsOnce last.workloadAllocations
    ∧ ∀ a ∈ last.workloadAllocations, ∀ f, s.files.Tracks s.lost (a.callFor f)

theorem recorded_init (instanceId : Option String) (cpu : Cpu) (files : Files) :
    Recorded (init instanceId cpu files) :=
  fun _ hlast => absurd hlast (by simp [init, WorkloadManager.init])

/-- An allocation is skipped when the last response lists an equal one. -/
theorem skips_iff_listedBefore {s : Written} (h : Recorded s) {a : WorkloadAllocateResponse} :
    WorkloadManager.skips s.wm.lastResponse a = true ↔ s.ListedBefore a := by
  rw [skips_iff]
  cases hlast : s.wm.lastResponse with
  | none =>
    refine ⟨?_, ?_⟩
    · rintro ⟨b, hget, _⟩
      exact absurd hget (by simp [WorkloadManager.getWorkloadAllocationDict])
    · rintro ⟨last, _, hsome, _⟩
      exact absurd (hlast.symm.trans hsome) (by simp)
  | some last =>
    have honce := (h last hlast).1
    rw [getWorkloadAllocationDict_get? honce]
    refine ⟨?_, ?_⟩
    · rintro ⟨b, hfound, hsame⟩
      exact ⟨last, b, hlast, ((findAllocation_eq_some_iff honce).mp hfound).1, hsame⟩
    · rintro ⟨last', b, hlast', hb, hsame⟩
      obtain rfl := Option.some.inj (hlast.symm.trans hlast')
      exact ⟨b, (findAllocation_eq_some_iff honce).mpr ⟨hb, hsame.workloadId⟩, hsame⟩

section

variable {Rng : Type} (allocator : CpuAllocator Rng)
  (reportCpuEvent : Ambient Rng → AllocateRequest → AllocateResponse → Except PyError Unit)

/-- One call, with its writes and what they lose. -/
def step (s : Written) (e : WrittenCall Rng) : Written :=
  let outcome := s.wm.isolate allocator reportCpuEvent e.call
  { wm := outcome.manager
    files := s.files.performAll outcome.cgroupCalls e.ok
    lost := s.files.lostByAll s.lost outcome.cgroupCalls e.ok }

/-- Every write of the call succeeds. -/
def Accepted (s : Written) (e : WrittenCall Rng) : Prop :=
  ∀ n c, (s.wm.isolate allocator reportCpuEvent e.call).cgroupCalls[n]? = some c →
    c.write ≠ none → e.ok n = true

/-- When every write of a call succeeds, the files hold its response afterwards. -/
def HoldsResponse (s : Written) (e : WrittenCall Rng) : Prop :=
  Accepted allocator reportCpuEvent s e →
    ∀ response, (s.wm.isolate allocator reportCpuEvent e.call).response = some response →
      ∀ a ∈ response.workloadAllocations, (s.step allocator reportCpuEvent e).files.Holds a

/-- A call whose writes all succeed is not answered with what the last response listed for
a container that is without one of its writes. -/
def RepeatsNothingLost (s : Written) (e : WrittenCall Rng) : Prop :=
  Accepted allocator reportCpuEvent s e →
    ∀ response, (allocator.isolate e.call.ambient (s.wm.requestFor e.call)).result = .ok response →
      ∀ a ∈ response.workloadAllocations, s.ListedBefore a → ∀ f, ¬ s.lost a.workloadId f

variable {allocator}

/-- **A call keeps the record**, whatever becomes of its writes. -/
theorem recorded_step (honce : allocator.AnswersOnce) (s : Written) (e : WrittenCall Rng)
    (h : Recorded s) : Recorded (s.step allocator reportCpuEvent e) := by
  intro last hlast
  cases hok : (allocator.isolate e.call.ambient (s.wm.requestFor e.call)).result with
  | error err =>
    -- the releases of a call that raises leave the files alone
    unfold step at hlast ⊢
    rw [isolate_of_error hok] at hlast ⊢
    dsimp only
    rw [(Files.performAll_releases s.files s.lost _ _).1,
      (Files.performAll_releases s.files s.lost _ _).2]
    exact h last hlast
  | ok response =>
    have hinst := isolate_of_ok reportCpuEvent hok
    have hstep : (s.step allocator reportCpuEvent e).wm.lastResponse = some response :=
      hinst.lastResponse
    rw [hstep] at hlast
    obtain rfl := Option.some.inj hlast
    have hlists := honce _ _ _ hok
    refine ⟨hlists, ?_⟩
    intro a ha f
    unfold step
    dsimp only
    rw [hinst.cgroupCalls, WorkloadManager.applyIsolation]
    by_cases hskip : WorkloadManager.skips s.wm.lastResponse a = true
    · -- the record of the equal allocation is one of this allocation
      obtain ⟨last, b, hlast, hb, hsame⟩ := (skips_iff_listedBefore h).mp hskip
      have hb := Files.tracks_callFor_iff.mp ((h last hlast).2 b hb f)
      rw [← Files.shows_callFor_iff hsame, hsame.workloadId] at hb
      refine (Files.tracks_callFor_iff.mpr hb).congr ?_
      intro w hw
      rw [WorkloadAllocateResponse.callFor_write] at hw
      obtain rfl := Option.some.inj hw
      exact Files.performAll_spared ((Files.spares_applied_iff hlists ha f).mpr hskip) _ _ _
    · refine Files.tracks_performAll (Files.writesApart_isolate _ _ hlists) _ _ _ _ ?_
      refine List.mem_append_right _ (List.mem_flatMap.mpr ⟨a, ha, ?_⟩)
      rw [if_neg hskip]
      exact WorkloadAllocateResponse.mem_allocationCalls.mpr ⟨f, rfl⟩

/-- The files after a call that was answered and whose writes all succeed. -/
theorem holds_after_iff (honce : allocator.AnswersOnce) {s : Written} {e : WrittenCall Rng}
    (h : Recorded s) (hacc : Accepted allocator reportCpuEvent s e) {response : AllocateResponse}
    (hok : (allocator.isolate e.call.ambient (s.wm.requestFor e.call)).result = .ok response)
    {a : WorkloadAllocateResponse} (ha : a ∈ response.workloadAllocations) :
    (s.step allocator reportCpuEvent e).files.Holds a
      ↔ (s.ListedBefore a → ∀ f, ¬ s.lost a.workloadId f) := by
  have hinst := isolate_of_ok reportCpuEvent hok
  have hlists := honce _ _ _ hok
  have htracks := (recorded_step reportCpuEvent honce s e h response hinst.lastResponse).2 a ha
  -- after writes that succeed a file is without its write when it was and nothing wrote it
  have hlost : ∀ f, (s.step allocator reportCpuEvent e).lost a.workloadId f
      ↔ s.ListedBefore a ∧ s.lost a.workloadId f := by
    intro f
    unfold Accepted at hacc
    unfold step
    dsimp only
    rw [hinst.cgroupCalls, WorkloadManager.applyIsolation] at hacc ⊢
    rw [Files.lostByAll_of_accepted hacc, Files.spares_applied_iff hlists ha,
      skips_iff_listedBefore h]
  rw [Files.holds_iff_shows]
  refine (forall_congr' (fun f => (Files.tracks_callFor_iff.mp (htracks f)).trans
    (not_congr (hlost f)))).trans ?_
  exact ⟨fun hkept hbefore f hf => hkept f ⟨hbefore, hf⟩, fun hkept f hf => hkept hf.1 f hf.2⟩

theorem holdsResponse_iff (honce : allocator.AnswersOnce) {s : Written} (h : Recorded s)
    (e : WrittenCall Rng) :
    HoldsResponse allocator reportCpuEvent s e
      ↔ RepeatsNothingLost allocator reportCpuEvent s e := by
  unfold HoldsResponse RepeatsNothingLost
  refine forall_congr' (fun hacc => ?_)
  cases hok : (allocator.isolate e.call.ambient (s.wm.requestFor e.call)).result with
  | error err =>
    rw [isolate_of_error hok]
    exact ⟨fun _ _ hres => absurd hres (by simp), fun _ _ hres => absurd hres (by simp)⟩
  | ok response =>
    rw [(isolate_of_ok reportCpuEvent hok).answer]
    refine forall_congr' (fun response' => ?_)
    rw [Option.some.injEq, Except.ok.injEq]
    refine forall_congr' (fun hres => forall_congr' (fun a => forall_congr' (fun ha => ?_)))
    subst hres
    exact holds_after_iff reportCpuEvent honce h hacc hok ha

/--
**Skipping is only an optimisation** in exactly the runs in which no call whose writes all
succeed is answered with an allocation the last response listed for a container that is
without one of its writes.
-/
theorem skipping_invisible_iff (honce : allocator.AnswersOnce) (instanceId : Option String)
    (cpu : Cpu) (files : Files) (calls : List (WrittenCall Rng)) :
    Run.EachStep (Written.step allocator reportCpuEvent) (HoldsResponse allocator reportCpuEvent)
        (init instanceId cpu files) calls
      ↔ Run.EachStep (Written.step allocator reportCpuEvent)
        (RepeatsNothingLost allocator reportCpuEvent) (init instanceId cpu files) calls :=
  ⟨Run.eachStep_of_step (fun s e h _ => recorded_step reportCpuEvent honce s e h)
      (fun _ e h => (holdsResponse_iff reportCpuEvent honce h e).mp) (recorded_init _ _ _),
    Run.eachStep_of_step (fun s e h _ => recorded_step reportCpuEvent honce s e h)
      (fun _ e h => (holdsResponse_iff reportCpuEvent honce h e).mpr) (recorded_init _ _ _)⟩

end

/-! ## The allocators that can be configured -/

section

variable {Rng Constraints : Type} (random : RandomSource Rng)

theorem build_answersOnce (kind : AllocatorKind) : (kind.build random).AnswersOnce := by
  intro ambient request response h
  obtain ⟨cpu, rfl⟩ := build_result_ok h
  exact getWorkloadAllocations_listsOnce _ _ _

theorem fallback_answersOnce {fallbackQueueDepth : Int} {primary secondary : CpuAllocator Rng}
    (hp : primary.AnswersOnce) (hs : secondary.AnswersOnce) :
    (fallbackCpuAllocator fallbackQueueDepth primary secondary).AnswersOnce := by
  intro ambient request response h
  rcases fallback_ok_cases h with h | h | ⟨_, _, h⟩
  · exact hp _ _ _ h
  · exact hs _ _ _ h
  · exact hs _ _ _ h

theorem remote_answersOnce (a : GrpcRemoteIsolationAllocator)
    (service : RemoteService Rng Constraints) : (a.toCpuAllocator service).AnswersOnce := by
  intro ambient request response h
  obtain ⟨req, _, h⟩ := Raising.bind_eq_ok.mp h
  obtain ⟨answer, _, h⟩ := Raising.bind_eq_ok.mp h
  exact deser_listsOnce h

/-- **Every allocator that can be configured lists a workload once**, whatever the service
answers. -/
theorem configured_answersOnce {remote : Except PyError GrpcRemoteIsolationAllocator}
    {service : RemoteService Rng Constraints} {fallbackQueueDepth : Int}
    {configManager : ConfigManager String} {allocator : CpuAllocator Rng}
    (h : getFallbackAllocator random (remote.map (fun a => a.toCpuAllocator service))
      fallbackQueueDepth configManager = .ok allocator) : allocator.AnswersOnce := by
  refine getFallbackAllocator_rule (build_answersOnce random .greedy)
    (build_answersOnce random .naive) (build_answersOnce random .noop) ?_
    (fun _ _ => fallback_answersOnce) h
  intro b hb
  obtain ⟨a, _, rfl⟩ := Raising.map_eq_ok.mp hb
  exact remote_answersOnce a service

end

/-! ## A write that fails -/

/-- Workload `a` is placed, with the given outcome of its writes, and a rebalance follows. -/
def placeThenRebalance (ok : Bool) : List (WrittenCall Unit) :=
  [⟨⟨Ambient.unset (), [⟨"a", "job", 1⟩], []⟩, fun _ => ok⟩,
    ⟨⟨Ambient.unset (), [], []⟩, fun _ => true⟩]

/-- A new manager of two threads, over files that were never written. -/
def onTwoThreads : Written := init none Config.twoThreads (fun _ _ => none)

theorem skipping_invisible_iff_accepted :
    Run.EachStep (Written.step (greedyCpuAllocator Unit) (fun _ _ _ => .ok ()))
        (HoldsResponse (greedyCpuAllocator Unit) (fun _ _ _ => .ok ()))
        onTwoThreads (placeThenRebalance true)
      ↔ Run.EachStep (Written.step (greedyCpuAllocator Unit) (fun _ _ _ => .ok ()))
        (RepeatsNothingLost (greedyCpuAllocator Unit) (fun _ _ _ => .ok ()))
        onTwoThreads (placeThenRebalance true) :=
  skipping_invisible_iff (fun _ _ _ => .ok ())
    (build_answersOnce RandomSource.reversing AllocatorKind.greedy) _ _ _ _

/-- The writes for `a` fail, and the rebalance skips it although all its writes succeed. -/
theorem skipping_visible_rejected :
    ¬ Run.EachStep (Written.step (greedyCpuAllocator Unit) (fun _ _ _ => .ok ()))
        (HoldsResponse (greedyCpuAllocator Unit) (fun _ _ _ => .ok ()))
        onTwoThreads (placeThenRebalance false) := by
  intro h
  obtain ⟨_, hrebalance, _⟩ := h
  -- the rebalance answers with a thread for `a` and leaves its cpuset unwritten
  have hanswer : (((onTwoThreads.step (greedyCpuAllocator Unit) (fun _ _ _ => .ok ())
        ⟨⟨Ambient.unset (), [⟨"a", "job", 1⟩], []⟩, fun _ => false⟩).wm.isolate
          (greedyCpuAllocator Unit) (fun _ _ _ => .ok ()) ⟨Ambient.unset (), [], []⟩).response.map
        AllocateResponse.workloadAllocations)
      = some [⟨"a", [0], 100, 100000, false, false, false⟩] := by decide +kernel
  have hfiles : (Run.exec (Written.step (greedyCpuAllocator Unit) (fun _ _ _ => .ok ()))
      onTwoThreads (placeThenRebalance false)).files "a" .cpuset = none := by decide +kernel
  obtain ⟨response, hres, hallocs⟩ := Option.map_eq_some_iff.mp hanswer
  obtain ⟨b, _, hholds⟩ := hrebalance (fun _ _ _ _ => rfl) response hres
    ⟨"a", [0], 100, 100000, false, false, false⟩ (by rw [hallocs]; exact List.mem_singleton_self _)
  exact absurd (hfiles.symm.trans (hholds .cpuset)) (by simp)

end Written

end TitusIsolate
