import TitusIsolate.Isolate.Host
import TitusIsolate.Model.Config
import TitusIsolate.Proof.Writes

/-!
# The isolated mark

A container is marked by any write for it that succeeds and loses the mark when it is
released. So the mark means a confined container only when the first write to succeed
is a cpuset write, and a released container stays unmarked only when no write it had
in flight succeeds afterwards. Both are decided by the order in which threads end, and
the two results below say for which orders they hold.
-/

namespace TitusIsolate

namespace FileWorld

/-! ## What a step marks -/

/-- The write that succeeds at a step. -/
def lands (s : FileWorld) : FileEvent → Option Write
  | .call c ok =>
      match c.write with
      | none => none
      | some w => if w.file.isThreaded = false ∧ ok = true then some w else none
  | .complete i ok => if ok then s.manager.threads[i]?.map WriterThread.write else none

end FileWorld

/-- The container that the event releases. -/
def FileEvent.releases : FileEvent → Option WorkloadId
  | .call (.releaseContainer c) _ => some c
  | _ => none

/-- The container that the event makes a `set_*` call for. -/
def FileEvent.callsFor : FileEvent → Option WorkloadId
  | .call c _ => c.write.map Write.container
  | .complete _ _ => none

namespace FileWorld

theorem releases_eq_none_of_write {c : CgroupCall} {w : Write} (h : c.write = some w) (ok : Bool) :
    (FileEvent.call c ok).releases = none := by
  cases c with
  | releaseContainer c => exact absurd h (by simp [CgroupCall.write])
  | setCpuset _ _ => rfl
  | setQuota _ _ => rfl
  | setShares _ _ => rfl
  | setMemoryMigrate _ _ => rfl
  | setMemorySpreadPage _ _ => rfl
  | setMemorySpreadSlab _ _ => rfl

/-- **What a step marks**: the container of the write that succeeds, if any, and what was
marked before and is not released. -/
theorem mem_isolated_step (s : FileWorld) (e : FileEvent) (u : WorkloadId) :
    u ∈ (s.step e).manager.isolatedWorkloadIds
      ↔ (∃ w, s.lands e = some w ∧ w.container = u)
        ∨ (u ∈ s.manager.isolatedWorkloadIds ∧ e.releases ≠ some u) := by
  rcases step_cases s e with ⟨c, ok, rfl, hs⟩ | ⟨c, ok, w, rfl, hw, ht, hs⟩
    | ⟨c, ok, w, rfl, hw, ht, hs⟩ | ⟨i, ok, t, rfl, ht, hs⟩ | ⟨i, ok, rfl, ht, hs⟩
  · -- a release
    rw [hs]
    simp [lands, CgroupCall.write, FileEvent.releases, FileCgroupManager.releaseContainer,
      and_comm, eq_comm]
  · -- handed to a thread: nothing lands yet
    rw [hs, releases_eq_none_of_write hw]
    have hmarks : ({ s.note w with manager := s.manager.start ⟨s.clock, w⟩ } :
        FileWorld).manager.isolatedWorkloadIds = s.manager.isolatedWorkloadIds := rfl
    rw [hmarks]
    simp [lands, hw, ht]
  · -- written by the caller
    rw [hs, releases_eq_none_of_write hw, isolated_set]
    have hmarks : (s.note w).manager.isolatedWorkloadIds = s.manager.isolatedWorkloadIds := rfl
    rw [hmarks]
    cases ok with
    | true => simp [lands, hw, ht, eq_comm]
    | false => simp [lands, hw]
  · -- a thread ends
    rw [hs, isolated_set]
    have hmarks : (s.endThread i).manager.isolatedWorkloadIds = s.manager.isolatedWorkloadIds := rfl
    rw [hmarks]
    cases ok with
    | true => simp [lands, ht, FileEvent.releases, eq_comm]
    | false => simp [lands, FileEvent.releases]
  · rw [hs]
    simp [lands, ht, FileEvent.releases]

theorem landed_set_ne_none (s : FileWorld) (k : Nat) (w : Write) (ok : Bool) (u : WorkloadId)
    (f : CgroupFile) :
    (s.set k w ok).landed u f ≠ none
      ↔ (ok = true ∧ w.container = u ∧ w.file = f) ∨ s.landed u f ≠ none := by
  cases ok with
  | false => simp [set]
  | true =>
    rw [landed_set]
    by_cases h : u = w.container ∧ f = w.file
    · simp [h]
    · rw [if_neg h]
      refine ⟨Or.inr, ?_⟩
      intro h'
      rcases h' with ⟨_, rfl, rfl⟩ | h'
      · exact absurd ⟨rfl, rfl⟩ h
      · exact h'

/-- A file has been written to when the step's write is to it or an earlier one was. -/
theorem landed_step (s : FileWorld) (e : FileEvent) (u : WorkloadId) (f : CgroupFile) :
    (s.step e).landed u f ≠ none
      ↔ (∃ w, s.lands e = some w ∧ w.container = u ∧ w.file = f) ∨ s.landed u f ≠ none := by
  rcases step_cases s e with ⟨c, ok, rfl, hs⟩ | ⟨c, ok, w, rfl, hw, ht, hs⟩
    | ⟨c, ok, w, rfl, hw, ht, hs⟩ | ⟨i, ok, t, rfl, ht, hs⟩ | ⟨i, ok, rfl, ht, hs⟩
  · rw [hs]
    simp [lands, CgroupCall.write]
  · rw [hs]
    have hland : ({ s.note w with manager := s.manager.start ⟨s.clock, w⟩ } : FileWorld).landed
        = s.landed := rfl
    rw [hland]
    simp [lands, hw, ht]
  · rw [hs, landed_set_ne_none]
    have hland : (s.note w).landed = s.landed := rfl
    rw [hland]
    cases ok with
    | true => simp [lands, hw, ht]
    | false => simp [lands, hw]
  · rw [hs, landed_set_ne_none]
    have hland : (s.endThread i).landed = s.landed := rfl
    rw [hland]
    cases ok with
    | true => simp [lands, ht]
    | false => simp [lands]
  · rw [hs]
    simp [lands, ht]

/-- A call for a container ends its release. -/
theorem released_note (s : FileWorld) (w : Write) (u : WorkloadId) :
    (s.note w).released u = true ↔ s.released u = true ∧ w.container ≠ u := by
  have hrel : (s.note w).released u = if u = w.container then false else s.released u := rfl
  rw [hrel]
  by_cases h : u = w.container
  · simp [h]
  · rw [if_neg h]
    exact ⟨fun hr => ⟨hr, fun he => h he.symm⟩, And.left⟩

/-- A container is released by a release and stops being so at the next call for it. -/
theorem released_step (s : FileWorld) (e : FileEvent) (u : WorkloadId) :
    (s.step e).released u = true
      ↔ e.releases = some u ∨ (s.released u = true ∧ e.callsFor ≠ some u) := by
  rcases step_cases s e with ⟨c, ok, rfl, hs⟩ | ⟨c, ok, w, rfl, hw, ht, hs⟩
    | ⟨c, ok, w, rfl, hw, ht, hs⟩ | ⟨i, ok, t, rfl, ht, hs⟩ | ⟨i, ok, rfl, ht, hs⟩
  · rw [hs]
    by_cases h : u = c
    · simp [h, FileEvent.releases]
    · have hne : ¬ c = u := fun he => h he.symm
      simp [h, hne, FileEvent.releases, FileEvent.callsFor, CgroupCall.write]
  · rw [hs, releases_eq_none_of_write hw]
    have hrel : ({ s.note w with manager := s.manager.start ⟨s.clock, w⟩ } : FileWorld).released
        = (s.note w).released := rfl
    rw [hrel, released_note]
    simp [FileEvent.callsFor, hw]
  · rw [hs, releases_eq_none_of_write hw, released_set, released_note]
    simp [FileEvent.callsFor, hw]
  · rw [hs, released_set]
    simp [FileEvent.releases, FileEvent.callsFor, endThread]
  · rw [hs]
    simp [FileEvent.releases, FileEvent.callsFor]

/-! ## A released container -/

/-- No container that has been released, and not been written to since, is marked. -/
def ReleasedUnmarked (s : FileWorld) : Prop :=
  ∀ u, s.released u = true → u ∉ s.manager.isolatedWorkloadIds

/-- A thread that ends with success does not write for a released container. -/
def NoLateWrite (s : FileWorld) : FileEvent → Prop
  | .call _ _ => True
  | .complete i ok => ∀ w, s.lands (.complete i ok) = some w → s.released w.container = false

theorem lands_call_container {s : FileWorld} {c : CgroupCall} {ok : Bool} {w : Write}
    (h : s.lands (.call c ok) = some w) : (FileEvent.call c ok).callsFor = some w.container := by
  cases hw : c.write with
  | none => exact absurd h (by simp [lands, hw])
  | some w' =>
    simp only [lands, hw] at h
    split at h
    · obtain rfl := Option.some.inj h
      simp [FileEvent.callsFor, hw]
    · exact absurd h (by simp)

theorem releasedUnmarked_step (s : FileWorld) (e : FileEvent) (h : ReleasedUnmarked s) :
    ReleasedUnmarked (s.step e) ↔ NoLateWrite s e := by
  cases e with
  | call c ok =>
    refine ⟨fun _ => trivial, ?_⟩
    intro _ u hrel hmark
    rw [released_step] at hrel
    rw [mem_isolated_step] at hmark
    rcases hmark with ⟨w, hlands, rfl⟩ | ⟨hold, hnot⟩
    · -- the call that writes for a container ends its release
      have hcalls := lands_call_container hlands
      rcases hrel with hrel | ⟨_, hnone⟩
      · cases c with
        | releaseContainer c => exact absurd hlands (by simp [lands, CgroupCall.write])
        | _ => exact absurd hrel (by simp [FileEvent.releases])
      · exact hnone hcalls
    · rcases hrel with hrel | ⟨hrel, _⟩
      · exact hnot hrel
      · exact h u hrel hold
  | complete i ok =>
    -- the end of a thread releases nothing and is no call
    have hsame : ∀ u, (s.step (.complete i ok)).released u = true ↔ s.released u = true := by
      intro u
      rw [released_step]
      simp [FileEvent.releases, FileEvent.callsFor]
    refine ⟨?_, ?_⟩
    · intro hstep w hlands
      by_contra hrel
      have hrel : s.released w.container = true := by simpa using hrel
      exact hstep w.container ((hsame _).mpr hrel)
        ((mem_isolated_step _ _ _).mpr (Or.inl ⟨w, hlands, rfl⟩))
    · intro hlate u hrel hmark
      rw [hsame] at hrel
      rw [mem_isolated_step] at hmark
      rcases hmark with ⟨w, hlands, rfl⟩ | ⟨hold, _⟩
      · have := hlate w hlands
        rw [hrel] at this
        exact absurd this (by simp)
      · exact h u hrel hold

/--
**A released container stays unmarked** throughout exactly the runs in which no write
succeeds for a container between its release and the next call for it.
-/
theorem releasedUnmarked_iff (files : Files) (events : List FileEvent) :
    Run.Always FileWorld.step ReleasedUnmarked (init files) events
      ↔ Run.EachStep FileWorld.step NoLateWrite (init files) events :=
  Run.always_iff_eachStep (I := fun _ => True) (fun _ _ _ => trivial)
    (fun s e _ h => releasedUnmarked_step s e h) events trivial
    (fun u hrel => absurd hrel (by simp [init]))

/-- The cpuset write of `a` is still in flight when `a` is released. -/
theorem released_marked_again :
    (Run.exec FileWorld.step (FileWorld.init (fun _ _ => none))
        [.call (.setCpuset "a" [0]) true, .call (.releaseContainer "a") true,
          .complete 0 true]).released "a" = true
      ∧ "a" ∈ (Run.exec FileWorld.step (FileWorld.init (fun _ _ => none))
        [.call (.setCpuset "a" [0]) true, .call (.releaseContainer "a") true,
          .complete 0 true]).manager.isolatedWorkloadIds :=
  ⟨by decide +kernel, by decide +kernel⟩

end FileWorld

/-! ## A marked container -/

namespace Host

/-- What the event does to the cgroup manager. -/
def fileEvent {Rng : Type} (h : Host) : HostEvent Rng → Option FileEvent
  | .isolate _ => none
  | .advance ok =>
      match h.inCall with
      | some (c :: _, _) => some (.call c ok)
      | _ => none
  | .complete i ok => some (.complete i ok)

section

variable {Rng : Type} (allocator : CpuAllocator Rng)
  (reportCpuEvent : Ambient Rng → AllocateRequest → AllocateResponse → Except PyError Unit)

theorem world_step (h : Host) (e : HostEvent Rng) :
    (h.step allocator reportCpuEvent e).world
      = match h.fileEvent e with
        | none => h.world
        | some fe => h.world.step fe := by
  rcases h.step_cases allocator reportCpuEvent e with ⟨hs, ⟨call, rfl⟩ | ⟨ok, rfl, hin⟩⟩
    | ⟨call, rfl, hin, hs⟩ | ⟨ok, wm, rfl, hin, hs⟩ | ⟨ok, c, cs, wm, rfl, hin, hs⟩
    | ⟨i, ok, rfl, hs⟩
  · rw [hs]
    rfl
  · rw [hs]
    simp only [fileEvent, hin]
  · rw [hs]
    rfl
  · rw [hs]
    simp only [fileEvent, hin]
  · rw [hs]
    simp only [fileEvent, hin, FileWorld.step]
  · rw [hs]
    rfl

/-- Every id that is reported isolated has had a cpuset write succeed. -/
def IsolatedAfterCpuset (h : Host) : Prop :=
  ∀ u, h.isIsolated allocator u = true → h.world.landed u .cpuset ≠ none

/-- A write that succeeds is a cpuset write, or comes after one for its container. -/
def CpusetFirst (h : Host) (e : HostEvent Rng) : Prop :=
  ∀ fe w, h.fileEvent e = some fe → h.world.lands fe = some w →
    w.file = .cpuset ∨ h.world.landed w.container .cpuset ≠ none

variable {allocator} (hnoop : allocator.isNoop = false)

include hnoop in
theorem isIsolated_iff (h : Host) (u : WorkloadId) :
    h.isIsolated allocator u = true ↔ u ∈ h.world.manager.isolatedWorkloadIds := by
  unfold isIsolated WorkloadManager.isIsolated
  rw [hnoop]
  simp

include hnoop in
theorem isolatedAfterCpuset_step (h : Host) (e : HostEvent Rng)
    (hmark : IsolatedAfterCpuset allocator h) :
    IsolatedAfterCpuset allocator (h.step allocator reportCpuEvent e) ↔ h.CpusetFirst e := by
  unfold IsolatedAfterCpuset at hmark ⊢
  unfold CpusetFirst
  simp only [isIsolated_iff hnoop, world_step] at hmark ⊢
  cases hfe : h.fileEvent e with
  -- a step outside the cgroup manager
  | none =>
    dsimp only
    exact ⟨fun _ _ _ he => absurd he (by simp), fun _ => hmark⟩
  | some fe =>
    dsimp only
    refine ⟨?_, ?_⟩
    · intro hstep fe' w he hlands
      obtain rfl := Option.some.inj he
      have hland := hstep w.container
        ((FileWorld.mem_isolated_step _ _ _).mpr (Or.inl ⟨w, hlands, rfl⟩))
      rcases (FileWorld.landed_step _ _ _ _).mp hland with ⟨w', hw', _, hfile⟩ | hold
      · rw [hlands] at hw'
        obtain rfl := Option.some.inj hw'
        exact Or.inl hfile
      · exact Or.inr hold
    · intro hfirst u hu
      rw [FileWorld.landed_step]
      rcases (FileWorld.mem_isolated_step _ _ _).mp hu with ⟨w, hlands, rfl⟩ | ⟨hold, _⟩
      · rcases hfirst fe w rfl hlands with hfile | hland
        · exact Or.inl ⟨w, hlands, rfl, hfile⟩
        · exact Or.inr hland
      · exact Or.inr (hmark u hold)

include hnoop in
/--
**Isolated means confined** throughout exactly the runs in which every write that
succeeds is a cpuset write or follows one for the same container.
-/
theorem isolatedAfterCpuset_iff (wm : WorkloadManager) (files : Files)
    (events : List (HostEvent Rng)) :
    Run.Always (Host.step allocator reportCpuEvent) (IsolatedAfterCpuset allocator)
        (Host.init wm files) events
      ↔ Run.EachStep (Host.step allocator reportCpuEvent) CpusetFirst (Host.init wm files) events :=
  Run.always_iff_eachStep (I := fun _ => True) (fun _ _ _ => trivial)
    (fun h e _ hmark => isolatedAfterCpuset_step reportCpuEvent hnoop h e hmark) events trivial
    (by
      intro u hu
      rw [isIsolated_iff hnoop] at hu
      exact absurd hu (by simp [init, FileWorld.init, FileCgroupManager.init]))

end

/-- Workload `a` is placed, and its call gets as far as the first memory setting. -/
def placeUpToMemory : List (HostEvent Unit) :=
  [.isolate ⟨Ambient.unset (), [⟨"a", "job", 1⟩], []⟩, .advance true, .advance true, .advance true,
    .advance true]

theorem isolatedAfterCpuset_iff_greedy :
    Run.Always (Host.step (greedyCpuAllocator Unit) (fun _ _ _ => .ok ()))
        (IsolatedAfterCpuset (greedyCpuAllocator Unit))
        (Host.init (WorkloadManager.init none Config.twoThreads) (fun _ _ => none)) placeUpToMemory
      ↔ Run.EachStep (Host.step (greedyCpuAllocator Unit) (fun _ _ _ => .ok ())) CpusetFirst
        (Host.init (WorkloadManager.init none Config.twoThreads) (fun _ _ => none))
        placeUpToMemory :=
  isolatedAfterCpuset_iff (fun _ _ _ => .ok ()) rfl _ _ _

/-- The memory setting marks `a` while its cpuset write has not ended. -/
theorem isolated_before_cpuset :
    (Run.exec (Host.step (greedyCpuAllocator Unit) (fun _ _ _ => .ok ()))
        (Host.init (WorkloadManager.init none Config.twoThreads) (fun _ _ => none))
        placeUpToMemory).isIsolated (greedyCpuAllocator Unit) "a" = true
      ∧ (Run.exec (Host.step (greedyCpuAllocator Unit) (fun _ _ _ => .ok ()))
        (Host.init (WorkloadManager.init none Config.twoThreads) (fun _ _ => none))
        placeUpToMemory).world.landed "a" .cpuset = none :=
  ⟨by decide +kernel, by decide +kernel⟩

end Host

end TitusIsolate
