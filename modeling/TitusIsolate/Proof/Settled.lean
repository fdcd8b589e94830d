import TitusIsolate.Proof.LastWrite
import TitusIsolate.Proof.Marks
import TitusIsolate.Proof.Reconciled

/-!
# The host at rest

The reconciler has the process exit when a cpuset read back is not the one claimed. A host
comes to rest when no call of `isolate` is under way and no thread is writing. Then it is
settled, if its writes ended well and in order: the reconciler finds nothing, and what is
claimed is marked isolated. Threads that end oldest first end in order, and a host that is
served so can be brought to rest from any state.
-/

namespace TitusIsolate

/-! ## Marks -/

namespace FileWorld

/-- A container with a write that landed has its mark, or a thread on the way to it. -/
def KeepsMarks (s : FileWorld) : Prop :=
  ∀ u f, s.released u = false → s.landed u f ≠ none →
    u ∈ s.manager.isolatedWorkloadIds ∨ ∃ t ∈ s.manager.threads, t.write.container = u

/-- A thread in flight goes on, or its write lands. -/
theorem mem_threads_step {s : FileWorld} {e : FileEvent} (hok : e.succeeds) {t : WriterThread}
    (ht : t ∈ s.manager.threads) :
    t ∈ (s.step e).manager.threads ∨ s.lands e = some t.write := by
  rcases step_cases s e with ⟨c, ok, rfl, hs⟩ | ⟨c, ok, w, rfl, _, _, hs⟩
    | ⟨c, ok, w, rfl, _, _, hs⟩ | ⟨i, ok, t', rfl, hi, hs⟩ | ⟨i, ok, rfl, _, hs⟩
  · rw [hs]
    exact Or.inl ht
  · rw [hs]
    exact Or.inl (List.mem_append_left _ ht)
  · rw [hs, threads_set]
    exact Or.inl ht
  · have hsucceeds : ok = true := hok
    rw [hs, threads_set]
    by_cases htt : t = t'
    · refine Or.inr ?_
      simp [lands, hi, hsucceeds, htt]
    · exact Or.inl (mem_endThread_of_ne hi ht htt)
  · rw [hs]
    exact Or.inl ht

/-- The write of a call lands at once or is on its way. -/
theorem callsFor_step {s : FileWorld} {e : FileEvent} (hok : e.succeeds) {u : WorkloadId}
    (h : e.callsFor = some u) :
    (∃ w, s.lands e = some w ∧ w.container = u)
      ∨ ∃ t ∈ (s.step e).manager.threads, t.write.container = u := by
  rcases step_cases s e with ⟨c, ok, rfl, _⟩ | ⟨c, ok, w, rfl, hw, _, hs⟩
    | ⟨c, ok, w, rfl, hw, ht, _⟩ | ⟨i, ok, t', rfl, _, _⟩ | ⟨i, ok, rfl, _, _⟩
  · exact absurd h (by simp [FileEvent.callsFor, CgroupCall.write])
  · refine Or.inr ⟨⟨s.clock, w⟩, ?_, ?_⟩
    · rw [hs]
      exact List.mem_append_right _ (List.mem_singleton_self _)
    · simpa [FileEvent.callsFor, hw] using h
  · have hsucceeds : ok = true := hok
    refine Or.inl ⟨w, ?_, ?_⟩
    · simp [lands, hw, ht, hsucceeds]
    · simpa [FileEvent.callsFor, hw] using h
  · exact absurd h (by simp [FileEvent.callsFor])
  · exact absurd h (by simp [FileEvent.callsFor])

theorem keepsMarks_step (s : FileWorld) (e : FileEvent) (h : s.KeepsMarks) (hok : e.succeeds) :
    (s.step e).KeepsMarks := by
  intro u f hrel hland
  rw [mem_isolated_step]
  by_cases hlands : ∃ w, s.lands e = some w ∧ w.container = u
  · exact Or.inl (Or.inl hlands)
  by_cases hcalls : e.callsFor = some u
  · exact Or.inr ((callsFor_step hok hcalls).resolve_left hlands)
  -- nothing is done for this container, so what it has it keeps
  have hreleases : e.releases ≠ some u := by
    intro hreleases
    rw [(released_step s e u).mpr (Or.inl hreleases)] at hrel
    exact absurd hrel (by simp)
  have hold : s.released u = false := by
    by_contra hreleased
    have hreleased : s.released u = true := by simpa using hreleased
    rw [(released_step s e u).mpr (Or.inr ⟨hreleased, hcalls⟩)] at hrel
    exact absurd hrel (by simp)
  have hlanded : s.landed u f ≠ none := by
    rcases (landed_step s e u f).mp hland with ⟨w, hw, hu, _⟩ | hlanded
    · exact absurd ⟨w, hw, hu⟩ hlands
    · exact hlanded
  rcases h u f hold hlanded with hmark | ⟨t, ht, rfl⟩
  · exact Or.inl (Or.inr ⟨hmark, hreleases⟩)
  · rcases mem_threads_step hok ht with ht | ht
    · exact Or.inr ⟨t, ht, rfl⟩
    · exact absurd ⟨t.write, ht, rfl⟩ hlands

end FileWorld

/-! ## Oldest first -/

/-- The thread that ends is the one that was started first. -/
def FileEvent.OldestFirst : FileEvent → Prop
  | .call _ _ => True
  | .complete i _ => i = 0

namespace FileWorld

/-- Threads stand in the order of their calls, and no write in flight is older than one that
has landed on its file. -/
structure Fifo (s : FileWorld) : Prop where
  sorted : s.manager.threads.Pairwise (fun t u => t.number < u.number)
  threaded : ∀ t ∈ s.manager.threads, t.write.file.isThreaded = true
  newer : ∀ t ∈ s.manager.threads, ∀ n,
    s.landed t.write.container t.write.file = some n → n < t.number

theorem fifo_init (files : Files) : (init files).Fifo where
  sorted := List.Pairwise.nil
  threaded := fun _ ht => absurd ht List.not_mem_nil
  newer := fun _ ht => absurd ht List.not_mem_nil

/-- The oldest thread lands before the latest call for its file has, or is that call's. -/
theorem Fifo.landsInOrder {s : FileWorld} {e : FileEvent} (h : s.Fifo) (hn : Numbered s)
    (he : e.OldestFirst) : LandsInOrder s e := by
  cases e with
  | call c ok => trivial
  | complete i ok =>
    intro t ht n v hl hland
    have hmem := List.mem_of_getElem? ht
    have hlt := h.newer t hmem n hland
    obtain ⟨n', v', hl', hle, _⟩ := hn.noted t hmem
    rw [hl] at hl'
    obtain ⟨rfl, _⟩ := Prod.mk.inj (Option.some.inj hl')
    omega

/-- A write by the caller leaves what the threads write alone. -/
theorem landed_set_other {s : FileWorld} {k : Nat} {w : Write} {ok : Bool} {c : WorkloadId}
    {f : CgroupFile} (h : ¬ (c = w.container ∧ f = w.file)) :
    (s.set k w ok).landed c f = s.landed c f := by
  cases ok with
  | false => rfl
  | true => rw [landed_set, if_neg h]

theorem fifo_step (s : FileWorld) (e : FileEvent) (hn : Numbered s) (h : s.Fifo)
    (he : e.OldestFirst) : (s.step e).Fifo := by
  rcases step_cases s e with ⟨c, ok, rfl, hs⟩ | ⟨c, ok, w, rfl, hw, ht, hs⟩
    | ⟨c, ok, w, rfl, hw, ht, hs⟩ | ⟨i, ok, t, rfl, ht, hs⟩ | ⟨i, ok, rfl, ht, hs⟩
  · rw [hs]
    exact ⟨h.sorted, h.threaded, h.newer⟩
  · -- the new thread has the highest number of all
    have hthreads : (s.step (.call c ok)).manager.threads = s.manager.threads ++ [⟨s.clock, w⟩] := by
      rw [hs]
      rfl
    have hlanded : (s.step (.call c ok)).landed = s.landed := by
      rw [hs]
      rfl
    refine ⟨?_, ?_, ?_⟩
    · rw [hthreads, List.pairwise_append]
      refine ⟨h.sorted, List.pairwise_singleton _ _, ?_⟩
      intro t ht u hu
      obtain rfl := List.mem_singleton.mp hu
      exact hn.below t ht
    · rw [hthreads]
      intro t ht'
      rcases List.mem_append.mp ht' with ht' | ht'
      · exact h.threaded t ht'
      · obtain rfl := List.mem_singleton.mp ht'
        exact ht
    · rw [hthreads, hlanded]
      intro t ht' n hn'
      rcases List.mem_append.mp ht' with ht' | ht'
      · exact h.newer t ht' n hn'
      · obtain rfl := List.mem_singleton.mp ht'
        obtain ⟨m, v, hl, hle⟩ := hn.landedLe _ _ _ hn'
        exact Nat.lt_of_le_of_lt hle (hn.latestBelow _ _ _ _ hl)
  · -- the caller writes another file than any thread does
    have hthreads : (s.step (.call c ok)).manager.threads = s.manager.threads := by
      rw [hs, threads_set]
      rfl
    refine ⟨?_, ?_, ?_⟩
    · rw [hthreads]
      exact h.sorted
    · rw [hthreads]
      exact h.threaded
    · rw [hthreads]
      intro t ht' n hn'
      have hother : ¬ (t.write.container = w.container ∧ t.write.file = w.file) := by
        intro hsame
        have hthreaded := h.threaded t ht'
        rw [hsame.2, ht] at hthreaded
        exact absurd hthreaded (by simp)
      rw [hs, landed_set_other hother] at hn'
      exact h.newer t ht' n hn'
  · -- the first thread ends, and the others have higher numbers
    obtain rfl : i = 0 := he
    cases hthreads : s.manager.threads with
    | nil =>
      rw [hthreads] at ht
      exact absurd ht (by simp)
    | cons t' ts =>
      rw [hthreads] at ht
      obtain rfl : t' = t := by simpa using ht
      have hsorted := h.sorted
      rw [hthreads] at hsorted
      obtain ⟨hfirst, hsorted⟩ := List.pairwise_cons.mp hsorted
      have hrest : (s.step (.complete 0 ok)).manager.threads = ts := by
        rw [hs, threads_set]
        show s.manager.threads.eraseIdx 0 = ts
        rw [hthreads]
        rfl
      have hold : ∀ u ∈ ts, u ∈ s.manager.threads := by
        intro u hu
        rw [hthreads]
        exact List.mem_cons_of_mem _ hu
      refine ⟨?_, ?_, ?_⟩
      · rw [hrest]
        exact hsorted
      · rw [hrest]
        exact fun u hu => h.threaded u (hold u hu)
      · rw [hrest]
        intro u hu n hn'
        have hlt := hfirst u hu
        rw [hs] at hn'
        by_cases hsame : u.write.container = t'.write.container ∧ u.write.file = t'.write.file
        · cases ok with
          | false => exact h.newer u (hold u hu) n hn'
          | true =>
            rw [landed_set, if_pos hsame] at hn'
            obtain rfl := Option.some.inj hn'
            -- what had landed before is older than any write in flight for the file
            cases hbefore : s.landed u.write.container u.write.file with
            | none =>
              have hbefore' : (s.endThread 0).landed u.write.container u.write.file = none := hbefore
              rw [hbefore', Option.getD_none]
              omega
            | some m =>
              have hbefore' : (s.endThread 0).landed u.write.container u.write.file = some m :=
                hbefore
              have hm := h.newer u (hold u hu) m hbefore
              rw [hbefore', Option.getD_some]
              omega
        · rw [landed_set_other hsame] at hn'
          exact h.newer u (hold u hu) n hn'
  · rw [hs]
    exact h

end FileWorld

/-! ## At rest -/

namespace Host

/-- No call holds the lock and no thread is writing. -/
def Quiet (h : Host) : Prop := h.inCall = none ∧ h.world.manager.hasPendingWork = false

/-- Writes succeed, and none lands after a later one for its file unless it writes the same. -/
def InOrder {Rng : Type} (h : Host) (e : HostEvent Rng) : Prop :=
  ∀ fe, h.fileEvent e = some fe → fe.succeeds ∧ FileWorld.LandsInOrder h.world fe

/-- The reconciler has nothing to exit for, and claimed workloads are marked. -/
structure Settled {Rng : Type} (allocator : CpuAllocator Rng) (kernel : String → String)
    (h : Host) : Prop where
  reconciled : ∀ r : Reconciler, r.reconcile (h.world.readBack kernel) h.wm.cpu
    = { reconciler := { r with successCount := r.successCount + 1 }, exits := [], raised := none }
  isolated : ∀ u, Claimed h.wm.cpu u → h.world.released u = false →
    h.isIsolated allocator u = true

section

variable {Rng : Type} {allocator : CpuAllocator Rng}
  {reportCpuEvent : Ambient Rng → AllocateRequest → AllocateResponse → Except PyError Unit}

/-- What holds all the time, of the calls and of the writes. -/
structure Consistent (h : Host) : Prop where
  asked : h.AskedAsClaimed
  numbered : FileWorld.Numbered h.world
  standing : FileWorld.Standing h.world
  marks : h.world.KeepsMarks

theorem consistent_step (htruth : allocator.IsTruthful) (h : Host) (e : HostEvent Rng)
    (hcons : h.Consistent) (horder : h.InOrder e) :
    (h.step allocator reportCpuEvent e).Consistent := by
  have hasked : (h.step allocator reportCpuEvent e).AskedAsClaimed :=
    askedAsClaimed_step htruth h e hcons.asked
  have hworld := h.world_step allocator reportCpuEvent e
  cases hfe : h.fileEvent e with
  | none =>
    rw [hfe] at hworld
    refine ⟨hasked, ?_, ?_, ?_⟩
    · rw [hworld]
      exact hcons.numbered
    · rw [hworld]
      exact hcons.standing
    · rw [hworld]
      exact hcons.marks
  | some fe =>
    rw [hfe] at hworld
    obtain ⟨hsucceeds, hlands⟩ := horder fe hfe
    obtain ⟨hnumbered, hstanding⟩ := FileWorld.standing_step h.world fe
      ⟨hcons.numbered, hcons.standing⟩ ⟨hsucceeds, hlands⟩
    refine ⟨hasked, ?_, ?_, ?_⟩
    · rw [hworld]
      exact hnumbered
    · rw [hworld]
      exact hstanding
    · rw [hworld]
      exact FileWorld.keepsMarks_step h.world fe hcons.marks hsucceeds

theorem consistent_init {cpu : Cpu} (hthreads : DistinctThreads cpu)
    (hclear : ∀ u, ¬ Claimed cpu u) (instanceId : Option String) (files : Files) :
    (init (WorkloadManager.init instanceId cpu) files).Consistent where
  asked := ⟨hthreads, fun u hcl => absurd hcl (hclear u), fun u a ha => absurd ha
    (by simp [due, init, WorkloadManager.init, WorkloadManager.getWorkloadAllocationDict])⟩
  numbered := FileWorld.numbered_init files
  standing := fun c f n v hl => absurd hl (by simp [init, FileWorld.init])
  marks := fun u f _ hland => absurd rfl hland

theorem Quiet.threads {h : Host} (hquiet : h.Quiet) : h.world.manager.threads = [] := by
  have hpending := hquiet.2
  unfold FileCgroupManager.hasPendingWork at hpending
  simpa using hpending

/-- At rest nothing is due, and the cpuset last asked of a claimed workload has landed. -/
theorem Consistent.landed {h : Host} (hcons : h.Consistent) (hquiet : h.Quiet) {u : WorkloadId}
    (hcl : Claimed h.wm.cpu u) :
    ∃ n threadIds, h.world.landed u .cpuset = some n
      ∧ h.world.files u .cpuset = some (getThreadIdsStr threadIds)
      ∧ ∀ i, i ∈ threadIds ↔ i ∈ Update.getThreads h.wm.cpu u := by
  have hdue : h.due = ([], h.wm) := by
    unfold due
    rw [hquiet.1]
    rfl
  have hasks := hcons.asked.claimed u
  unfold dueCpuset at hasks
  rw [hdue] at hasks
  obtain ⟨threadIds, htext, hmem⟩ := hasks hcl
  obtain ⟨⟨n, v⟩, hl, rfl⟩ := Option.map_eq_some_iff.mp htext
  rcases hcons.standing u .cpuset n _ hl with ⟨t, ht, _⟩ | ⟨hland, hfile⟩
  · rw [hquiet.threads] at ht
    exact absurd ht List.not_mem_nil
  · exact ⟨n, threadIds, hland, hfile, hmem⟩

/-- At rest the cpuset of a claimed workload reads back as the threads it claims. -/
theorem Consistent.readsBack {h : Host} (hcons : h.Consistent) (hquiet : h.Quiet)
    {kernel : String → String} (hkernel : ShowsWritten kernel) {u : WorkloadId}
    (hcl : Claimed h.wm.cpu u) :
    ∃ back, (h.world.readBack kernel).getCpuset u = .ok back
      ∧ back.Perm (Update.getThreads h.wm.cpu u) := by
  obtain ⟨n, threadIds, _, hfile, hids⟩ := hcons.landed hquiet hcl
  have hne : threadIds ≠ [] := by
    obtain ⟨i, hi⟩ := List.exists_mem_of_ne_nil _ (claimed_iff_getThreads.mp hcl)
    exact List.ne_nil_of_mem ((hids i).mpr hi)
  obtain ⟨back, hback, hnodup, hsame⟩ := parseCpuset_readBack hkernel hne
  have hthreads := hcons.asked.threads
  unfold due at hthreads
  rw [hquiet.1] at hthreads
  refine ⟨back, ?_, (List.perm_ext_iff_of_nodup hnodup (getThreads_nodup hthreads u)).mpr
    (fun i => (hsame i).trans (hids i))⟩
  unfold FileWorld.readBack
  dsimp only
  rw [hfile]
  exact hback

/-- **A consistent host at rest is settled.** -/
theorem Consistent.settled {h : Host} (hcons : h.Consistent) (hquiet : h.Quiet)
    {kernel : String → String} (hkernel : ShowsWritten kernel) : h.Settled allocator kernel := by
  refine ⟨?_, ?_⟩
  · intro r
    have hcheck : Reconciler.check (h.world.readBack kernel).getCpuset
        (Reconciler.getWorkloads h.wm.cpu).entries = ([], none) := by
      refine Reconciler.check_of_perm ?_
      rintro ⟨u, claims⟩ hmem
      obtain ⟨hcl, rfl⟩ := Reconciler.mem_getWorkloads hmem
      exact hcons.readsBack hquiet hkernel hcl
    unfold Reconciler.reconcile
    rw [hcheck]
    simp [FileWorld.readBack, hquiet.2]
  · intro u hcl hrel
    obtain ⟨n, _, hland, _⟩ := hcons.landed hquiet hcl
    unfold isIsolated WorkloadManager.isIsolated
    split
    · rfl
    · rcases hcons.marks u .cpuset hrel (by rw [hland]; simp) with hmark | ⟨t, ht, _⟩
      · exact decide_eq_true hmark
      · rw [hquiet.threads] at ht
        exact absurd ht List.not_mem_nil

/-- Writes succeed, and threads end in the order in which they were started. -/
def OldestFirst : HostEvent Rng → Prop
  | .isolate _ => True
  | .advance ok => ok = true
  | .complete i ok => i = 0 ∧ ok = true

theorem oldestFirst_fileEvent {h : Host} {e : HostEvent Rng} (he : OldestFirst e) {fe : FileEvent}
    (hfe : h.fileEvent e = some fe) : fe.succeeds ∧ fe.OldestFirst := by
  cases e with
  | isolate call => exact absurd hfe (by simp [fileEvent])
  | advance ok =>
    simp only [fileEvent] at hfe
    split at hfe
    · obtain rfl := Option.some.inj hfe
      exact ⟨he, trivial⟩
    · exact absurd hfe (by simp)
  | complete i ok =>
    obtain rfl := Option.some.inj hfe
    exact ⟨he.2, he.1⟩

theorem consistent_fifo_step (htruth : allocator.IsTruthful) (h : Host) (e : HostEvent Rng)
    (hcons : h.Consistent ∧ h.world.Fifo) (he : OldestFirst e) :
    (h.step allocator reportCpuEvent e).Consistent
      ∧ (h.step allocator reportCpuEvent e).world.Fifo := by
  obtain ⟨hcons, hfifo⟩ := hcons
  have horder : h.InOrder e := by
    intro fe hfe
    obtain ⟨hsucceeds, hfirst⟩ := oldestFirst_fileEvent he hfe
    exact ⟨hsucceeds, hfifo.landsInOrder hcons.numbered hfirst⟩
  refine ⟨consistent_step htruth h e hcons horder, ?_⟩
  rw [h.world_step]
  cases hfe : h.fileEvent e with
  | none => exact hfifo
  | some fe => exact FileWorld.fifo_step _ _ hcons.numbered hfifo (oldestFirst_fileEvent he hfe).2

/-- Threads that end oldest first end in order. -/
theorem inOrder_of_oldestFirst (htruth : allocator.IsTruthful) {cpu : Cpu}
    (hthreads : DistinctThreads cpu) (hclear : ∀ u, ¬ Claimed cpu u) (instanceId : Option String)
    (files : Files) {events : List (HostEvent Rng)} (hfirst : ∀ e ∈ events, OldestFirst e) :
    Run.EachStep (Host.step allocator reportCpuEvent) InOrder
      (init (WorkloadManager.init instanceId cpu) files) events := by
  refine Run.eachStep_of_step (consistent_fifo_step htruth) ?_
    ⟨consistent_init hthreads hclear instanceId files, FileWorld.fifo_init files⟩
    (Run.eachStep_of_mem (fun _ => hfirst))
  intro h e hcons he fe hfe
  obtain ⟨hsucceeds, hfirst'⟩ := oldestFirst_fileEvent he hfe
  exact ⟨hsucceeds, hcons.2.landsInOrder hcons.1.numbered hfirst'⟩

/-- **A host settles whenever it comes to rest**: whatever allocators are configured, whatever
the calls and the service's answers, in every run whose writes end well and in order. -/
theorem reachable_settled {Constraints : Type} {P C T : Nat} {endpoint : Option String}
    {instanceCtx : Pb.InstanceContext} {sysCoreIds sysCoresUsage sysCoresHardIsolate : Option String}
    {service : RemoteService Rng Constraints} {random : RandomSource Rng} {fallbackQueueDepth : Int}
    {configManager : ConfigManager String}
    (hbuild : getFallbackAllocator random
      ((GrpcRemoteIsolationAllocator.init endpoint instanceCtx P C T sysCoreIds sysCoresUsage
        sysCoresHardIsolate).map (fun a => a.toCpuAllocator service))
      fallbackQueueDepth configManager = .ok allocator)
    {kernel : String → String} (hkernel : ShowsWritten kernel) {cpu : Cpu}
    (hthreads : DistinctThreads cpu) (hclear : ∀ u, ¬ Claimed cpu u) (instanceId : Option String)
    (files : Files) (events : List (HostEvent Rng))
    (horder : Run.EachStep (Host.step allocator reportCpuEvent) InOrder
      (init (WorkloadManager.init instanceId cpu) files) events) :
    Run.Always (Host.step allocator reportCpuEvent)
      (fun h => h.Quiet → h.Settled allocator kernel)
      (init (WorkloadManager.init instanceId cpu) files) events :=
  (Run.always_of_step (consistent_step (configured_truthful hbuild))
    (consistent_init hthreads hclear instanceId files) horder).mono
    (fun _ hcons hquiet => hcons.settled hquiet hkernel)

end

/-- Greedy is configured, and the remote service is not there. -/
def greedyConfig : ConfigManager String where
  properties := fun k => if k = cpuAllocatorProperty then some "GREEDY" else none
  cachedStr := OrderedDict.empty

/-- A remote service that cannot be reached. -/
def unreachable : RemoteService Unit Unit where
  constraintsFile _ := .error (.exception "no such file")
  parseConstraints _ := .ok ()
  computeIsolation _ _ := .error (.exception "unavailable")

/-- Workload `a` is placed; its call ends, then its threads do. -/
def placeOne : List (HostEvent Unit) :=
  .isolate ⟨Ambient.unset (), [⟨"a", "job", 1⟩], []⟩ :: List.replicate 7 (.advance true)
    ++ List.replicate 3 (.complete 0 true)

theorem placeOne_oldestFirst : ∀ e ∈ placeOne, OldestFirst e := by
  intro e he
  rcases List.mem_cons.mp he with rfl | he
  · trivial
  rcases List.mem_append.mp he with he | he
  · rw [List.eq_of_mem_replicate he]
    rfl
  · rw [List.eq_of_mem_replicate he]
    exact ⟨rfl, rfl⟩

theorem greedyConfig_builds : getFallbackAllocator RandomSource.reversing
    ((GrpcRemoteIsolationAllocator.init none ⟨"", "", "", "", "", ""⟩ 1 1 2 none none none).map
      (fun a => a.toCpuAllocator unreachable)) 20 greedyConfig
    = .ok (fallbackCpuAllocator 20 (greedyCpuAllocator Unit)
        (naiveCpuAllocator RandomSource.reversing)) := rfl

theorem twoThreads_distinct : DistinctThreads Config.twoThreads := by
  unfold DistinctThreads
  decide

/-- The run is at rest in the end, and `a` has a thread. -/
theorem reachable_settled_greedy :
    Run.Always (Host.step (fallbackCpuAllocator 20 (greedyCpuAllocator Unit)
        (naiveCpuAllocator RandomSource.reversing)) (fun _ _ _ => .ok ()))
      (fun h => h.Quiet → h.Settled (fallbackCpuAllocator 20 (greedyCpuAllocator Unit)
        (naiveCpuAllocator RandomSource.reversing)) cpulist)
      (init (WorkloadManager.init none Config.twoThreads) (fun _ _ => none)) placeOne :=
  reachable_settled greedyConfig_builds cpulist_showsWritten twoThreads_distinct
    twoThreads_unclaimed none _ placeOne
    (inOrder_of_oldestFirst (configured_truthful greedyConfig_builds) twoThreads_distinct
      twoThreads_unclaimed none _ placeOne_oldestFirst)

example : (Run.exec (Host.step (greedyCpuAllocator Unit) (fun _ _ _ => .ok ()))
    (init (WorkloadManager.init none Config.twoThreads) (fun _ _ => none)) placeOne).world.files
      "a" .cpuset = some "0" := by decide +kernel

section

variable {Rng : Type} {allocator : CpuAllocator Rng}
  {reportCpuEvent : Ambient Rng → AllocateRequest → AllocateResponse → Except PyError Unit}

/-! ## Coming to rest -/

/-- The call under way ends, and then the threads do, oldest first. -/
def drain (h : Host) : List (HostEvent Rng) :=
  List.replicate (h.due.1.length + 1) (.advance true)
    ++ List.replicate (h.world.manager.threads.length + h.due.1.length) (.complete 0 true)

variable (allocator reportCpuEvent) in
/-- The host when nothing new is called and everything under way has ended. -/
def atRest (h : Host) : Host := Run.exec (Host.step allocator reportCpuEvent) h h.drain

theorem length_threads_perform (s : FileWorld) (c : CgroupCall) (ok : Bool) :
    (s.perform c ok).manager.threads.length ≤ s.manager.threads.length + 1 := by
  rcases FileWorld.step_cases s (.call c ok) with ⟨_, _, _, hs⟩ | ⟨_, _, w, _, _, _, hs⟩
    | ⟨_, _, w, _, _, _, hs⟩ | ⟨_, _, _, he, _⟩ | ⟨_, _, he, _⟩
  · have hs' : s.perform c ok = _ := hs
    rw [hs']
    exact Nat.le_succ _
  · have hs' : s.perform c ok = _ := hs
    rw [hs']
    exact Nat.le_of_eq List.length_append
  · have hs' : s.perform c ok = _ := hs
    rw [hs', FileWorld.threads_set]
    exact Nat.le_succ _
  · exact absurd he (by simp)
  · exact absurd he (by simp)

/-- What a step does not change, no number of them does. -/
theorem exec_replicate_of_fixed {h : Host} {e : HostEvent Rng}
    (hfixed : h.step allocator reportCpuEvent e = h) (n : Nat) :
    Run.exec (Host.step allocator reportCpuEvent) h (List.replicate n e) = h := by
  induction n with
  | zero => rfl
  | succ n ih => rw [List.replicate_succ, Run.exec_cons, hfixed, ih]

variable (allocator reportCpuEvent) in
/-- A call that is given enough steps ends, and leaves at most one more thread for each step. -/
theorem exec_advances : ∀ (n : Nat) (h : Host), h.due.1.length < n →
    (Run.exec (Host.step allocator reportCpuEvent) h (List.replicate n (.advance true))).inCall
        = none
      ∧ (Run.exec (Host.step allocator reportCpuEvent) h
          (List.replicate n (.advance true))).world.manager.threads.length
        ≤ h.world.manager.threads.length + h.due.1.length
  | 0, _, hn => absurd hn (by omega)
  | n + 1, h, hn => by
      rw [List.replicate_succ, Run.exec_cons]
      rcases h.step_cases allocator reportCpuEvent (.advance true) with ⟨hs, ⟨_, he⟩ | ⟨_, _, hin⟩⟩
        | ⟨_, he, _⟩ | ⟨ok, wm, _, hin, hs⟩ | ⟨ok, c, cs, wm, he, hin, hs⟩ | ⟨_, _, he, _⟩
      · exact absurd he (by simp)
      · -- nobody holds the lock
        rw [hs, exec_replicate_of_fixed hs]
        exact ⟨hin, Nat.le_add_right _ _⟩
      · exact absurd he (by simp)
      · -- the call ends
        have hfixed : (h.step allocator reportCpuEvent (.advance true)).step allocator reportCpuEvent
            (.advance true) = h.step allocator reportCpuEvent (.advance true) := by
          rw [hs]
          rfl
        rw [exec_replicate_of_fixed hfixed, hs]
        exact ⟨rfl, Nat.le_add_right _ _⟩
      · have hdue : h.due.1 = c :: cs := by
          unfold due
          rw [hin]
          rfl
        rw [hdue, List.length_cons] at hn ⊢
        rw [hs]
        obtain ⟨hin', hle⟩ := exec_advances n
          { h with world := h.world.perform c ok, inCall := some (cs, wm) } (by
            show cs.length < n
            omega)
        refine ⟨hin', Nat.le_trans hle ?_⟩
        have hone := length_threads_perform h.world c ok
        show (h.world.perform c ok).manager.threads.length + cs.length ≤ _
        omega
      · exact absurd he (by simp)

variable (allocator reportCpuEvent) in
/-- Threads that are given enough steps have all ended. -/
theorem exec_completes : ∀ (n : Nat) (h : Host), h.world.manager.threads.length ≤ n →
    (Run.exec (Host.step allocator reportCpuEvent) h (List.replicate n (.complete 0 true))).inCall
        = h.inCall
      ∧ (Run.exec (Host.step allocator reportCpuEvent) h
          (List.replicate n (.complete 0 true))).world.manager.threads = []
  | 0, h, hn => ⟨rfl, List.length_eq_zero_iff.mp (by simpa using hn)⟩
  | n + 1, h, hn => by
      rw [List.replicate_succ, Run.exec_cons]
      have hlen : (h.step allocator reportCpuEvent
          (.complete 0 true)).world.manager.threads.length ≤ n := by
        show (h.world.complete 0 true).manager.threads.length ≤ n
        unfold FileWorld.complete
        cases hthreads : h.world.manager.threads with
        | nil =>
          show h.world.manager.threads.length ≤ n
          rw [hthreads]
          exact Nat.zero_le _
        | cons t ts =>
          rw [hthreads, List.length_cons] at hn
          show ((t :: ts).eraseIdx 0).length ≤ n
          exact Nat.le_of_succ_le_succ hn
      exact exec_completes n _ hlen

/-- **A host comes to rest** when it is left to itself. -/
theorem atRest_quiet (h : Host) : (h.atRest allocator reportCpuEvent).Quiet := by
  unfold atRest drain
  rw [Run.exec_append]
  obtain ⟨hidle, hlen⟩ := exec_advances allocator reportCpuEvent (h.due.1.length + 1) h
    (Nat.lt_succ_self _)
  obtain ⟨hin, hnone⟩ := exec_completes allocator reportCpuEvent
    (h.world.manager.threads.length + h.due.1.length) _ hlen
  refine ⟨hin.trans hidle, ?_⟩
  unfold FileCgroupManager.hasPendingWork
  rw [hnone]
  rfl

theorem drain_oldestFirst (h : Host) : ∀ e ∈ (h.drain : List (HostEvent Rng)), OldestFirst e := by
  intro e he
  rcases List.mem_append.mp he with he | he
  · rw [List.eq_of_mem_replicate he]
    rfl
  · rw [List.eq_of_mem_replicate he]
    exact ⟨rfl, rfl⟩

/-- **Served oldest first, a host can be brought to rest from any state, and is settled there.** -/
theorem oldest_first_settles {Constraints : Type} {P C T : Nat} {endpoint : Option String}
    {instanceCtx : Pb.InstanceContext} {sysCoreIds sysCoresUsage sysCoresHardIsolate : Option String}
    {service : RemoteService Rng Constraints} {random : RandomSource Rng} {fallbackQueueDepth : Int}
    {configManager : ConfigManager String}
    (hbuild : getFallbackAllocator random
      ((GrpcRemoteIsolationAllocator.init endpoint instanceCtx P C T sysCoreIds sysCoresUsage
        sysCoresHardIsolate).map (fun a => a.toCpuAllocator service))
      fallbackQueueDepth configManager = .ok allocator)
    {kernel : String → String} (hkernel : ShowsWritten kernel) {cpu : Cpu}
    (hthreads : DistinctThreads cpu) (hclear : ∀ u, ¬ Claimed cpu u) (instanceId : Option String)
    (files : Files) (events : List (HostEvent Rng)) (hfirst : ∀ e ∈ events, OldestFirst e) :
    Run.Always (Host.step allocator reportCpuEvent)
      (fun h => (h.atRest allocator reportCpuEvent).Quiet
        ∧ (h.atRest allocator reportCpuEvent).Settled allocator kernel)
      (init (WorkloadManager.init instanceId cpu) files) events := by
  have htruth := configured_truthful hbuild
  have hinv : Run.Always (Host.step allocator reportCpuEvent)
      (fun h => h.Consistent ∧ h.world.Fifo) (init (WorkloadManager.init instanceId cpu) files)
      events :=
    Run.always_of_step (consistent_fifo_step htruth)
      ⟨consistent_init hthreads hclear instanceId files, FileWorld.fifo_init files⟩
      (Run.eachStep_of_mem (fun _ => hfirst))
  refine hinv.mono ?_
  intro h hcons
  have hrest : (h.atRest allocator reportCpuEvent).Consistent
      ∧ (h.atRest allocator reportCpuEvent).world.Fifo := by
    unfold atRest
    refine Run.exec_of_mem (I := fun h : Host => h.Consistent ∧ h.world.Fifo) ?_ hcons
    intro h' e he hcons'
    exact consistent_fifo_step htruth h' e hcons' (drain_oldestFirst h e he)
  exact ⟨atRest_quiet h, hrest.1.settled (atRest_quiet h) hkernel⟩

end

theorem oldest_first_settles_greedy :
    Run.Always (Host.step (fallbackCpuAllocator 20 (greedyCpuAllocator Unit)
        (naiveCpuAllocator RandomSource.reversing)) (fun _ _ _ => .ok ()))
      (fun h => (h.atRest (fallbackCpuAllocator 20 (greedyCpuAllocator Unit)
            (naiveCpuAllocator RandomSource.reversing)) (fun _ _ _ => .ok ())).Quiet
        ∧ (h.atRest (fallbackCpuAllocator 20 (greedyCpuAllocator Unit)
            (naiveCpuAllocator RandomSource.reversing)) (fun _ _ _ => .ok ())).Settled
          (fallbackCpuAllocator 20 (greedyCpuAllocator Unit)
            (naiveCpuAllocator RandomSource.reversing)) cpulist)
      (init (WorkloadManager.init none Config.twoThreads) (fun _ _ => none)) placeOne :=
  oldest_first_settles greedyConfig_builds cpulist_showsWritten twoThreads_distinct
    twoThreads_unclaimed none _ placeOne placeOne_oldestFirst

end Host

end TitusIsolate
