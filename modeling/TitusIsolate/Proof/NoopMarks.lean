import Mathlib.Data.Fintype.EquivFin
import TitusIsolate.Isolate.Configured
import TitusIsolate.Lib.Raising
import TitusIsolate.Proof.Fallback
import TitusIsolate.Proof.Isolate
import TitusIsolate.Proof.Marks

/-!
# Noop behind the fallback

Noop answers with the CPU it was given, so a workload gets an allocation, and with it a
mark, only when the CPU claimed a thread for it from the start. `is_isolated` makes up for
that by asking whether the allocator is a `NoopCpuAllocator`. The allocator that the
process builds never is one: it is the fallback around it.

Served by the primary, the two managers go through the same states, and differ in the
answer alone.
-/

namespace TitusIsolate

open Raising

/-! ## Marks of some containers only -/

namespace FileWorld

/-- What is marked, or may come to be by a write in flight, satisfies `p`. -/
structure MarksOnly (p : WorkloadId → Prop) (s : FileWorld) : Prop where
  marked : ∀ u ∈ s.manager.isolatedWorkloadIds, p u
  inFlight : ∀ t ∈ s.manager.threads, p t.write.container

/-- The write of a call, if it makes one, is for a container that satisfies `p`. -/
def WritesOnly (p : WorkloadId → Prop) (c : CgroupCall) : Prop :=
  ∀ w, c.write = some w → p w.container

variable {p : WorkloadId → Prop}

/-- A step whose call writes for such a container marks no other. -/
theorem MarksOnly.step {s : FileWorld} (h : MarksOnly p s) (e : FileEvent)
    (hcall : ∀ c ok, e = .call c ok → WritesOnly p c) : MarksOnly p (s.step e) where
  marked := by
    intro u hu
    rcases (mem_isolated_step s e u).mp hu with ⟨w, hlands, rfl⟩ | ⟨hold, _⟩
    · cases e with
      | call c ok =>
        have hfor := lands_call_container hlands
        unfold FileEvent.callsFor at hfor
        obtain ⟨w', hw', hcontainer⟩ := Option.map_eq_some_iff.mp hfor
        exact hcontainer ▸ hcall c ok rfl w' hw'
      | complete i ok =>
        simp only [lands] at hlands
        split at hlands
        · obtain ⟨t, ht, rfl⟩ := Option.map_eq_some_iff.mp hlands
          exact h.inFlight t (List.mem_of_getElem? ht)
        · exact absurd hlands (by simp)
    · exact h.marked u hold
  inFlight := by
    intro t ht
    rcases step_cases s e with ⟨c, ok, rfl, hs⟩ | ⟨c, ok, w, rfl, hw, _, hs⟩
      | ⟨c, ok, w, rfl, hw, _, hs⟩ | ⟨i, ok, t', rfl, _, hs⟩ | ⟨i, ok, rfl, _, hs⟩
    · rw [hs] at ht
      exact h.inFlight t ht
    · -- the call's own write joins those in flight
      rw [hs] at ht
      rcases List.mem_append.mp ht with ht | ht
      · exact h.inFlight t ht
      · obtain rfl := List.mem_singleton.mp ht
        exact hcall c ok rfl w hw
    · rw [hs, threads_set] at ht
      exact h.inFlight t ht
    · rw [hs, threads_set] at ht
      exact h.inFlight t (mem_endThread ht)
    · rw [hs] at ht
      exact h.inFlight t ht

end FileWorld

/-! ## One call of isolate -/

section

variable {Rng : Type}
  (reportCpuEvent : Ambient Rng → AllocateRequest → AllocateResponse → Except PyError Unit)

theorem allocationCalls_container {a : WorkloadAllocateResponse} {c : CgroupCall} {w : Write}
    (hc : c ∈ WorkloadManager.allocationCalls a) (hw : c.write = some w) :
    w.container = a.workloadId := by
  unfold WorkloadManager.allocationCalls at hc
  simp only [List.mem_cons, List.not_mem_nil, or_false] at hc
  rcases hc with rfl | rfl | rfl | rfl | rfl | rfl <;>
    exact congrArg Write.container (Option.some.inj hw).symm

/-- Noop keeps the CPU, and what is written is for workloads that hold a thread on it. -/
theorem isolate_noop (wm : WorkloadManager) (call : IsolateCall Rng) :
    (wm.isolate (noopCpuAllocator Rng) reportCpuEvent call).manager.cpu = wm.cpu
      ∧ ∀ c ∈ (wm.isolate (noopCpuAllocator Rng) reportCpuEvent call).cgroupCalls,
          FileWorld.WritesOnly (Claimed wm.cpu) c := by
  have hinstalled := isolate_of_ok reportCpuEvent
    (show ((noopCpuAllocator Rng).isolate call.ambient (wm.requestFor call)).result = .ok _ from rfl)
  refine ⟨hinstalled.cpu, ?_⟩
  intro c hc w hw
  rw [hinstalled.cgroupCalls] at hc
  rcases List.mem_append.mp hc with hc | hc
  · -- a release writes nothing
    obtain ⟨u, _, rfl⟩ := List.mem_map.mp hc
    exact absurd hw (by simp [CgroupCall.write])
  · obtain ⟨a, ha, hc⟩ := List.mem_flatMap.mp hc
    split at hc
    · exact absurd hc List.not_mem_nil
    · obtain ⟨v, _, hthreads, rfl⟩ := mem_getWorkloadAllocations.mp ha
      rw [allocationCalls_container hc hw]
      exact claimed_iff_getThreads.mpr hthreads

/-- A call goes by what its allocator makes of the request. -/
theorem isolate_congr {allocator allocator' : CpuAllocator Rng} {wm : WorkloadManager}
    {call : IsolateCall Rng}
    (h : allocator.isolate call.ambient (wm.requestFor call)
      = allocator'.isolate call.ambient (wm.requestFor call)) :
    wm.isolate allocator reportCpuEvent call = wm.isolate allocator' reportCpuEvent call := by
  unfold WorkloadManager.isolate
  simp only [h]

/-! ## Runs -/

namespace Host

/-- A call of `isolate` is not turned away from the primary by the depth of the queue. -/
def ServedByPrimary (fallbackQueueDepth : Int) : HostEvent Rng → Prop
  | .isolate call =>
      FallbackCpuAllocator.shouldFallbackImmediately fallbackQueueDepth call.ambient = .ok ()
  | .advance _ => True
  | .complete _ _ => True

/-- Around Noop, the fallback takes the same step as Noop itself. -/
theorem step_fallback_noop {fallbackQueueDepth : Int} {secondary : CpuAllocator Rng} (h : Host)
    {e : HostEvent Rng} (hserved : ServedByPrimary fallbackQueueDepth e) :
    h.step (fallbackCpuAllocator fallbackQueueDepth (noopCpuAllocator Rng) secondary)
        reportCpuEvent e
      = h.step (noopCpuAllocator Rng) reportCpuEvent e := by
  cases e with
  | isolate call =>
    have hanswer : ((noopCpuAllocator Rng).isolate call.ambient (h.wm.requestFor call)).result
        = .ok _ := rfl
    have hfallback : (fallbackCpuAllocator fallbackQueueDepth (noopCpuAllocator Rng)
        secondary).isolate call.ambient (h.wm.requestFor call)
          = (noopCpuAllocator Rng).isolate call.ambient (h.wm.requestFor call) :=
      fallback_primary hserved hanswer
    simp only [step, isolate_congr reportCpuEvent hfallback]
  | advance ok => rfl
  | complete i ok => rfl

/-- The CPU is the one the process started with, and every mark, made or to come, is of a
workload that had claimed a thread of it. -/
structure NoopInv (cpu : Cpu) (h : Host) : Prop where
  wm : h.wm.cpu = cpu
  inCall : ∀ calls wm, h.inCall = some (calls, wm) →
    wm.cpu = cpu ∧ ∀ c ∈ calls, FileWorld.WritesOnly (Claimed cpu) c
  world : FileWorld.MarksOnly (Claimed cpu) h.world

theorem noopInv_init (instanceId : Option String) (cpu : Cpu) (files : Files) :
    NoopInv cpu (init (WorkloadManager.init instanceId cpu) files) where
  wm := rfl
  inCall := fun _ _ h => absurd h (by simp [init])
  world := ⟨fun u hu => absurd hu (by simp [init, FileWorld.init, FileCgroupManager.init]),
    fun t ht => absurd ht (by simp [init, FileWorld.init, FileCgroupManager.init])⟩

theorem noopInv_step {cpu : Cpu} {h : Host} (e : HostEvent Rng) (hinv : NoopInv cpu h) :
    NoopInv cpu (h.step (noopCpuAllocator Rng) reportCpuEvent e) := by
  rcases h.step_cases (noopCpuAllocator Rng) reportCpuEvent e with ⟨hs, _⟩
    | ⟨call, rfl, _, hs⟩ | ⟨ok, wm, rfl, hin, hs⟩ | ⟨ok, c, cs, wm, rfl, hin, hs⟩
    | ⟨i, ok, rfl, hs⟩
  · rw [hs]
    exact hinv
  · -- the call that begins will keep the CPU
    obtain ⟨hcpu, hcalls⟩ := isolate_noop reportCpuEvent h.wm call
    rw [hinv.wm] at hcpu hcalls
    rw [hs]
    refine ⟨hinv.wm, ?_, hinv.world⟩
    rintro calls wm heq
    obtain ⟨rfl, rfl⟩ := Prod.mk.inj (Option.some.inj heq)
    exact ⟨hcpu, hcalls⟩
  · rw [hs]
    exact ⟨(hinv.inCall [] wm hin).1, fun _ _ heq => absurd heq (by simp), hinv.world⟩
  · obtain ⟨hcpu, hcalls⟩ := hinv.inCall (c :: cs) wm hin
    rw [hs]
    refine ⟨hinv.wm, ?_, hinv.world.step (.call c ok) ?_⟩
    · rintro calls wm' heq
      obtain ⟨rfl, rfl⟩ := Prod.mk.inj (Option.some.inj heq)
      exact ⟨hcpu, fun c' hc' => hcalls c' (List.mem_cons_of_mem _ hc')⟩
    · rintro c' ok' heq
      cases heq
      exact hcalls c (by simp)
  · rw [hs]
    exact ⟨hinv.wm, hinv.inCall, hinv.world.step (.complete i ok) (fun c ok' heq => by cases heq)⟩

/-- On every CPU some workload claims nothing. -/
theorem exists_not_claimed (cpu : Cpu) : ∃ u, ¬ Claimed cpu u := by
  obtain ⟨u, hu⟩ := Infinite.exists_notMem_finset
    (cpu.getThreads.flatMap Thread.workloadIds).toFinset
  refine ⟨u, ?_⟩
  rintro ⟨t, ht, hmem⟩
  exact hu (List.mem_toFinset.mpr (List.mem_flatMap.mpr ⟨t, ht, hmem⟩))

/-- A manager given Noop itself says yes for every id. -/
theorem isIsolated_noop (h : Host) (u : WorkloadId) :
    h.isIsolated (noopCpuAllocator Rng) u = true := rfl

/-- With Noop configured as the primary, the fallback is built around it. -/
theorem getFallbackAllocator_noop {random : RandomSource Rng}
    {remote : Except PyError (CpuAllocator Rng)} {fallbackQueueDepth : Int}
    {configManager : ConfigManager String} {allocator : CpuAllocator Rng}
    (hprimary : configManager.getStr cpuAllocatorProperty none = some AllocatorClass.noop.configName)
    (hbuilt : getFallbackAllocator random remote fallbackQueueDepth configManager = .ok allocator) :
    ∃ secondary,
      allocator = fallbackCpuAllocator fallbackQueueDepth (noopCpuAllocator Rng) secondary := by
  obtain ⟨primary, hnoop, hbuilt⟩ := bind_eq_ok.mp hbuilt
  obtain ⟨secondary, _, hbuilt⟩ := bind_eq_ok.mp hbuilt
  rw [hprimary] at hnoop
  obtain rfl : noopCpuAllocator Rng = primary := Except.ok.inj hnoop
  exact ⟨secondary, (Except.ok.inj hbuilt).symm⟩

/--
**Configured as Noop, the manager says no.** Whatever the secondary, and as long as the
primary serves the calls, no id is reported isolated throughout a run. Every id that has
claimed no thread of the initial CPU is refused in every state, while a manager given Noop
itself goes through the same states and never refuses.
-/
theorem noop_configured_refuses (random : RandomSource Rng)
    (remote : Except PyError (CpuAllocator Rng)) (fallbackQueueDepth : Int)
    (configManager : ConfigManager String) {allocator : CpuAllocator Rng}
    (hprimary : configManager.getStr cpuAllocatorProperty none = some AllocatorClass.noop.configName)
    (hbuilt : getFallbackAllocator random remote fallbackQueueDepth configManager = .ok allocator)
    (instanceId : Option String) (cpu : Cpu) (files : Files) (events : List (HostEvent Rng))
    (hserved : ∀ e ∈ events, ServedByPrimary fallbackQueueDepth e) :
    (∀ u, ¬ Run.Always (Host.step allocator reportCpuEvent)
        (fun h => h.isIsolated allocator u = true)
        (Host.init (WorkloadManager.init instanceId cpu) files) events)
      ∧ Run.Always (Host.step allocator reportCpuEvent)
          (fun h => (∃ u, h.isIsolated allocator u = false)
            ∧ ∀ u, (¬ Claimed cpu u → h.isIsolated allocator u = false)
              ∧ h.isIsolated (noopCpuAllocator Rng) u = true)
          (Host.init (WorkloadManager.init instanceId cpu) files) events
      ∧ Run.exec (Host.step allocator reportCpuEvent)
            (Host.init (WorkloadManager.init instanceId cpu) files) events
          = Run.exec (Host.step (noopCpuAllocator Rng) reportCpuEvent)
            (Host.init (WorkloadManager.init instanceId cpu) files) events := by
  obtain ⟨secondary, rfl⟩ := getFallbackAllocator_noop hprimary hbuilt
  have hstep : ∀ h : Host, ∀ e ∈ events,
      h.step (fallbackCpuAllocator fallbackQueueDepth (noopCpuAllocator Rng) secondary)
          reportCpuEvent e
        = h.step (noopCpuAllocator Rng) reportCpuEvent e :=
    fun h e he => step_fallback_noop reportCpuEvent h (hserved e he)
  refine ⟨?_, ?_, Run.exec_congr hstep _⟩
  · -- nothing is marked at the start
    intro u halways
    have hmarked := (isIsolated_iff (by rfl) _ u).mp halways.head
    exact absurd hmarked (by simp [init, FileWorld.init, FileCgroupManager.init])
  · rw [Run.always_congr hstep]
    have hinv : Run.Always (Host.step (noopCpuAllocator Rng) reportCpuEvent) (NoopInv cpu)
        (init (WorkloadManager.init instanceId cpu) files) events :=
      Run.always_of_step (C := fun _ _ => True)
        (fun h e hinv _ => noopInv_step reportCpuEvent e hinv) (noopInv_init instanceId cpu files)
        (Run.eachStep_of_mem (fun _ _ _ => trivial))
    refine hinv.mono ?_
    intro h hinv
    have hrefused : ∀ u, ¬ Claimed cpu u → h.isIsolated (fallbackCpuAllocator fallbackQueueDepth
        (noopCpuAllocator Rng) secondary) u = false := by
      intro u hclaimed
      by_contra hisolated
      rw [Bool.not_eq_false] at hisolated
      have hmarked := (isIsolated_iff (by rfl) h u).mp hisolated
      exact hclaimed (hinv.world.marked u hmarked)
    obtain ⟨v, hv⟩ := exists_not_claimed cpu
    exact ⟨⟨v, hrefused v hv⟩, fun u => ⟨hrefused u, isIsolated_noop h u⟩⟩

/-- A process with Noop configured and nothing else. -/
def noopConfig : ConfigManager String where
  properties := fun k => if k = cpuAllocatorProperty then some "NOOP" else none
  cachedStr := OrderedDict.empty

/-- Workload `a` is added, and its call of `isolate` ends. -/
def addOne : List (HostEvent Unit) :=
  [.isolate ⟨Ambient.unset (), [⟨"a", "job", 1⟩], []⟩, .advance true]

theorem noop_configured_refuses_one :
    Run.Always (Host.step (fallbackCpuAllocator 20 (noopCpuAllocator Unit)
        (naiveCpuAllocator RandomSource.reversing)) (fun _ _ _ => .ok ()))
      (fun h => (∃ u, h.isIsolated (fallbackCpuAllocator 20 (noopCpuAllocator Unit)
            (naiveCpuAllocator RandomSource.reversing)) u = false)
          ∧ ∀ u, (¬ Claimed Config.twoThreads u → h.isIsolated (fallbackCpuAllocator 20
              (noopCpuAllocator Unit) (naiveCpuAllocator RandomSource.reversing)) u = false)
            ∧ h.isIsolated (noopCpuAllocator Unit) u = true)
      (Host.init (WorkloadManager.init none Config.twoThreads) (fun _ _ => none)) addOne := by
  refine (noop_configured_refuses (fun _ _ _ => .ok ()) RandomSource.reversing
    (.error (.exception "Could not get remote allocator endpoint address.")) 20 noopConfig rfl rfl
    none Config.twoThreads (fun _ _ => none) addOne ?_).2.1
  intro e he
  simp only [addOne, List.mem_cons, List.not_mem_nil, or_false] at he
  rcases he with rfl | rfl
  · rfl
  · trivial

/-- `a` has been added and its call has ended, and `a` is refused. -/
theorem noop_configured_refuses_a :
    ∃ allocator, getFallbackAllocator RandomSource.reversing
          (.error (.exception "Could not get remote allocator endpoint address.")) 20 noopConfig
        = .ok allocator
      ∧ (Run.exec (Host.step allocator (fun _ _ _ => .ok ()))
            (Host.init (WorkloadManager.init none Config.twoThreads) (fun _ _ => none))
            addOne).inCall.isNone
      ∧ (Run.exec (Host.step allocator (fun _ _ _ => .ok ()))
            (Host.init (WorkloadManager.init none Config.twoThreads) (fun _ _ => none))
            addOne).isIsolated allocator "a" = false :=
  ⟨_, rfl, by decide +kernel, by decide +kernel⟩

end Host

end

end TitusIsolate
