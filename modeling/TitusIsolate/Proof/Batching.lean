import TitusIsolate.Event.Batch
import TitusIsolate.Lib.LastWhere
import TitusIsolate.Model.Config
import TitusIsolate.Proof.Isolate

/-!
# What a batch does to the set of workloads

A batch keeps which containers were started and which died but not in which order,
and `isolate` removes before it adds. So the batch that mentions a container last
decides: the container is held exactly when that batch starts it, wherever in the
batch. Processing events one at a time, the last event about it decides. The two
differ exactly on a container whose last event is a die that shares its batch with
a start.
-/

namespace TitusIsolate

/-- The event is a start or die of the container. -/
def Event.isAbout (x : WorkloadId) : Event → Bool
  | .container e => decide (e.getContainerName = x)
  | .internal _ => false

/-- The event starts the container. -/
def Event.isStartOf (x : WorkloadId) : Event → Bool
  | .container e => decide (e.getContainerName = x ∧ e.action = .start)
  | .internal _ => false

/-- The event is the container's die. -/
def Event.isDieOf (x : WorkloadId) : Event → Bool
  | .container e => decide (e.getContainerName = x ∧ e.action = .die)
  | .internal _ => false

/-- The workload of every container the delivery starts can be constructed. -/
def Delivery.Constructible {Rng : Type} (d : Delivery Rng) : Prop :=
  ∀ x, d.events.any (Event.isStartOf x) = true →
    x ≠ "" ∧ ∃ w, d.getWorkload x = some w ∧ w.taskId = x

/-- The allocator never raises. -/
def CpuAllocator.NeverFails {Rng : Type} (allocator : CpuAllocator Rng) : Prop :=
  ∀ ambient request, ∃ response, (allocator.isolate ambient request).result = .ok response

theorem Event.isAbout_eq (x : WorkloadId) (e : Event) :
    e.isAbout x = (e.isStartOf x || e.isDieOf x) := by
  cases e with
  | internal a => rfl
  | container e =>
    obtain ⟨action, attributes⟩ := e
    cases action with
    | start => simp [isAbout, isStartOf, isDieOf]
    | die => simp [isAbout, isStartOf, isDieOf]

theorem any_isAbout (events : List Event) (x : WorkloadId) :
    events.any (Event.isAbout x)
      = (events.any (Event.isStartOf x) || events.any (Event.isDieOf x)) := by
  induction events with
  | nil => rfl
  | cons e events ih =>
    rw [List.any_cons, List.any_cons, List.any_cons, ih, e.isAbout_eq]
    ac_rfl

section

variable {Rng : Type} {allocator : CpuAllocator Rng}
  {reportCpuEvent : Ambient Rng → AllocateRequest → AllocateResponse → Except PyError Unit}

/-! ## One batch -/

theorem mem_batchAdds {d : Delivery Rng} (hd : d.Constructible) {x : WorkloadId} :
    x ∈ (batchAdds d.getWorkload
        (getContainerBatchEvent (getContainerEvents d.events)).starts).map Workload.taskId
      ↔ d.events.any (Event.isStartOf x) = true := by
  simp only [batchAdds, getContainerBatchEvent, getContainerEvents, List.mem_map,
    List.mem_filterMap, List.mem_filter, List.any_eq_true]
  refine ⟨?_, ?_⟩
  · -- an added workload carries the name of the container that was started
    intro h
    obtain ⟨w, ⟨e, ⟨⟨ev, hev, he⟩, hstart⟩, hw⟩, rfl⟩ := h
    cases ev with
    | internal a => exact absurd he (by simp)
    | container e' =>
      obtain rfl := Option.some.inj he
      have hact : e'.action = .start := by simpa using hstart
      have hself : d.events.any (Event.isStartOf e'.getContainerName) = true :=
        List.any_eq_true.mpr ⟨_, hev, by simp [Event.isStartOf, hact]⟩
      obtain ⟨hne, v, hv, hid⟩ := hd _ hself
      rw [if_neg hne, hv] at hw
      obtain rfl := Option.some.inj hw
      exact ⟨_, hev, by simp [Event.isStartOf, hact, hid]⟩
  · intro h
    obtain ⟨ev, hev, hstart⟩ := h
    obtain ⟨hne, w, hw, hid⟩ := hd x (List.any_eq_true.mpr ⟨ev, hev, hstart⟩)
    cases ev with
    | internal a => exact absurd hstart (by simp [Event.isStartOf])
    | container e =>
      obtain ⟨hname, hact⟩ := of_decide_eq_true hstart
      refine ⟨w, ⟨e, ⟨⟨_, hev, rfl⟩, by simpa using hact⟩, ?_⟩, hid⟩
      rw [if_neg (by rw [hname]; exact hne), hname, hw]

theorem mem_batchRemoves {events : List Event} {x : WorkloadId} :
    x ∈ batchRemoves (getContainerBatchEvent (getContainerEvents events)).dies
      ↔ events.any (Event.isDieOf x) = true := by
  simp only [batchRemoves, getContainerBatchEvent, getContainerEvents, List.mem_map,
    List.mem_filterMap, List.mem_filter, List.any_eq_true]
  refine ⟨?_, ?_⟩
  · intro h
    obtain ⟨e, ⟨⟨ev, hev, he⟩, hdie⟩, rfl⟩ := h
    cases ev with
    | internal a => exact absurd he (by simp)
    | container e' =>
      obtain rfl := Option.some.inj he
      exact ⟨_, hev, by simpa [Event.isDieOf] using hdie⟩
  · intro h
    obtain ⟨ev, hev, hdie⟩ := h
    cases ev with
    | internal a => exact absurd hdie (by simp [Event.isDieOf])
    | container e =>
      obtain ⟨hname, hact⟩ := of_decide_eq_true hdie
      exact ⟨e, ⟨⟨_, hev, rfl⟩, by simpa using hact⟩, hname⟩

/-- Rebalancing changes no workload. -/
theorem handleInternal_workloads (hok : allocator.NeverFails) (wm : WorkloadManager)
    (d : Delivery Rng) (a : InternalAction) :
    (handleInternal allocator reportCpuEvent wm d a).workloads = wm.workloads := by
  cases a with
  | rebalance =>
    obtain ⟨response, hresponse⟩ := hok d.ambient (wm.requestFor ⟨d.ambient, [], []⟩)
    exact (isolate_of_ok _ hresponse).workloads
  | reconcile => rfl
  | predictUsage => rfl

theorem foldl_handleInternal_workloads (hok : allocator.NeverFails) (d : Delivery Rng)
    (actions : List InternalAction) (wm : WorkloadManager) :
    (actions.foldl (fun wm a => handleInternal allocator reportCpuEvent wm d a) wm).workloads
      = wm.workloads := by
  induction actions generalizing wm with
  | nil => rfl
  | cons a actions ih => rw [List.foldl_cons, ih, handleInternal_workloads hok]

/-- **One batch**: what it starts is held, what it otherwise mentions is not, and the
rest stays. -/
theorem mem_keys_processBatch (hok : allocator.NeverFails) {d : Delivery Rng}
    (hd : d.Constructible) {wm : WorkloadManager} {x : WorkloadId} :
    x ∈ (processBatch allocator reportCpuEvent wm d).workloads.keys
      ↔ d.events.any (Event.isStartOf x) = true
        ∨ (d.events.any (Event.isAbout x) = false ∧ x ∈ wm.workloads.keys) := by
  unfold processBatch
  simp only [foldl_handleInternal_workloads hok]
  split
  · rename_i hlen
    obtain ⟨response, hresponse⟩ := hok d.ambient (wm.requestFor
      ⟨d.ambient,
        batchAdds d.getWorkload (getContainerBatchEvent (getContainerEvents d.events)).starts,
        batchRemoves (getContainerBatchEvent (getContainerEvents d.events)).dies⟩)
    unfold handleContainerBatch
    rw [(isolate_of_ok _ hresponse).workloads, mem_keys_newWorkloads, mem_batchAdds hd,
      mem_batchRemoves]
    rw [any_isAbout]
    by_cases hs : d.events.any (Event.isStartOf x) = true
    · simp [hs]
    · simp [hs]
  · rename_i hlen
    -- no start or die in the batch
    have hnil : getContainerEvents d.events = [] := List.eq_nil_of_length_eq_zero (by omega)
    have hnone : ∀ e ∈ d.events, e.isAbout x = false := by
      intro e he
      cases e with
      | internal a => rfl
      | container e =>
        have : e ∈ getContainerEvents d.events := List.mem_filterMap.mpr ⟨_, he, rfl⟩
        rw [hnil] at this
        exact absurd this (by simp)
    have habout : d.events.any (Event.isAbout x) = false := by
      rw [List.any_eq_false]
      intro e he
      simp [hnone e he]
    have hstart := habout
    rw [any_isAbout, Bool.or_eq_false_iff] at hstart
    rw [hstart.1, habout]
    simp

/-! ## A sequence of batches -/

/-- **The last batch that mentions a container decides.** -/
theorem mem_keys_processBatches (hok : allocator.NeverFails) {x : WorkloadId} :
    ∀ {ds : List (Delivery Rng)} {wm : WorkloadManager}, (∀ d ∈ ds, d.Constructible) →
      (x ∈ (processBatches allocator reportCpuEvent wm ds).workloads.keys
        ↔ match lastWhere (fun b => b.any (Event.isAbout x)) (ds.map Delivery.events) with
          | none => x ∈ wm.workloads.keys
          | some b => b.any (Event.isStartOf x) = true) := by
  intro ds
  induction ds with
  | nil => intro wm _; rfl
  | cons d ds ih =>
    intro wm hds
    have hrest := @ih (processBatch allocator reportCpuEvent wm d)
      (fun e he => hds e (List.mem_cons_of_mem _ he))
    rw [processBatches, List.foldl_cons]
    rw [processBatches] at hrest
    rw [hrest, List.map_cons, lastWhere]
    cases lastWhere (fun b => b.any (Event.isAbout x)) (ds.map Delivery.events) with
    -- a later batch mentions the container
    | some b => rfl
    | none =>
      dsimp only
      rw [mem_keys_processBatch hok (hds d (by simp))]
      by_cases habout : d.events.any (Event.isAbout x) = true
      · simp [habout]
      · have hstart := habout
        rw [any_isAbout, Bool.not_eq_true, Bool.or_eq_false_iff] at hstart
        simp [habout, hstart.1]

/-- The events of some batches, each delivered in a batch of its own. -/
def OneByOne (ss ds : List (Delivery Rng)) : Prop :=
  ss.map Delivery.events = (ds.flatMap Delivery.events).map (fun e => [e])

/-- One at a time, the last event about a container decides. -/
theorem mem_keys_oneByOne (hok : allocator.NeverFails) {ss ds : List (Delivery Rng)}
    {wm : WorkloadManager} (hss : ∀ d ∈ ss, d.Constructible) (hone : OneByOne ss ds)
    {x : WorkloadId} :
    x ∈ (processBatches allocator reportCpuEvent wm ss).workloads.keys
      ↔ match lastWhere (Event.isAbout x) (ds.flatMap Delivery.events) with
        | none => x ∈ wm.workloads.keys
        | some e => e.isStartOf x = true := by
  rw [mem_keys_processBatches hok hss, hone, lastWhere_map]
  have hany : (fun e => [e].any (Event.isAbout x)) = Event.isAbout x := by
    funext e
    simp
  rw [hany]
  cases lastWhere (Event.isAbout x) (ds.flatMap Delivery.events) with
  | none => rfl
  | some e => simp

/-- No container whose last event is a die has a start in the batch that mentions it
last. -/
def DiesUnshared (batches : List (List Event)) : Prop :=
  ∀ x e, lastWhere (Event.isAbout x) batches.flatten = some e → e.isDieOf x = true →
    ∀ b, lastWhere (fun b => b.any (Event.isAbout x)) batches = some b →
      b.any (Event.isStartOf x) = false

/-- Then the last batch about a container has a start of it exactly when the last event is
one. -/
theorem any_isStartOf_lastBatch {batches : List (List Event)} (h : DiesUnshared batches)
    {x : WorkloadId} {b : List Event} {e : Event}
    (hb : lastWhere (fun b => b.any (Event.isAbout x)) batches = some b)
    (he : lastWhere (Event.isAbout x) b = some e) :
    b.any (Event.isStartOf x) = e.isStartOf x := by
  obtain ⟨hmem, habout⟩ := lastWhere_mem he
  have hlast : lastWhere (Event.isAbout x) batches.flatten = some e := by
    rw [lastWhere_flatten, hb, Option.bind_some, he]
  cases hdie : e.isDieOf x with
  | true =>
    have hnone := h x e hlast hdie b hb
    have hstart : e.isStartOf x = false := by
      simpa using List.any_eq_false.mp hnone e hmem
    rw [hnone, hstart]
  | false =>
    rw [e.isAbout_eq, hdie, Bool.or_false] at habout
    rw [habout]
    exact List.any_eq_true.mpr ⟨e, hmem, habout⟩

/-- **Batching is invisible exactly when no final die shares its batch with a start.** -/
theorem batching_invisible_iff (hok : allocator.NeverFails) {ss ds : List (Delivery Rng)}
    (wm : WorkloadManager) (hds : ∀ d ∈ ds, d.Constructible) (hss : ∀ d ∈ ss, d.Constructible)
    (hone : OneByOne ss ds) :
    ((∀ x, x ∈ (processBatches allocator reportCpuEvent wm ds).workloads.keys
          ↔ x ∈ (processBatches allocator reportCpuEvent wm ss).workloads.keys)
        ∧ ∀ x e, lastWhere (Event.isAbout x) (ds.flatMap Delivery.events) = some e →
            e.isDieOf x = true →
            x ∉ (processBatches allocator reportCpuEvent wm ds).workloads.keys)
      ↔ DiesUnshared (ds.map Delivery.events) := by
  have hflat : (ds.map Delivery.events).flatten = ds.flatMap Delivery.events := rfl
  refine ⟨?_, ?_⟩
  · intro h x e hlast he b hb
    obtain ⟨_, hdie⟩ := h
    rw [hflat] at hlast
    have hnot := hdie x e hlast he
    rw [mem_keys_processBatches hok hds, hb] at hnot
    simpa using hnot
  · intro hcond
    -- the last batch and the last event say the same about one container
    have hagree : ∀ x, x ∈ (processBatches allocator reportCpuEvent wm ds).workloads.keys
        ↔ x ∈ (processBatches allocator reportCpuEvent wm ss).workloads.keys := by
      intro x
      rw [mem_keys_processBatches hok hds, mem_keys_oneByOne hok hss hone, ← hflat,
        lastWhere_flatten]
      cases hb : lastWhere (fun b => b.any (Event.isAbout x)) (ds.map Delivery.events) with
      | none => rfl
      | some b =>
        obtain ⟨e, he⟩ := exists_lastWhere_of_any (lastWhere_mem hb).2
        rw [Option.bind_some, he]
        dsimp only
        rw [any_isStartOf_lastBatch hcond hb he]
    refine ⟨hagree, ?_⟩
    intro x e hlast he
    rw [hagree, mem_keys_oneByOne hok hss hone, hlast]
    cases e with
    | internal a => exact absurd he (by simp [Event.isDieOf])
    | container e =>
      obtain ⟨_, hact⟩ := of_decide_eq_true he
      simp [Event.isStartOf, hact]

end

/-! ## A start and a die -/

/-- A docker event that carries the container's name. -/
def namedEvent (action : ContainerAction) (x : WorkloadId) : Event :=
  .container ⟨action, OrderedDict.empty.insert "name" x⟩

/-- Events as they are delivered when every container's pod asks for one thread. -/
def deliver (events : List Event) : Delivery Unit :=
  ⟨events, Ambient.unset (), fun x => some ⟨x, "job", 1⟩⟩

theorem noop_neverFails (Rng : Type) : (noopCpuAllocator Rng).NeverFails :=
  fun _ _ => ⟨_, rfl⟩

theorem deliver_constructible {events : List Event}
    (h : events.any (Event.isStartOf "") = false) : (deliver events).Constructible := by
  intro x hx
  refine ⟨?_, ⟨x, "job", 1⟩, rfl, rfl⟩
  intro heq
  subst heq
  exact absurd hx (by simpa [deliver] using h)

/-- `a` starts and dies, both events in one batch. -/
def startDieShared : List (Delivery Unit) :=
  [deliver [namedEvent .start "a", namedEvent .die "a"]]

/-- `a` starts and dies, each event in a batch of its own. -/
def startDieApart : List (Delivery Unit) :=
  [deliver [namedEvent .start "a"], deliver [namedEvent .die "a"]]

/-- The two ways of delivering one life of `a`. -/
theorem batching_invisible_iff_startDie :
    ((∀ x, x ∈ (processBatches (noopCpuAllocator Unit) (fun _ _ _ => .ok ())
            (WorkloadManager.init none Config.twoThreads) startDieShared).workloads.keys
          ↔ x ∈ (processBatches (noopCpuAllocator Unit) (fun _ _ _ => .ok ())
            (WorkloadManager.init none Config.twoThreads) startDieApart).workloads.keys)
        ∧ ∀ x e, lastWhere (Event.isAbout x) (startDieShared.flatMap Delivery.events) = some e →
            e.isDieOf x = true →
            x ∉ (processBatches (noopCpuAllocator Unit) (fun _ _ _ => .ok ())
              (WorkloadManager.init none Config.twoThreads) startDieShared).workloads.keys)
      ↔ DiesUnshared (startDieShared.map Delivery.events) := by
  refine batching_invisible_iff (noop_neverFails Unit) (WorkloadManager.init none Config.twoThreads)
    ?_ ?_ rfl
  · intro d hd
    obtain rfl := List.mem_singleton.mp hd
    exact deliver_constructible (by decide)
  · intro d hd
    rcases List.mem_cons.mp hd with rfl | hd
    · exact deliver_constructible (by decide)
    · obtain rfl := List.mem_singleton.mp hd
      exact deliver_constructible (by decide)

/-- Delivered together, the dead container stays in the map for good; delivered apart,
it is gone. -/
theorem batching_visible_startDie :
    OneByOne startDieApart startDieShared
      ∧ "a" ∈ (processBatches (noopCpuAllocator Unit) (fun _ _ _ => .ok ())
          (WorkloadManager.init none Config.twoThreads) startDieShared).workloads.keys
      ∧ "a" ∉ (processBatches (noopCpuAllocator Unit) (fun _ _ _ => .ok ())
          (WorkloadManager.init none Config.twoThreads) startDieApart).workloads.keys :=
  ⟨rfl, by decide +kernel, by decide +kernel⟩

end TitusIsolate
