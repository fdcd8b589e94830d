import TitusIsolate.Event.Handlers
import TitusIsolate.Proof.Batching
import TitusIsolate.Proof.CpuRequest
import TitusIsolate.Proof.ExactlyOnce
import TitusIsolate.Proof.Pulling

/-!
# The agent follows Docker

From a message on Docker's stream to a row of the workload table there are a reading, a
queue, a consumer that takes batches, a handler that asks for pods and an allocator. At
rest none of this shows: a container is held exactly when the last message about it says
that it started.

Two things have to be granted. A batch does not know the order of its events, so the
container must not have started and died in one batch. And where a batch is handled, the
pods of what it starts turn up within the retries and the allocator answers.
-/

namespace TitusIsolate

open Run

variable {Rng Raw Time : Type}

/-! ## Workloads from pods -/

section

variable {parseQuantity : String → Except PyError Decimal}

theorem kubernetesWorkload_taskId {pod : V1Pod PodBody} {w : Workload}
    (h : kubernetesWorkload parseQuantity pod = .ok w) : w.taskId = pod.name := by
  obtain ⟨main, _, h⟩ := Raising.bind_eq_ok.mp h
  obtain ⟨resources, _, h⟩ := Raising.bind_eq_ok.mp h
  cases hrequests : resources.requests with
  | none => rw [hrequests] at h; cases h
  | some requests =>
    rw [hrequests] at h
    obtain ⟨value, _, h⟩ := Raising.bind_eq_ok.mp h
    obtain ⟨text, _, h⟩ := Raising.bind_eq_ok.mp h
    obtain ⟨cpus, _, h⟩ := Raising.bind_eq_ok.mp h
    obtain ⟨jobId, _, h⟩ := Raising.bind_eq_ok.mp h
    cases h
    rfl

/-- The pod turns up within the retries, whenever the looking starts, and what turns up makes
a workload. -/
structure HandlerCall.Finds (parseQuantity : String → Except PyError Decimal)
    (call : HandlerCall Rng) (x : WorkloadId) : Prop where
  appears : ∃ count, call.retryCount = .ok count
    ∧ ∀ looks : Nat, ∃ i : Nat, (i : Int) < count ∧ (call.look (looks + i)).getPod x ≠ none
  constructs : ∀ looks pod, (call.look looks).getPod x = some pod →
    ∃ w, kubernetesWorkload parseQuantity pod = .ok w

theorem tryGetPod_found {look : Nat → PodManager PodBody} {x : WorkloadId}
    (hmakes : ∀ looks pod, (look looks).getPod x = some pod →
      ∃ w, kubernetesWorkload parseQuantity pod = .ok w) :
    ∀ (attempts : Nat) {looks i : Nat}, i < attempts → (look (looks + i)).getPod x ≠ none →
      ∃ w looks', tryGetPod parseQuantity look x attempts looks = (some w, looks')
        ∧ w.taskId = x := by
  intro attempts
  induction attempts with
  | zero => intro looks i hi; omega
  | succ attempts ih =>
    intro looks i hi hthere
    unfold tryGetPod
    cases hlook : (look looks).getPod x with
    | some pod =>
      obtain ⟨w, hw⟩ := hmakes looks pod hlook
      refine ⟨w, looks + 1, ?_, ?_⟩
      · dsimp only
        rw [hw]
        rfl
      · rw [kubernetesWorkload_taskId hw]
        exact PodTable.name_of_get? hlook
    | none =>
      cases i with
      | zero => exact absurd hlook hthere
      | succ i =>
        refine ih (i := i) (by omega) ?_
        rwa [Nat.add_assoc, Nat.add_comm 1 i]

theorem getWorkload_found {call : HandlerCall Rng} {x : WorkloadId}
    (h : call.Finds parseQuantity x) (looks : Nat) :
    ∃ w looks', getWorkload parseQuantity call x looks = .ok (some w, looks') ∧ w.taskId = x := by
  obtain ⟨count, hcount, happears⟩ := h.appears
  obtain ⟨i, hi, hthere⟩ := happears looks
  obtain ⟨w, looks', htry, htask⟩ :=
    tryGetPod_found h.constructs count.toNat (by omega) hthere
  refine ⟨w, looks', ?_, htask⟩
  unfold getWorkload
  rw [if_neg (by decide), hcount]
  dsimp only
  rw [htry]

/-- Where every pod is found, the workloads added are the containers started. -/
theorem startedWorkloads_found {call : HandlerCall Rng} :
    ∀ {starts : List ContainerEvent} (looks : Nat),
      (∀ start ∈ starts, start.getContainerName ≠ ""
        ∧ call.Finds parseQuantity start.getContainerName) →
      ∃ ws, startedWorkloads parseQuantity call starts looks = .ok ws
        ∧ ws.map Workload.taskId = starts.map ContainerEvent.getContainerName := by
  intro starts
  induction starts with
  | nil => intro looks _; exact ⟨[], rfl, rfl⟩
  | cons start starts ih =>
    intro looks h
    obtain ⟨hname, hfinds⟩ := h start (by simp)
    obtain ⟨w, looks', hget, htask⟩ := getWorkload_found hfinds looks
    obtain ⟨ws, hws, hids⟩ := ih looks' (fun s hs => h s (List.mem_cons_of_mem _ hs))
    refine ⟨w :: ws, ?_, ?_⟩
    · unfold startedWorkloads
      rw [if_neg hname, hget]
      dsimp only
      rw [hws]
      rfl
    · rw [List.map_cons, List.map_cons, htask, hids]

end

/-! ## What one call of a handler does to the table -/

section

variable {parseQuantity : String → Except PyError Decimal} {allocator : CpuAllocator Rng}
  {reportCpuEvent : Ambient Rng → AllocateRequest → AllocateResponse → Except PyError Unit}

/-- Whether the container is held after a handler was called, given whether it was before. -/
def keptBy (x : WorkloadId) (held : Bool) : HandlerEvent × Nat → Bool
  | (.containerBatch event, 0) =>
      decide (x ∈ event.starts.map ContainerEvent.getContainerName)
        || (held && !decide (x ∈ batchRemoves event.dies))
  | (.containerBatch _, _ + 1) => held
  | (.internal _, _) => held

/-- What is granted of a call of the container batch handler: it finds the pods of what it
starts, and the allocator answers. -/
structure Granted (parseQuantity : String → Except PyError Decimal) (allocator : CpuAllocator Rng)
    (wm : WorkloadManager) (call : HandlerCall Rng) (event : ContainerBatchEvent) : Prop where
  named : ∀ start ∈ event.starts, start.getContainerName ≠ ""
  finds : ∀ start ∈ event.starts, call.Finds parseQuantity start.getContainerName
  answers : ∀ adds, startedWorkloads parseQuantity call event.starts 0 = .ok adds → ∃ response,
    (allocator.isolate call.ambient (wm.requestFor
      { ambient := call.ambient, adds := adds, removes := batchRemoves event.dies })).result
      = .ok response

/-- Rebalancing leaves the table alone, whether or not the allocator answers. -/
theorem rebalance_workloads (wm : WorkloadManager) {call : IsolateCall Rng}
    (hadds : call.adds = []) (hremoves : call.removes = []) (x : WorkloadId) :
    x ∈ (wm.isolate allocator reportCpuEvent call).manager.workloads.keys
      ↔ x ∈ wm.workloads.keys := by
  cases hres : (allocator.isolate call.ambient (wm.requestFor call)).result with
  | error e =>
    rw [isolate_of_error hres]
    rfl
  | ok response =>
    rw [(isolate_of_ok reportCpuEvent hres).workloads, mem_keys_newWorkloads, hadds, hremoves]
    simp

variable (reportCpuEvent) in
/-- The container batch handler holds what the batch starts, and of the rest what it does not
see die. -/
theorem handleStartsAndDies_keys {wm : WorkloadManager} {call : HandlerCall Rng}
    {event : ContainerBatchEvent} (h : Granted parseQuantity allocator wm call event) :
    ∃ wm', handleStartsAndDies parseQuantity allocator reportCpuEvent wm call
        (.containerBatch event) = .ok wm'
      ∧ ∀ x, x ∈ wm'.workloads.keys
        ↔ keptBy x (decide (x ∈ wm.workloads.keys)) (.containerBatch event, 0) = true := by
  obtain ⟨adds, hadds, hids⟩ := startedWorkloads_found 0
    (fun start hstart => ⟨h.named start hstart, h.finds start hstart⟩)
  obtain ⟨response, hres⟩ := h.answers adds hadds
  refine ⟨_, by unfold handleStartsAndDies; dsimp only; rw [hadds], ?_⟩
  intro x
  rw [(isolate_of_ok reportCpuEvent hres).workloads, mem_keys_newWorkloads, hids]
  unfold keptBy
  simp only [Bool.or_eq_true, Bool.and_eq_true, Bool.not_eq_true', decide_eq_true_eq,
    decide_eq_false_iff_not]
  rw [and_comm (a := x ∉ _)]

/-- The workload manager after a call of a handler, which may have raised. -/
def managerAfter (wm : WorkloadManager) : Except PyError WorkloadManager → WorkloadManager
  | .error _ => wm
  | .ok wm' => wm'

theorem managerAfter_map (wm : WorkloadManager) (outcome : Except PyError Unit) :
    managerAfter wm (outcome.map (fun _ => wm)) = wm := by
  cases outcome with
  | error e => rfl
  | ok u => rfl

variable (reportCpuEvent) in
/-- **One call of a handler** does to the table what its event says. -/
theorem handleEventAt_keys {wm : WorkloadManager} {call : HandlerCall Rng} {event : HandlerEvent}
    {i : Nat}
    (h : ∀ batch, event = .containerBatch batch → i = 0 →
      Granted parseQuantity allocator wm call batch) (x : WorkloadId) :
    x ∈ (managerAfter wm (handleEventAt parseQuantity allocator reportCpuEvent wm call event
        i)).workloads.keys
      ↔ keptBy x (decide (x ∈ wm.workloads.keys)) (event, i) = true := by
  match i, event with
  | 0, .containerBatch batch =>
    obtain ⟨wm', hok, hkeys⟩ := handleStartsAndDies_keys reportCpuEvent (h batch rfl rfl)
    have hafter : managerAfter wm (handleEventAt parseQuantity allocator reportCpuEvent wm call
        (.containerBatch batch) 0) = wm' := by
      unfold handleEventAt
      rw [hok]
      rfl
    rw [hafter]
    exact hkeys x
  | 0, .internal _ => exact decide_eq_true_iff.symm
  | 1, .internal .rebalance =>
    exact (rebalance_workloads wm rfl rfl x).trans decide_eq_true_iff.symm
  | 1, .internal .reconcile => exact decide_eq_true_iff.symm
  | 1, .internal .predictUsage => exact decide_eq_true_iff.symm
  | 1, .containerBatch _ => exact decide_eq_true_iff.symm
  | 2, .internal .reconcile =>
    have hsame : managerAfter wm (handleEventAt parseQuantity allocator reportCpuEvent wm call
        (.internal .reconcile) 2) = wm := managerAfter_map wm call.elsewhere
    rw [hsame]
    exact decide_eq_true_iff.symm
  | 2, .internal .rebalance => exact decide_eq_true_iff.symm
  | 2, .internal .predictUsage => exact decide_eq_true_iff.symm
  | 2, .containerBatch _ => exact decide_eq_true_iff.symm
  | 3, .internal action =>
    have hsame : managerAfter wm (handleEventAt parseQuantity allocator reportCpuEvent wm call
        (.internal action) 3) = wm := managerAfter_map wm call.elsewhere
    rw [hsame]
    exact decide_eq_true_iff.symm
  | 3, .containerBatch batch =>
    have hsame : managerAfter wm (handleEventAt parseQuantity allocator reportCpuEvent wm call
        (.containerBatch batch) 3) = wm := managerAfter_map wm call.elsewhere
    rw [hsame]
    exact decide_eq_true_iff.symm
  | _ + 4, .internal _ => exact decide_eq_true_iff.symm
  | _ + 4, .containerBatch _ => exact decide_eq_true_iff.symm

end

/-! ## Batches and the stream -/

/-- Whether the container is held after a batch. -/
def keptByBatch (x : WorkloadId) (held : Bool) (batch : List Event) : Bool :=
  batch.any (Event.isStartOf x) || (held && !batch.any (Event.isDieOf x))

theorem mem_batchStarts {events : List Event} {x : WorkloadId} :
    x ∈ (getContainerBatchEvent (getContainerEvents events)).starts.map
        ContainerEvent.getContainerName
      ↔ events.any (Event.isStartOf x) = true := by
  simp only [getContainerBatchEvent, getContainerEvents, List.mem_map, List.mem_filterMap,
    List.mem_filter, List.any_eq_true]
  refine ⟨?_, ?_⟩
  · intro h
    obtain ⟨e, ⟨⟨ev, hev, he⟩, hstart⟩, rfl⟩ := h
    cases ev with
    | internal a => cases he
    | container e' =>
      obtain rfl := Option.some.inj he
      exact ⟨_, hev, decide_eq_true ⟨rfl, of_decide_eq_true hstart⟩⟩
  · intro h
    obtain ⟨ev, hev, hstart⟩ := h
    cases ev with
    | internal a => cases hstart
    | container e =>
      obtain ⟨hname, hact⟩ := of_decide_eq_true hstart
      exact ⟨e, ⟨⟨_, hev, rfl⟩, decide_eq_true hact⟩, hname⟩

theorem foldl_keptBy_internal (x : WorkloadId) (action : InternalAction) (held : Bool)
    (handlers : List Nat) :
    (handlers.map (fun i => (HandlerEvent.internal action, i))).foldl (keptBy x) held = held := by
  induction handlers with
  | nil => rfl
  | cons i handlers ih => exact ih

/-- Of the calls an event of a batch comes to, the first is the one that counts. -/
theorem foldl_keptBy_containerBatch (x : WorkloadId) (event : ContainerBatchEvent) (held : Bool)
    (n : Nat) :
    ((List.range (n + 1)).map (fun i => (HandlerEvent.containerBatch event, i))).foldl
        (keptBy x) held
      = keptBy x held (.containerBatch event, 0) := by
  rw [List.range_succ_eq_map, List.map_cons, List.foldl_cons, List.map_map]
  generalize keptBy x held (.containerBatch event, 0) = kept
  induction List.range n with
  | nil => rfl
  | cons i is ih => exact ih

/-- A batch does to a container what its events say of it. -/
theorem foldl_keptBy_handlerCalls (x : WorkloadId) (held : Bool) (n : Nat) (batch : List Event) :
    (handlerCalls (n + 1) batch).foldl (keptBy x) held = keptByBatch x held batch := by
  have hinternal : ∀ (actions : List InternalAction) (held : Bool),
      ((actions.map HandlerEvent.internal).flatMap
        (fun event => (List.range (n + 1)).map (fun i => (event, i)))).foldl (keptBy x) held
      = held := by
    intro actions
    induction actions with
    | nil => intro held; rfl
    | cons action actions ih =>
      intro held
      rw [List.map_cons, List.flatMap_cons, List.foldl_append, foldl_keptBy_internal, ih]
  unfold handlerCalls handlerEvents
  rw [List.flatMap_append, List.foldl_append, hinternal]
  have hstarts : decide (x ∈ (getContainerBatchEvent (getContainerEvents batch)).starts.map
      ContainerEvent.getContainerName) = batch.any (Event.isStartOf x) :=
    Bool.eq_iff_iff.mpr (decide_eq_true_iff.trans mem_batchStarts)
  have hdies : decide (x ∈ batchRemoves (getContainerBatchEvent (getContainerEvents batch)).dies)
      = batch.any (Event.isDieOf x) :=
    Bool.eq_iff_iff.mpr (decide_eq_true_iff.trans mem_batchRemoves)
  unfold keptByBatch
  rw [← hstarts, ← hdies]
  split
  · rw [List.flatMap_cons, List.flatMap_nil, List.append_nil, foldl_keptBy_containerBatch]
    rfl
  · rename_i hlen
    -- no start and no die: nothing is handed out, and nothing would have been said
    have hnil : getContainerEvents batch = [] := List.length_eq_zero_iff.mp (by omega)
    rw [hnil]
    simp [getContainerBatchEvent, batchRemoves]

/-- The container did not start and die in one batch. -/
def Unshared (x : WorkloadId) (batch : List Event) : Prop :=
  batch.any (Event.isDieOf x) = true → batch.any (Event.isStartOf x) = false

/-- In a batch that does not mix them, the last event about a container decides. -/
theorem keptByBatch_eq {x : WorkloadId} {batch : List Event} (h : Unshared x batch)
    (held : Bool) :
    keptByBatch x held batch = match lastWhere (Event.isAbout x) batch with
      | none => held
      | some e => e.isStartOf x := by
  unfold keptByBatch
  cases hlast : lastWhere (Event.isAbout x) batch with
  | none =>
    have hnone : batch.any (Event.isAbout x) = false := by
      rw [List.any_eq_false]
      intro e he
      rw [lastWhere_eq_none_iff.mp hlast e he]
      exact Bool.false_ne_true
    rw [any_isAbout, Bool.or_eq_false_iff] at hnone
    rw [hnone.1, hnone.2]
    simp
  | some e =>
    obtain ⟨hmem, habout⟩ := lastWhere_mem hlast
    rw [e.isAbout_eq] at habout
    cases hstart : e.isStartOf x with
    | true =>
      have hany : batch.any (Event.isStartOf x) = true := List.any_eq_true.mpr ⟨e, hmem, hstart⟩
      rw [hany]
      exact (Bool.true_or _).trans hstart.symm
    | false =>
      rw [hstart, Bool.false_or] at habout
      have hany : batch.any (Event.isDieOf x) = true := List.any_eq_true.mpr ⟨e, hmem, habout⟩
      rw [hany, h hany]
      simp [hstart]

/-- Over batches that do not mix them, the last event of all decides. -/
theorem foldl_keptByBatch_eq {x : WorkloadId} {batches : List (List Event)}
    (h : ∀ batch ∈ batches, Unshared x batch) (held : Bool) :
    batches.foldl (keptByBatch x) held = match lastWhere (Event.isAbout x) batches.flatten with
      | none => held
      | some e => e.isStartOf x := by
  induction batches generalizing held with
  | nil => rfl
  | cons batch batches ih =>
    rw [List.foldl_cons, ih (fun b hb => h b (List.mem_cons_of_mem _ hb)),
      keptByBatch_eq (h batch (by simp)), List.flatten_cons, lastWhere_append]
    cases lastWhere (Event.isAbout x) batches.flatten with
    | some e => rfl
    | none => rfl

/-- Whose last event is a start is held, however batches mix its events: what a batch adds it
does not remove. -/
theorem foldl_keptByBatch_of_start {x : WorkloadId} {batches : List (List Event)} {held : Bool}
    (h : match lastWhere (Event.isAbout x) batches.flatten with
      | none => held = true
      | some e => e.isStartOf x = true) :
    batches.foldl (keptByBatch x) held = true := by
  induction batches generalizing held with
  | nil => exact h
  | cons batch batches ih =>
    rw [List.flatten_cons, lastWhere_append] at h
    refine ih ?_
    cases hlater : lastWhere (Event.isAbout x) batches.flatten with
    | some e => rwa [hlater] at h
    | none =>
      rw [hlater, Option.none_or] at h
      -- so this batch is the last that says anything of it
      cases hlast : lastWhere (Event.isAbout x) batch with
      | none =>
        rw [hlast] at h
        have hunshared : Unshared x batch := by
          intro hdie
          obtain ⟨e, he, hdie⟩ := List.any_eq_true.mp hdie
          have habout := lastWhere_eq_none_iff.mp hlast e he
          rw [e.isAbout_eq, hdie, Bool.or_true] at habout
          exact Bool.noConfusion habout
        rw [keptByBatch_eq hunshared, hlast]
        exact h
      | some e =>
        rw [hlast] at h
        have hany : batch.any (Event.isStartOf x) = true :=
          List.any_eq_true.mpr ⟨e, (lastWhere_mem hlast).1, h⟩
        unfold keptByBatch
        rw [hany]
        exact Bool.true_or _

/-- What the last event about a container is depends on the starts and dies alone. -/
theorem lastWhere_isAbout_congr {x : WorkloadId} {events events' : List Event}
    (h : getContainerEvents events = getContainerEvents events') :
    lastWhere (Event.isAbout x) events = lastWhere (Event.isAbout x) events' := by
  have hread : ∀ events : List Event, lastWhere (Event.isAbout x) events
      = lastWhere (Event.isAbout x) ((getContainerEvents events).map Event.container) := by
    intro events
    induction events with
    | nil => rfl
    | cons e events ih =>
      cases e with
      | internal a =>
        have hcons : lastWhere (Event.isAbout x) (.internal a :: events)
            = lastWhere (Event.isAbout x) events := by
          rw [lastWhere]
          cases lastWhere (Event.isAbout x) events with
          | none => rfl
          | some e => rfl
        rw [hcons, ih]
        rfl
      | container c =>
        show _ = lastWhere _ (.container c :: (getContainerEvents events).map Event.container)
        unfold lastWhere
        rw [ih]
  rw [hread events, hread events', h]

/-! ## The agent -/

namespace EventManager

/-- The call of a handler the consumer is about to make, if it is about to make one. -/
def calling : ConsumerPhase → Option (HandlerEvent × Nat)
  | .handling _ (call :: _) => some call
  | _ => none

theorem calling_eq_some {phase : ConsumerPhase} {call : HandlerEvent × Nat}
    (h : calling phase = some call) : ∃ batch pending, phase = .handling batch (call :: pending) := by
  unfold calling at h
  split at h
  · rename_i batch call' pending
    cases h
    exact ⟨batch, pending, rfl⟩
  · cases h

/-- What one step of the consumer leaves alone, and the one call it may make. -/
theorem consume_frame [Sub Time] (m : EventManager Time) (raises : Bool) (time : Time) :
    (m.consume raises time).handlers = m.handlers
      ∧ (m.consume raises time).enqueued = m.enqueued
      ∧ (m.consume raises time).handed = m.handed ++ (calling m.phase).toList := by
  have hnone := (List.append_nil m.handed).symm
  unfold consume
  cases hphase : m.phase with
  | idle =>
    unfold dequeueEvent
    dsimp only
    split
    · exact ⟨rfl, rfl, hnone⟩
    · cases m.queue with
      | nil => exact ⟨rfl, rfl, hnone⟩
      | cons q queue => exact ⟨rfl, rfl, hnone⟩
  | sizing first => exact ⟨rfl, rfl, hnone⟩
  | gathering batch remaining =>
    cases remaining with
    | zero => exact ⟨rfl, rfl, hnone⟩
    | succ n =>
      unfold dequeueEvent
      cases m.queue with
      | nil => exact ⟨rfl, rfl, hnone⟩
      | cons q queue => exact ⟨rfl, rfl, hnone⟩
  | handling batch pending =>
    cases pending with
    | nil => exact ⟨rfl, rfl, hnone⟩
    | cons call pending => exact ⟨rfl, rfl, rfl⟩
  | counting remaining =>
    cases remaining with
    | zero =>
      unfold reportDepth
      cases m.reg with
      | none => exact ⟨rfl, rfl, hnone⟩
      | some reg => exact ⟨rfl, rfl, hnone⟩
    | succ n =>
      unfold countProcessed
      cases m.reg with
      | none => exact ⟨rfl, rfl, hnone⟩
      | some reg =>
        unfold taskDone
        cases m.unfinishedTasks with
        | zero => exact ⟨rfl, rfl, hnone⟩
        | succ k => exact ⟨rfl, rfl, hnone⟩
  | exited => exact ⟨rfl, rfl, hnone⟩
  | died e => exact ⟨rfl, rfl, hnone⟩

end EventManager

namespace Agent

variable {loads : Raw → Except PyError Json}
  {parseQuantity : String → Except PyError Decimal} {allocator : CpuAllocator Rng}
  {reportCpuEvent : Ambient Rng → AllocateRequest → AllocateResponse → Except PyError Unit}

/-- What is granted of a step: if it hands a batch to the container batch handler, the pods are
found and the allocator answers. -/
def StepGranted (parseQuantity : String → Except PyError Decimal) (allocator : CpuAllocator Rng)
    (a : Agent Raw Time) : AgentStep Rng Raw Time → Prop
  | .consume _ call => ∀ batch event pending,
      a.eventManager.phase = .handling batch ((.containerBatch event, 0) :: pending) →
      Granted parseQuantity allocator a.workloadManager call event
  | .message _ _ => True
  | .schedule _ _ => True
  | .stop => True

/-- What holds at every step of an agent that started out with these workloads. -/
structure Follows (loads : Raw → Except PyError Json) (ids : List WorkloadId)
    (a : Agent Raw Time) : Prop where
  books : a.eventManager.Invariant
  handlers : a.eventManager.handlers = eventHandlers
  /-- The starts and dies on the queue, or already taken off it, are those of the messages. -/
  enqueued : getContainerEvents a.eventManager.enqueued
    = getContainerEvents (a.pulled.filterMap (handledEvent loads))
  /-- The table is what the calls made so far come to. -/
  held : ∀ x, x ∈ a.workloadManager.workloads.keys
    ↔ a.eventManager.handed.foldl (keptBy x) (decide (x ∈ ids)) = true

theorem follows_init (wm : WorkloadManager) (reg : EventRegistry Time) :
    Follows loads wm.workloads.keys (init wm reg : Agent Raw Time) where
  books := EventManager.invariant_init eventHandlers reg
  handlers := rfl
  enqueued := rfl
  held := fun _ => decide_eq_true_iff.symm

theorem Follows.message {ids : List WorkloadId} {a : Agent Raw Time} (h : Follows loads ids a)
    (raw : Raw) (time : Time) : Follows loads ids (a.pull loads raw time) := by
  have hpulled : ∀ e : Option Event, handledEvent loads raw = e →
      getContainerEvents ((a.pulled ++ [raw]).filterMap (handledEvent loads))
        = getContainerEvents (a.pulled.filterMap (handledEvent loads))
          ++ getContainerEvents e.toList := by
    intro e he
    rw [List.filterMap_append]
    unfold getContainerEvents
    rw [List.filterMap_append]
    cases e with
    | none => simp [he]
    | some e => simp [he]
  unfold pull EventManager.putEvent
  cases hread : readMessage loads raw with
  | error e =>
    have hnone : handledEvent loads raw = none := by unfold handledEvent; rw [hread]
    refine ⟨h.books, h.handlers, ?_, h.held⟩
    rw [hpulled none hnone]
    exact h.enqueued.trans (List.append_nil _).symm
  | ok event =>
    have hevent : handledEvent loads raw = event := by unfold handledEvent; rw [hread]
    cases event with
    | none =>
      refine ⟨h.books, h.handlers, ?_, h.held⟩
      rw [hpulled none hevent]
      exact h.enqueued.trans (List.append_nil _).symm
    | some event =>
      refine ⟨EventManager.invariant_enqueue h.books event time, h.handlers, ?_, h.held⟩
      rw [hpulled (some event) hevent, ← h.enqueued]
      unfold EventManager.enqueue getContainerEvents
      exact List.filterMap_append

theorem Follows.schedule {ids : List WorkloadId} {a : Agent Raw Time} (h : Follows loads ids a)
    (action : InternalAction) (time : Time) :
    Follows loads ids
      { a with eventManager := a.eventManager.enqueue (.internal action) time } := by
  refine ⟨EventManager.invariant_enqueue h.books _ time, h.handlers, ?_, h.held⟩
  rw [← h.enqueued]
  unfold EventManager.enqueue getContainerEvents
  dsimp only
  rw [List.filterMap_append]
  exact List.append_nil _

variable (parseQuantity allocator reportCpuEvent) in
/-- Where the consumer calls a handler, the workload manager is what the call leaves. -/
theorem consume_of_calling [Sub Time] {a : Agent Raw Time} {event : HandlerEvent} {i : Nat}
    (h : EventManager.calling a.eventManager.phase = some (event, i)) (time : Time)
    (call : HandlerCall Rng) :
    ∃ raises, a.consume parseQuantity allocator reportCpuEvent time call
      = { a with
          eventManager := a.eventManager.consume raises time
          workloadManager := managerAfter a.workloadManager
            (handleEventAt parseQuantity allocator reportCpuEvent a.workloadManager call
              event i) } := by
  obtain ⟨batch, pending, hphase⟩ := EventManager.calling_eq_some h
  unfold consume
  rw [hphase]
  dsimp only
  cases handleEventAt parseQuantity allocator reportCpuEvent a.workloadManager call event i with
  | error e => exact ⟨true, rfl⟩
  | ok wm => exact ⟨false, rfl⟩

theorem consume_of_not_calling [Sub Time] {a : Agent Raw Time}
    (h : EventManager.calling a.eventManager.phase = none) (time : Time)
    (call : HandlerCall Rng) :
    a.consume parseQuantity allocator reportCpuEvent time call
      = { a with eventManager := a.eventManager.consume false time } := by
  unfold consume
  split
  · rename_i hphase
    rw [hphase] at h
    cases h
  · rfl

theorem Follows.consume [Sub Time] {ids : List WorkloadId} {a : Agent Raw Time}
    (h : Follows loads ids a) (time : Time) (call : HandlerCall Rng)
    (hgranted : a.StepGranted parseQuantity allocator (.consume time call)) :
    Follows loads ids (a.consume parseQuantity allocator reportCpuEvent time call) := by
  cases hcalling : EventManager.calling a.eventManager.phase with
  | none =>
    obtain ⟨hhandlers, henqueued, hhanded⟩ := a.eventManager.consume_frame false time
    rw [consume_of_not_calling hcalling]
    rw [hcalling, Option.toList_none, List.append_nil] at hhanded
    exact ⟨EventManager.invariant_consume h.books false time, hhandlers.trans h.handlers,
      (congrArg getContainerEvents henqueued).trans h.enqueued, fun x => hhanded ▸ h.held x⟩
  | some made =>
    obtain ⟨event, i⟩ := made
    obtain ⟨raises, heq⟩ :=
      consume_of_calling parseQuantity allocator reportCpuEvent hcalling time call
    obtain ⟨hhandlers, henqueued, hhanded⟩ := a.eventManager.consume_frame raises time
    rw [heq]
    refine ⟨EventManager.invariant_consume h.books raises time, hhandlers.trans h.handlers,
      (congrArg getContainerEvents henqueued).trans h.enqueued, fun x => ?_⟩
    have hcall : x ∈ (managerAfter a.workloadManager (handleEventAt parseQuantity allocator
          reportCpuEvent a.workloadManager call event i)).workloads.keys
        ↔ keptBy x (decide (x ∈ a.workloadManager.workloads.keys)) (event, i) = true :=
      handleEventAt_keys reportCpuEvent ?_ x
    · have hkept : decide (x ∈ a.workloadManager.workloads.keys)
          = a.eventManager.handed.foldl (keptBy x) (decide (x ∈ ids)) :=
        Bool.eq_iff_iff.mpr (decide_eq_true_iff.trans (h.held x))
      dsimp only
      rw [hcall, hhanded, hcalling, List.foldl_append, hkept]
      rfl
    · intro batchEvent hevent hi
      obtain ⟨batch, pending, hphase⟩ := EventManager.calling_eq_some hcalling
      subst hevent hi
      exact hgranted batch batchEvent pending hphase

theorem Follows.step [Sub Time] {ids : List WorkloadId} {a : Agent Raw Time}
    (h : Follows loads ids a) (e : AgentStep Rng Raw Time)
    (hgranted : a.StepGranted parseQuantity allocator e) :
    Follows loads ids (a.step parseQuantity allocator reportCpuEvent loads e) := by
  cases e with
  | message raw time =>
    show Follows loads ids (if a.pulling then a.pull loads raw time else a)
    split
    · exact h.message raw time
    · exact h
  | schedule action time => exact h.schedule action time
  | consume time call => exact h.consume time call hgranted
  | stop =>
    exact ⟨EventManager.invariant_step h.books .stop, h.handlers, h.enqueued, h.held⟩

/-- At the top of the loop the calls made are those of the batches taken. -/
theorem Follows.batches {ids : List WorkloadId} {a : Agent Raw Time} (h : Follows loads ids a)
    (hidle : a.eventManager.phase = .idle) :
    ∃ batches : List (List Event), a.eventManager.dequeued = batches.flatten
      ∧ a.eventManager.handed = batches.flatMap (handlerCalls eventHandlers.length) := by
  obtain ⟨_, batches, hprogress⟩ := h.books
  unfold EventManager.Progress at hprogress
  rw [hidle, h.handlers] at hprogress
  exact ⟨batches, hprogress.1, hprogress.2.1⟩

/-- No container batch that was handed out has both a start and a die of the container. -/
def NeverShared (a : Agent Raw Time) (x : WorkloadId) : Prop :=
  ∀ event, .containerBatch event ∈ a.eventManager.givenTo 0 → x ∈ batchRemoves event.dies →
    x ∉ event.starts.map ContainerEvent.getContainerName

theorem NeverShared.unshared {ids : List WorkloadId} {a : Agent Raw Time} {x : WorkloadId}
    (h : a.NeverShared x) (hf : Follows loads ids a) {batches : List (List Event)}
    (hhanded : a.eventManager.handed = batches.flatMap (handlerCalls eventHandlers.length)) :
    ∀ batch ∈ batches, Unshared x batch := by
  intro batch hbatch hdie
  have hgiven : a.eventManager.givenTo 0 = batches.flatMap handlerEvents :=
    EventManager.givenTo_of_finished (by rw [hf.handlers]; exact hhanded)
      (by rw [hf.handlers]; decide)
  have hmem : HandlerEvent.containerBatch (getContainerBatchEvent (getContainerEvents batch))
      ∈ a.eventManager.givenTo 0 := by
    rw [hgiven]
    refine List.mem_flatMap.mpr ⟨batch, hbatch, ?_⟩
    unfold handlerEvents
    dsimp only
    rw [if_pos ?_]
    · exact List.mem_append_left _ (List.mem_singleton.mpr rfl)
    · -- the die is among its starts and dies
      have hremoved := mem_batchRemoves.mpr hdie
      unfold batchRemoves at hremoved
      obtain ⟨e, he, _⟩ := List.mem_map.mp hremoved
      exact List.length_pos_of_mem (List.mem_filter.mp he).1
  have hstart := h _ hmem (mem_batchRemoves.mpr hdie)
  rw [mem_batchStarts] at hstart
  exact Bool.eq_false_iff.mpr hstart

/-- What an agent at rest holds is what its batches came to. -/
theorem Follows.foldl_batches {ids : List WorkloadId} {a : Agent Raw Time}
    (hf : Follows loads ids a) (hidle : a.eventManager.phase = .idle)
    (hqueue : a.eventManager.queue = []) (x : WorkloadId) :
    ∃ batches : List (List Event),
      a.eventManager.handed = batches.flatMap (handlerCalls eventHandlers.length)
        ∧ (x ∈ a.workloadManager.workloads.keys
          ↔ batches.foldl (keptByBatch x) (decide (x ∈ ids)) = true)
        ∧ lastWhere (Event.isAbout x) batches.flatten
          = lastWhere (Event.isAbout x) (a.pulled.filterMap (handledEvent loads)) := by
  obtain ⟨batches, hdequeued, hhanded⟩ := hf.batches hidle
  have henqueued : a.eventManager.enqueued = batches.flatten := by
    have hqueued := hf.books.1.queued
    rw [hqueue, List.map_nil, List.append_nil] at hqueued
    exact hqueued.trans hdequeued
  have hfold : a.eventManager.handed.foldl (keptBy x) (decide (x ∈ ids))
      = batches.foldl (keptByBatch x) (decide (x ∈ ids)) := by
    rw [hhanded]
    generalize decide (x ∈ ids) = held
    clear henqueued hhanded hdequeued
    induction batches generalizing held with
    | nil => rfl
    | cons batch batches ih =>
      rw [List.flatMap_cons, List.foldl_append, List.foldl_cons, ih]
      exact congrArg (batches.foldl (keptByBatch x)) (foldl_keptBy_handlerCalls x held 3 batch)
  refine ⟨batches, hhanded, ?_, ?_⟩
  · rw [hf.held x, hfold]
  · rw [← henqueued, lastWhere_isAbout_congr hf.enqueued]

/-- An agent at rest holds what the messages it pulled say, and of the rest what it held. -/
theorem Follows.atRest {ids : List WorkloadId} {a : Agent Raw Time} (hf : Follows loads ids a)
    (hidle : a.eventManager.phase = .idle) (hqueue : a.eventManager.queue = [])
    {x : WorkloadId} (hx : a.NeverShared x) :
    x ∈ a.workloadManager.workloads.keys
      ↔ match lastWhere (Event.isAbout x) (a.pulled.filterMap (handledEvent loads)) with
        | none => x ∈ ids
        | some e => e.isStartOf x = true := by
  obtain ⟨batches, hhanded, hheld, hlast⟩ := hf.foldl_batches hidle hqueue x
  rw [hheld, foldl_keptByBatch_eq (hx.unshared hf hhanded), hlast]
  cases lastWhere (Event.isAbout x) (a.pulled.filterMap (handledEvent loads)) with
  | none => exact decide_eq_true_iff
  | some e => exact Iff.rfl

/-- An agent at rest holds every container whose last message was a start, also one that died
in the batch it started in. -/
theorem Follows.holdsStarted {ids : List WorkloadId} {a : Agent Raw Time}
    (hf : Follows loads ids a) (hidle : a.eventManager.phase = .idle)
    (hqueue : a.eventManager.queue = []) {x : WorkloadId}
    (h : match lastWhere (Event.isAbout x) (a.pulled.filterMap (handledEvent loads)) with
      | none => x ∈ ids
      | some e => e.isStartOf x = true) :
    x ∈ a.workloadManager.workloads.keys := by
  obtain ⟨batches, _, hheld, hlast⟩ := hf.foldl_batches hidle hqueue x
  refine hheld.mpr (foldl_keptByBatch_of_start ?_)
  rw [hlast]
  cases hword : lastWhere (Event.isAbout x) (a.pulled.filterMap (handledEvent loads)) with
  | none => rw [hword] at h; exact decide_eq_true h
  | some e => rw [hword] at h; exact h

/-- Nothing is asked of a step that calls no handler, or not the first. -/
theorem stepGranted_of_calling {a : Agent Raw Time} {time : Time} {call : HandlerCall Rng}
    (h : ∀ event, EventManager.calling a.eventManager.phase ≠ some (.containerBatch event, 0)) :
    a.StepGranted parseQuantity allocator (.consume time call) := by
  intro batch event pending hphase
  exact absurd (by rw [hphase]; rfl) (h event)

/-- The container's pod is there at every look but the first. -/
def latePod (look : Nat) : PodManager PodBody :=
  match look with
  | 0 => PodManager.init
  | _ + 1 => PodManager.init.storePod ⟨some "ADDED", podOf [containerOf "main" "2"]⟩

/-- A call that finds the pod at its second look. -/
def lateCall : HandlerCall Unit where
  ambient := Ambient.unset ()
  retryCount := .ok 3
  look := latePod
  elsewhere := .ok ()

/-- Docker's message that the container has started. -/
def taskStarts : Json :=
  .obj [("Action", .str "start"),
    ("Actor", .obj [("Attributes", .obj [("name", .str "task"), ("titus.task_id", .str "task")])])]

/-- The message, an empty one after it, and what the consumer makes of the first. -/
def oneStart : List (AgentStep Unit Json Int) :=
  .message taskStarts 0 :: .message .null 0 :: List.replicate 10 (.consume 1 lateCall)

theorem lateCall_finds : lateCall.Finds parseListed "task" where
  appears := by
    refine ⟨3, rfl, fun looks => ⟨1, by decide, ?_⟩⟩
    exact fun h => nomatch h
  constructs := by
    intro looks pod hpod
    cases looks with
    | zero => cases hpod
    | succ looks =>
      cases hpod
      exact ⟨_, rfl⟩

/-- What `oneStart` comes to. -/
def started : Agent Json Int :=
  exec (step parseListed (noopCpuAllocator Unit) (fun _ _ _ => .ok ()) Except.ok)
    (init (WorkloadManager.init none Config.twoThreads) EventRegistry.empty) oneStart

theorem oneStart_granted :
    EachStep (step parseListed (noopCpuAllocator Unit) (fun _ _ _ => .ok ()) Except.ok)
      (StepGranted parseListed (noopCpuAllocator Unit))
      (init (WorkloadManager.init none Config.twoThreads) EventRegistry.empty) oneStart := by
  refine ⟨trivial, trivial, ?_, ?_, ?_, ?_, ?_, ?_, ?_, ?_, ?_, ?_, trivial⟩
  · exact stepGranted_of_calling (fun event h => nomatch h)
  · exact stepGranted_of_calling (fun event h => nomatch h)
  · exact stepGranted_of_calling (fun event h => nomatch h)
  · intro batch event pending hphase
    cases hphase
    refine ⟨?_, ?_, fun adds _ => ⟨_, rfl⟩⟩
    · intro start hstart
      rw [List.mem_singleton.mp hstart]
      decide
    · intro start hstart
      rw [List.mem_singleton.mp hstart]
      exact lateCall_finds
  · exact stepGranted_of_calling (fun event h => nomatch h)
  · exact stepGranted_of_calling (fun event h => nomatch h)
  · exact stepGranted_of_calling (fun event h => nomatch h)
  · exact stepGranted_of_calling (fun event h => nomatch h)
  · exact stepGranted_of_calling (fun event h => nomatch h)
  · exact stepGranted_of_calling (fun event h => nomatch h)

end Agent

end TitusIsolate
