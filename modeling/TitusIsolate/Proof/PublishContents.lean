import TitusIsolate.Proof.Condense
import TitusIsolate.Proof.CpuRequest
import TitusIsolate.Proof.Publishing

/-!
# What is published

A resource that is written says of one view of the pods what runs in it: the resources that
the running pods asked for, summed up one by one, how many of them are batch and how many are
service pods, and the sum of what is predicted for each. Where the first look showed no pod at
all it says that there is nothing, whatever the second would have shown.
-/

namespace TitusIsolate

open Raising Run

variable {V α : Type}

/-! ## Running pods -/

/-- `is_running(pod)`, where it does not raise. -/
def seemsRunning (pod : V1Pod LivePodBody) : Bool :=
  match isRunning pod with
  | .error _ => false
  | .ok running => running

theorem seemsRunning_of_ok {pod : V1Pod LivePodBody} {running : Bool}
    (h : isRunning pod = .ok running) : seemsRunning pod = running := by
  unfold seemsRunning
  rw [h]

/-- If no pod makes `is_running` raise, the pods found to run are those that seem to. -/
theorem runningPods_ok : ∀ {pods running : List (V1Pod LivePodBody)},
    runningPods pods = .ok running →
      running = pods.filter seemsRunning ∧ ∀ pod ∈ pods, ∃ b, isRunning pod = .ok b := by
  intro pods
  induction pods with
  | nil =>
    intro running h
    cases h
    exact ⟨rfl, fun pod hpod => absurd hpod List.not_mem_nil⟩
  | cons pod pods ih =>
    intro running h
    unfold runningPods at h
    cases hrunning : isRunning pod with
    | error e => rw [hrunning] at h; cases h
    | ok b =>
      have hall : ∀ running', runningPods pods = .ok running' →
          ∀ p ∈ pod :: pods, ∃ b, isRunning p = .ok b := by
        intro running' h' p hp
        rcases List.mem_cons.mp hp with rfl | hp
        · exact ⟨b, hrunning⟩
        · exact (ih h').2 p hp
      have hseems := seemsRunning_of_ok hrunning
      rw [hrunning] at h
      cases b with
      | true =>
        obtain ⟨running', h', rfl⟩ := map_eq_ok.mp h
        refine ⟨?_, hall running' h'⟩
        rw [List.filter_cons_of_pos hseems, (ih h').1]
      | false =>
        refine ⟨?_, hall running h⟩
        rw [List.filter_cons_of_neg (by rw [hseems]; exact Bool.false_ne_true), (ih h).1]

/-! ## Their resources -/

/-- What all of them ask for, resource by resource. -/
def Resources.total (requested : List Resources) : Resources where
  cpu := (requested.map Resources.cpu).sum
  mem := (requested.map Resources.mem).sum
  disk := (requested.map Resources.disk).sum
  net := (requested.map Resources.net).sum
  gpu := (requested.map Resources.gpu).sum

theorem Resources.zero_add (r : Resources) : Resources.zero.add r = r := by
  unfold Resources.add Resources.zero
  simp only [Int.zero_add]

theorem Resources.add_total (total r : Resources) (requested : List Resources) :
    (total.add r).add (Resources.total requested)
      = total.add (Resources.total (r :: requested)) := by
  unfold Resources.total Resources.add
  simp only [List.map_cons, List.sum_cons, Int.add_assoc]

/-- The loop adds up what each pod asks for. -/
theorem computeAllocatedResources_ok {parseQuantity : String → Except PyError Decimal} :
    ∀ {pods : List (V1Pod LivePodBody)} {total out : Resources},
      computeAllocatedResources parseQuantity pods total = .ok out →
        ∃ requested, List.Forall₂ (fun pod r =>
            getRequestedResources parseQuantity (withoutStatus pod) = .ok r) pods requested
          ∧ out = total.add (Resources.total requested) := by
  intro pods
  induction pods with
  | nil =>
    intro total out h
    cases h
    refine ⟨[], .nil, ?_⟩
    unfold Resources.total Resources.add
    simp only [List.map_nil, List.sum_nil, Int.add_zero]
  | cons pod pods ih =>
    intro total out h
    unfold computeAllocatedResources at h
    cases hr : getRequestedResources parseQuantity (withoutStatus pod) with
    | error e => rw [hr] at h; cases h
    | ok r =>
      rw [hr] at h
      obtain ⟨requested, hrequested, rfl⟩ := ih h
      exact ⟨r :: requested, .cons hr hrequested, Resources.add_total total r requested⟩

/-! ## Their number -/

/-- The pod's annotations name this job type. -/
def hasJobType (jobType : String) (pod : V1Pod LivePodBody) : Bool :=
  pod.spec.annotations.bind (fun annotations => annotations.get? annotationKeyJobType)
    == some jobType

theorem getJobType_ok {pod : V1Pod LivePodBody} {t : Option String}
    (h : getJobType pod = .ok t) (jobType : String) :
    hasJobType jobType pod = decide (t = some jobType) := by
  unfold getJobType at h
  unfold hasJobType
  cases hannotations : pod.spec.annotations with
  | none => rw [hannotations] at h; cases h
  | some annotations =>
    rw [hannotations] at h
    cases h
    exact beq_eq_decide _ _

/-- One pod counts as what its job type says, if it says any of the two. -/
theorem computeNumContainers_cons {pod : V1Pod LivePodBody} {pods : List (V1Pod LivePodBody)}
    {numBatch numService : Nat} {out : Nat × Nat}
    (h : computeNumContainers (pod :: pods) numBatch numService = .ok out) :
    computeNumContainers pods (numBatch + if hasJobType "BATCH" pod = true then 1 else 0)
      (numService + if hasJobType "SERVICE" pod = true then 1 else 0) = .ok out := by
  unfold computeNumContainers isBatchPod isServicePod at h
  cases ht : getJobType pod with
  | error e => rw [ht] at h; cases h
  | ok t =>
    rw [ht] at h
    rw [getJobType_ok ht, getJobType_ok ht]
    by_cases hbatch : t = some "BATCH"
    · subst hbatch
      exact h
    · by_cases hservice : t = some "SERVICE"
      · subst hservice
        exact h
      · simp only [Except.map, hbatch, hservice, decide_false] at h
        simp only [hbatch, hservice, decide_false, Bool.false_eq_true, if_false, Nat.add_zero]
        exact h

theorem computeNumContainers_ok : ∀ {pods : List (V1Pod LivePodBody)} {numBatch numService : Nat}
    {out : Nat × Nat}, computeNumContainers pods numBatch numService = .ok out →
      out = (numBatch + pods.countP (hasJobType "BATCH"),
        numService + pods.countP (hasJobType "SERVICE")) := by
  intro pods
  induction pods with
  | nil =>
    intro numBatch numService out h
    cases h
    rfl
  | cons pod pods ih =>
    intro numBatch numService out h
    rw [ih (computeNumContainers_cons h), List.countP_cons, List.countP_cons]
    exact Prod.ext (by dsimp only; omega) (by dsimp only; omega)

/-! ## Whose services were asked -/

/-- What the body the thread has in its hands was made from. -/
def PublishPhase.call : PublishPhase V α → Option (PublishCall V α)
  | .patching _ call _ _ => some call
  | .creating _ call _ _ => some call
  | _ => none

namespace PublishWorld

/-- What was published, and what is about to be, was made from calls of this kind. -/
structure MadeFrom (given : PublishCall V α → Prop) (w : PublishWorld V α) : Prop where
  requests : ∀ r ∈ w.requests, given r.call
  threads : ∀ t phase call, w.threads.get? t = some phase → phase.call = some call → given call

section

variable {given : PublishCall V α → Prop} {w w' : PublishWorld V α} {t : Nat}

/-- A thread enters a phase, and has a request answered perhaps. -/
theorem MadeFrom.enter (h : w.MadeFrom given) {phase : PublishPhase V α}
    (hthreads : w'.threads = w.threads.insert t phase)
    (hphase : ∀ call, phase.call = some call → given call)
    (hrequests : ∀ r ∈ w'.requests, r ∈ w.requests ∨ given r.call) : w'.MadeFrom given where
  requests := fun r hr => (hrequests r hr).elim (h.requests r) id
  threads := by
    intro t' phase' call hget hcall
    rw [hthreads, OrderedDict.get?_insert] at hget
    split at hget
    · obtain rfl := Option.some.inj hget
      exact hphase call hcall
    · exact h.threads t' phase' call hget hcall

/-- The request of a thread is made from what the thread has. -/
theorem MadeFrom.answered (h : w.MadeFrom given) {phase phase' : PublishPhase V α}
    (hget : w.threads.get? t = some phase) {verb : ApiVerb}
    {body : ResourceUsagePredictionsResource V} {call : PublishCall V α}
    {firstView secondView : Nat} {answer : ApiAnswer}
    (hphase : phase.requesting = some (verb, body, call, firstView, secondView))
    (hthreads : w'.threads = w.threads.insert t phase')
    (hphase' : ∀ call', phase'.call = some call' → call' = call)
    (hrequests : w'.requests = w.requests ++ [⟨verb, body, call, firstView, secondView, answer⟩]) :
    w'.MadeFrom given := by
  have hcall : phase.call = some call := by
    rcases PublishPhase.requesting_eq_some hphase with ⟨_, rfl⟩ | ⟨_, rfl⟩
    · rfl
    · rfl
  have hgiven := h.threads t phase call hget hcall
  refine h.enter hthreads (fun call' hcall' => hphase' call' hcall' ▸ hgiven) ?_
  intro r hr
  rw [hrequests] at hr
  rcases List.mem_append.mp hr with hr | hr
  · exact Or.inl hr
  · rw [List.mem_singleton.mp hr]
    exact Or.inr hgiven

/-- **One step makes requests only from what its threads were given.** -/
theorem MadeFrom.stepped [Add V] {publisher : Publisher V α} {e : PublishStep V α}
    (h : w.MadeFrom given) (hgiven : ∀ t call answer, e = .go t call answer → given call)
    (hstep : Stepped publisher w e w') : w'.MadeFrom given := by
  cases hstep with
  | stays => exact h
  | podEvent event => exact ⟨h.requests, h.threads⟩
  | begun t ht => exact h.enter rfl (fun _ hcall => by cases hcall) (fun _ => Or.inl)
  | locked t ht hfree => exact h.enter rfl (fun _ hcall => by cases hcall) (fun _ => Or.inl)
  | looked t ht => exact h.enter rfl (fun _ hcall => by cases hcall) (fun _ => Or.inl)
  | gathered t first view body ht call answer hbody =>
    exact h.enter rfl (fun _ hcall => Option.some.inj hcall ▸ hgiven t call answer rfl)
      (fun _ => Or.inl)
  | failed t first view ht => exact h.enter rfl (fun _ hcall => by cases hcall) (fun _ => Or.inl)
  | missing t body call firstView secondView ht =>
    exact h.answered ht rfl rfl (fun _ hcall => (Option.some.inj hcall).symm) rfl
  | returned t phase verb body call firstView secondView answer ht hphase houtcome =>
    exact h.answered ht hphase rfl (fun _ hcall => by cases hcall) rfl
  | raised t phase verb body call firstView secondView answer ht hphase houtcome =>
    exact h.answered ht hphase rfl (fun _ hcall => by cases hcall) rfl
  | counted t returned ht =>
    have hkept : ∀ t' phase call, (w.threads.erase t).get? t' = some phase →
        phase.call = some call → given call := by
      intro t' phase call hget hcall
      rw [OrderedDict.get?_erase] at hget
      split at hget
      · cases hget
      · exact h.threads t' phase call hget hcall
    cases returned with
    | true => exact ⟨h.requests, hkept⟩
    | false => exact ⟨h.requests, hkept⟩
  | reported => exact ⟨h.requests, h.threads⟩

end

/-- The run's own calls are what its requests are made from. -/
theorem madeFrom_exec [Add V] (publisher : Publisher V α)
    (podManager : PodManager LivePodBody) (es : List (PublishStep V α)) :
    (exec (step publisher) (init podManager) es).MadeFrom
      (fun call => ∃ t answer, PublishStep.go t call answer ∈ es) :=
  exec_of_mem
    (fun w e he h => h.stepped (fun t call answer heq => ⟨t, answer, heq ▸ he⟩)
      (stepped publisher w e))
    ⟨fun _ hr => absurd hr List.not_mem_nil, fun _ _ _ hget => by cases hget⟩

end PublishWorld

/-! ## What is predicted for them -/

section

variable [AddCommMonoid V]

omit [AddCommMonoid V] in
theorem refersTo_range (ps : List (ResourceUsagePrediction V)) :
    RefersTo ps (List.range ps.length) ps := by
  refine List.forall₂_iff_get.mpr ⟨List.length_range, fun i hi _ => ?_⟩
  have hi' : i < ps.length := by rwa [List.length_range] at hi
  rw [List.get_eq_getElem, List.getElem_range, List.get_eq_getElem]
  exact List.getElem?_eq_getElem hi'

/-- Predictions that are all alike are published as their sum. -/
theorem condensed_sums {ps : List (ResourceUsagePrediction V)} {out : ResourceUsagePrediction V}
    (h : condensed ps = .ok out) (halike : AllAlike ps) (resType quantile : String) (i : Nat) :
    out.value? resType quantile i = sumOver ps resType quantile i := by
  obtain ⟨new, r, sum, hrun, hget, hvalue⟩ :=
    (condense_sums_iff (refersTo_range ps)).mpr halike _ (List.Perm.refl _)
  have hout : condensed ps = .ok sum := by
    unfold condensed
    dsimp only
    rw [hrun]
    show getItem (ps ++ new) r = .ok sum
    unfold getItem
    rw [hget]
  rw [hout] at h
  exact Except.ok.inj h ▸ hvalue resType quantile i

/-! ## What a body says -/

namespace Publisher

/-- The body takes these predictions over: what they condense to, which is their sum if they are
all alike, and what goes with them. -/
structure TakesOver (answer : ResourceUsagePredictions V)
    (body : ResourceUsagePredictionsResource V) : Prop where
  condensed : condensed answer.predictions.values = .ok body.spec.prediction
  sums : AllAlike answer.predictions.values → ∀ resType quantile i,
    body.spec.prediction.value? resType quantile i
      = sumOver answer.predictions.values resType quantile i
  modelVersion : body.spec.modelVersion = answer.modelVersion
  modelInstanceId : body.spec.modelInstanceId = answer.modelInstanceId
  predictionTsMs : body.spec.predictionTsMs = answer.predictionTsMs
  predTime2emptyBatch : body.spec.predTime2emptyBatch = answer.predTime2emptyBatch
  metadata : body.spec.metadata = answer.metadata

/-- The body says of these pods what runs there, with what the predictor that was called said
of them. -/
structure Describes (publisher : Publisher V α) (call : PublishCall V α)
    (pods : List (V1Pod LivePodBody)) (body : ResourceUsagePredictionsResource V) : Prop where
  determined : ∀ pod ∈ pods, ∃ b, isRunning pod = .ok b
  allocated : ∃ requested, List.Forall₂ (fun pod r =>
      getRequestedResources publisher.parseQuantity (withoutStatus pod) = .ok r)
      (pods.filter seemsRunning) requested
    ∧ body.spec.resourcesAllocated = (Resources.total requested).toDict
  batch : body.spec.numBatchContainers = (pods.filter seemsRunning).countP (hasJobType "BATCH")
  service : body.spec.numServiceContainers
    = (pods.filter seemsRunning).countP (hasJobType "SERVICE")
  /-- The predictor was asked about the pods that run, and this is what it answered. -/
  predicted : ∃ answer,
    call.service.getPredictions publisher.int publisher.float publisher.str
        (pods.filter seemsRunning)
        (call.service.usage ((pods.filter seemsRunning).map V1Pod.name)) = .ok (some answer)
      ∧ TakesOver answer body

/-- The body says that nothing runs. -/
structure SaysNothing (call : PublishCall V α) (body : ResourceUsagePredictionsResource V) :
    Prop where
  allocated : body.spec.resourcesAllocated = Resources.zero.toDict
  batch : body.spec.numBatchContainers = 0
  service : body.spec.numServiceContainers = 0
  predicted : ∀ resType quantile i, body.spec.prediction.value? resType quantile i = none
  /-- No model was asked, at this time. -/
  unasked : TakesOver (noPredictions call.nowMs) body

/-- What a body takes over from the summary. -/
theorem makeBody_ok {publisher : Publisher V α} {call : PublishCall V α} {summary : PodSummary V}
    {body : ResourceUsagePredictionsResource V} (h : publisher.makeBody call summary = .ok body) :
    body.spec.resourcesAllocated = summary.allocatedResources.toDict
      ∧ body.spec.numBatchContainers = summary.numBatchContainers
      ∧ body.spec.numServiceContainers = summary.numServiceContainers
      ∧ ∃ answer, summary.predictions = some answer ∧ TakesOver answer body := by
  obtain ⟨node, _, h⟩ := bind_eq_ok.mp h
  obtain ⟨instanceType, _, h⟩ := bind_eq_ok.mp h
  obtain ⟨answer, hanswer, h⟩ := bind_eq_ok.mp h
  obtain ⟨prediction, hprediction, h⟩ := bind_eq_ok.mp h
  cases h
  refine ⟨rfl, rfl, rfl, answer, ?_, ?_⟩
  · cases hpredictions : summary.predictions with
    | none => rw [hpredictions] at hanswer; cases hanswer
    | some predictions => rw [hpredictions] at hanswer; cases hanswer; rfl
  · exact ⟨hprediction, condensed_sums hprediction, rfl, rfl, rfl, rfl, rfl⟩

theorem prepare_nothing {publisher : Publisher V α} {call : PublishCall V α}
    {second : List (V1Pod LivePodBody)} {body : ResourceUsagePredictionsResource V}
    (h : publisher.prepare call [] second = .ok body) : SaysNothing call body := by
  obtain ⟨summary, hsummary, hbody⟩ := bind_eq_ok.mp h
  cases hsummary
  obtain ⟨hallocated, hbatch, hservice, answer, hanswer, htaken⟩ := makeBody_ok hbody
  cases hanswer
  exact ⟨hallocated, hbatch, hservice, htaken.sums (fun p hp => absurd hp List.not_mem_nil), htaken⟩

theorem prepare_describes {publisher : Publisher V α} {call : PublishCall V α}
    {first second : List (V1Pod LivePodBody)} {body : ResourceUsagePredictionsResource V}
    (hfirst : first ≠ []) (h : publisher.prepare call first second = .ok body) :
    publisher.Describes call second body := by
  obtain ⟨summary, hsummary, hbody⟩ := bind_eq_ok.mp h
  unfold summarize at hsummary
  rw [if_neg (fun hlength => hfirst (List.length_eq_zero_iff.mp hlength))] at hsummary
  obtain ⟨running, hrunning, hsummary⟩ := bind_eq_ok.mp hsummary
  obtain ⟨allocated, hallocated, hsummary⟩ := bind_eq_ok.mp hsummary
  obtain ⟨predictions, hpredictions, hsummary⟩ := bind_eq_ok.mp hsummary
  obtain ⟨counts, hcounts, hsummary⟩ := bind_eq_ok.mp hsummary
  cases hsummary
  obtain ⟨rfl, hdetermined⟩ := runningPods_ok hrunning
  obtain ⟨requested, hrequested, rfl⟩ := computeAllocatedResources_ok hallocated
  cases computeNumContainers_ok hcounts
  obtain ⟨hallocated', hbatch, hservice, answer, hanswer, htaken⟩ := makeBody_ok hbody
  refine ⟨hdetermined, ⟨requested, hrequested, ?_⟩, hbatch.trans (Nat.zero_add _),
    hservice.trans (Nat.zero_add _), answer, ?_, htaken⟩
  · rw [hallocated']
    exact congrArg Resources.toDict (Resources.zero_add _)
  · exact hpredictions.trans (congrArg Except.ok hanswer)

end Publisher

namespace PublishWorld

end PublishWorld

end

/-! ## One pod -/

/-- A batch pod that runs. -/
def runningTask : V1Pod LivePodBody where
  name := "task"
  spec :=
    { labels := some (OrderedDict.ofPairs [(labelKeyJobId, "job")])
      annotations := some (OrderedDict.ofPairs [(annotationKeyJobType, "BATCH")])
      containers := [containerOf "task" "2"]
      phase := "Running"
      containerStatuses := some [{ name := "task", state := some (some 1585000000) }] }

/-- A predictor that knows one window of the task's cpu. -/
def oneTaskService : PredictionService Int Int where
  clientCrt := some "client.crt"
  clientKey := some "client.key"
  url := some "predictions"
  stackBase := "stack"
  usage := fun _ => { map := OrderedDict.empty }
  query := fun _ _ _ _ => .ok (some
    { modelVersion := some "0.1"
      modelInstanceId := none
      predictionTsMs := some "1584979201000"
      metaData := none
      predictions := some [(some "task",
        OrderedDict.ofPairs [("cpu", some [⟨"p95", ["0-10"], [7]⟩])])] })

/-- What the publishing finds when the node runs one task. -/
def oneTaskCall : PublishCall Int Int where
  nowMs := 1584979202000
  service := oneTaskService
  node := .ok
    { kind := "Node"
      apiVersion := "v1"
      name := "node"
      uid := "uid"
      annotations := some OrderedDict.empty }

/-- A publisher that reads and writes whole numbers. -/
def oneTaskPublisher : Publisher Int Int where
  resourcesCapacity := Resources.zero.populateFromCapacityEnv (some "m5.metal")
  parseQuantity := parseListed
  int := fun text => pyInt text.toList
  float := fun text => pyInt text.toList
  str := fun value => toString value

/-- The pod turns up, and an event has it published. -/
def publishOneTask : List (PublishStep Int Int) :=
  [.podEvent { type := some "ADDED", object := runningTask },
    .handle 0 (.internal .predictUsage), .go 0 oneTaskCall .done, .go 0 oneTaskCall .done,
    .go 0 oneTaskCall .done, .go 0 oneTaskCall .done]

end TitusIsolate
