import TitusIsolate.Model.Config
import TitusIsolate.Proof.Greedy
import TitusIsolate.Proof.Naive

/-!
# What a failed primary leaves on the fallback

Only Greedy raises, and it raises with the request's CPU cleared and partly filled.
The secondary is handed that CPU: Greedy clears it again, but Naive keeps what it
finds placed and Noop answers with it. So the secondary answers as if it had been
asked first unless Greedy raised before Naive or Noop was asked.
-/

namespace TitusIsolate

open FallbackCpuAllocator

section

variable {Rng : Type} (fallbackQueueDepth : Int) (primary secondary : CpuAllocator Rng)
  (ambient : Ambient Rng) (request : AllocateRequest)

/-- The call is served by the secondary. -/
def FallsBack : Prop :=
  (∃ e, shouldFallbackImmediately fallbackQueueDepth ambient = .error e)
    ∨ ∃ e, (primary.isolate ambient request).result = .error e

/-- What the answer should be when the secondary serves the call. -/
structure AnswersAsSecondary (keeps : Prop) : Prop where
  /-- The secondary's answer to the request as it was given. -/
  answer : ∀ response,
    ((fallbackCpuAllocator fallbackQueueDepth primary secondary).isolate ambient request).result
        = .ok response ↔ (secondary.isolate ambient request).result = .ok response
  /-- What is placed stays where it is. -/
  kept : keeps → ∀ response,
    ((fallbackCpuAllocator fallbackQueueDepth primary secondary).isolate ambient request).result
        = .ok response →
      ∀ u ∈ request.workloads.keys, Claimed request.cpu u →
        Update.getThreads response.cpu u = Update.getThreads request.cpu u
  /-- What is new gets what it asks for, or all there is. -/
  placed : keeps → ∀ response,
    ((fallbackCpuAllocator fallbackQueueDepth primary secondary).isolate ambient request).result
        = .ok response →
      ∀ w ∈ request.workloads.values, ¬ Claimed request.cpu w.taskId → 0 ≤ w.threadCount →
        (holdCount response.cpu.getThreads w.taskId : Int)
          = min w.threadCount request.cpu.getThreads.length

end

section

variable {Rng : Type} {random : RandomSource Rng} {fallbackQueueDepth : Int}
  {primary secondary : CpuAllocator Rng} {ambient : Ambient Rng} {request : AllocateRequest}

/-- An immediate fallback hands the request on as it is. -/
theorem fallback_immediate {e : PyError}
    (h : shouldFallbackImmediately fallbackQueueDepth ambient = .error e) :
    (fallbackCpuAllocator fallbackQueueDepth primary secondary).isolate ambient request
      = secondary.isolate ambient request := by
  unfold fallbackCpuAllocator
  simp only [h]

/-- A primary that answers is the answer. -/
theorem fallback_primary {response : AllocateResponse}
    (h : shouldFallbackImmediately fallbackQueueDepth ambient = .ok ())
    (hok : (primary.isolate ambient request).result = .ok response) :
    (fallbackCpuAllocator fallbackQueueDepth primary secondary).isolate ambient request
      = primary.isolate ambient request := by
  unfold fallbackCpuAllocator
  simp only [h, hok]

/-- A primary that raises hands on what it made of the request. -/
theorem fallback_secondary {e : PyError}
    (h : shouldFallbackImmediately fallbackQueueDepth ambient = .ok ())
    (herr : (primary.isolate ambient request).result = .error e) :
    (fallbackCpuAllocator fallbackQueueDepth primary secondary).isolate ambient request
      = secondary.isolate { ambient with rng := (primary.isolate ambient request).rng }
          (primary.isolate ambient request).request := by
  unfold fallbackCpuAllocator
  simp only [h, herr]

/-- **Who answers.** An answer is the primary's, the secondary's to the request as given,
or the secondary's to what a primary that raised left of it. -/
theorem fallback_ok_cases {response : AllocateResponse}
    (h : ((fallbackCpuAllocator fallbackQueueDepth primary secondary).isolate ambient
      request).result = .ok response) :
    (primary.isolate ambient request).result = .ok response
      ∨ (secondary.isolate ambient request).result = .ok response
      ∨ ∃ e, (primary.isolate ambient request).result = .error e
        ∧ (secondary.isolate { ambient with rng := (primary.isolate ambient request).rng }
            (primary.isolate ambient request).request).result = .ok response := by
  cases hdepth : shouldFallbackImmediately fallbackQueueDepth ambient with
  | error e =>
    rw [fallback_immediate hdepth] at h
    exact Or.inr (Or.inl h)
  | ok _ =>
    cases hprimary : (primary.isolate ambient request).result with
    | ok response' =>
      rw [fallback_primary hdepth hprimary, hprimary] at h
      exact Or.inl h
    | error e =>
      rw [fallback_secondary hdepth hprimary] at h
      exact Or.inr (Or.inr ⟨e, rfl, h⟩)

/-- **What a built-in allocator answers**: the allocations on some CPU, under its name. -/
theorem build_result_ok {kind : AllocatorKind} {response : AllocateResponse}
    (h : ((kind.build random).isolate ambient request).result = .ok response) :
    ∃ cpu, response = allocateResponse ambient cpu
      (getWorkloadAllocations ambient.memoryFlags cpu request.workloads.values)
      (kind.build random).getName OrderedDict.empty := by
  cases kind with
  | greedy =>
    obtain ⟨cpu, _, _, _, ⟨hok, _⟩ | ⟨⟨e, he⟩, _⟩⟩ := greedy_result ambient request
    · exact ⟨cpu, (Except.ok.inj (hok.symm.trans h)).symm⟩
    · exact absurd (he.symm.trans h) (by simp)
  | naive => exact ⟨_, (Except.ok.inj h).symm⟩
  | noop => exact ⟨_, (Except.ok.inj h).symm⟩

/-- Only Greedy raises, and only on a request it does not accept. -/
theorem build_result_error {kind : AllocatorKind} {e : PyError}
    (h : ((kind.build random).isolate ambient request).result = .error e) :
    kind = .greedy ∧ ¬ GreedyAccepts request.cpu request.workloads := by
  cases kind with
  | greedy =>
    refine ⟨rfl, ?_⟩
    intro hacc
    obtain ⟨response, hok⟩ := (greedy_ok_iff ambient request).mpr hacc
    have h' : ((greedyCpuAllocator Rng).isolate ambient request).result = .error e := h
    rw [hok] at h'
    exact absurd h' (by simp)
  | naive =>
    obtain ⟨response, hok, _⟩ := naive_answer random ambient request
    have h' : ((naiveCpuAllocator random).isolate ambient request).result = .error e := h
    rw [hok] at h'
    exact absurd h' (by simp)
  | noop => exact absurd h (by simp [AllocatorKind.build, noopCpuAllocator])

/-- Greedy raises before Naive or Noop is asked. -/
def GreedyRaisesFirst (fallbackQueueDepth : Int) (primary secondary : AllocatorKind)
    (ambient : Ambient Rng) (request : AllocateRequest) : Prop :=
  shouldFallbackImmediately fallbackQueueDepth ambient = .ok ()
    ∧ primary = .greedy ∧ secondary ≠ .greedy ∧ ¬ GreedyAccepts request.cpu request.workloads

/-- Unless Greedy raises first, the secondary's answer is to the request as given. -/
theorem fallback_answer {primary secondary : AllocatorKind}
    (hclean : ¬ GreedyRaisesFirst fallbackQueueDepth primary secondary ambient request)
    (hfalls : FallsBack fallbackQueueDepth (primary.build random) ambient request)
    (response : AllocateResponse) :
    ((fallbackCpuAllocator fallbackQueueDepth (primary.build random)
        (secondary.build random)).isolate ambient request).result = .ok response
      ↔ ((secondary.build random).isolate ambient request).result = .ok response := by
  cases hdepth : shouldFallbackImmediately fallbackQueueDepth ambient with
  | error e => rw [fallback_immediate hdepth]
  | ok _ =>
    rcases hfalls with ⟨e, he⟩ | ⟨e, he⟩
    · rw [hdepth] at he
      exact absurd he (by simp)
    · obtain ⟨rfl, hrefuse⟩ := build_result_error he
      have hsec : secondary = .greedy := by
        by_contra hne
        exact hclean ⟨hdepth, rfl, hne, hrefuse⟩
      subst hsec
      -- Greedy after Greedy: both the first and the second attempt raise
      rw [fallback_secondary hdepth he]
      obtain ⟨cpu, hreq, _, hplaced, _⟩ := greedy_result ambient request
      have hrefuse' : ¬ GreedyAccepts cpu request.workloads := by
        unfold GreedyAccepts at hrefuse ⊢
        rw [hplaced.length_eq, Cpu.getThreads_clear, List.length_map]
        exact hrefuse
      have hnone : ∀ (a : Ambient Rng) (c : Cpu), ¬ GreedyAccepts c request.workloads →
          ((greedyCpuAllocator Rng).isolate a { request with cpu := c }).result ≠ .ok response := by
        intro a c hc hres
        exact hc ((greedy_ok_iff _ _).mp ⟨response, hres⟩)
      refine ⟨?_, ?_⟩
      · intro hres
        have hres' : ((greedyCpuAllocator Rng).isolate _
          ((greedyCpuAllocator Rng).isolate ambient request).request).result = .ok response := hres
        rw [hreq] at hres'
        exact absurd hres' (hnone _ cpu hrefuse')
      · intro hres
        exact absurd hres (hnone ambient request.cpu hrefuse)

/-- **A clean fallback.** Unless Greedy raises first, the answer is the secondary's
answer to the request as it was given. -/
theorem answersAsSecondary {primary secondary : AllocatorKind}
    (hclean : ¬ GreedyRaisesFirst fallbackQueueDepth primary secondary ambient request)
    (hfalls : FallsBack fallbackQueueDepth (primary.build random) ambient request) :
    AnswersAsSecondary fallbackQueueDepth (primary.build random) (secondary.build random)
      ambient request (secondary = .naive) := by
  have hnaive : secondary = .naive → ∀ response,
      ((fallbackCpuAllocator fallbackQueueDepth (primary.build random)
        (secondary.build random)).isolate ambient request).result = .ok response →
      NaiveAnswer ambient request response := by
    intro heq response hres
    subst heq
    rw [fallback_answer hclean hfalls] at hres
    obtain ⟨response', hok, hanswer⟩ := naive_answer random ambient request
    have hres' : ((naiveCpuAllocator random).isolate ambient request).result = .ok response := hres
    rw [hok] at hres'
    obtain rfl := Except.ok.inj hres'
    exact hanswer
  exact
    { answer := fallback_answer hclean hfalls
      kept := fun h response hres => (hnaive h response hres).kept
      placed := fun h response hres => (hnaive h response hres).placed }

/-- The CPU Greedy leaves in the request, whether or not it raised. -/
theorem greedy_request_cpu :
    ((greedyCpuAllocator Rng).isolate ambient request).request.cpu
      = (GreedyCpuAllocator.assignAll request.workloads.values request.cpu.clear).2 := by
  unfold greedyCpuAllocator
  dsimp only
  cases h : GreedyCpuAllocator.assignAll request.workloads.values request.cpu.clear with
  | mk result cpu =>
    cases result with
    | error e => rfl
    | ok _ => rfl

end

/-! ## When Greedy raises first -/

/-- Two threads, the second of them claimed by `a`. -/
def aOnSecond : Cpu := NaiveCpuAllocator.claimThreads "a" [1] Config.twoThreads

/-- `a` keeps its thread and `b` asks for five. -/
def crowded : AllocateRequest where
  cpu := aOnSecond
  workloads := (WorkloadMap.empty.put ⟨"a", "job", 1⟩).put ⟨"b", "job", 5⟩
  metadata := []

theorem crowded_before : Update.getThreads crowded.cpu "a" = [1] := by decide +kernel

/-- Greedy moves `a` before it raises. -/
theorem crowded_after {Rng : Type} (ambient : Ambient Rng) :
    Update.getThreads ((greedyCpuAllocator Rng).isolate ambient crowded).request.cpu "a" = [0] := by
  rw [greedy_request_cpu]
  decide +kernel

theorem crowded_refused : ¬ GreedyAccepts crowded.cpu crowded.workloads := by decide +kernel

theorem crowded_has_a : "a" ∈ crowded.workloads.keys := by decide +kernel

/-- A kind that does not raise answers with `a` where it finds it. -/
theorem build_keeps {Rng : Type} (random : RandomSource Rng) {kind : AllocatorKind}
    (hne : kind ≠ .greedy) (ambient : Ambient Rng) {request : AllocateRequest} {u : WorkloadId}
    (hu : u ∈ request.workloads.keys) (hcl : Claimed request.cpu u) :
    ∃ response, ((kind.build random).isolate ambient request).result = .ok response
      ∧ Update.getThreads response.cpu u = Update.getThreads request.cpu u := by
  cases kind with
  | greedy => exact absurd rfl hne
  | naive =>
    obtain ⟨response, hok, hanswer⟩ := naive_answer random ambient request
    exact ⟨response, hok, hanswer.kept u hu hcl⟩
  | noop => exact ⟨_, rfl, rfl⟩

section

variable {Rng : Type} (random : RandomSource Rng) (fallbackQueueDepth : Int)

/-- On the crowded request Naive and Noop answer for the CPU that Greedy rearranged. -/
theorem crowded_spoiled {secondary : AllocatorKind} (hne : secondary ≠ .greedy) (rng : Rng) :
    FallsBack fallbackQueueDepth (AllocatorKind.greedy.build random) (Ambient.unset rng) crowded
      ∧ ¬ AnswersAsSecondary fallbackQueueDepth (AllocatorKind.greedy.build random)
          (secondary.build random) (Ambient.unset rng) crowded (secondary = .naive) := by
  have hdepth : shouldFallbackImmediately fallbackQueueDepth (Ambient.unset rng) = .ok () := rfl
  obtain ⟨e, he⟩ : ∃ e,
      ((greedyCpuAllocator Rng).isolate (Ambient.unset rng) crowded).result = .error e := by
    cases h : ((greedyCpuAllocator Rng).isolate (Ambient.unset rng) crowded).result with
    | error e => exact ⟨e, rfl⟩
    | ok response => exact absurd ((greedy_ok_iff _ _).mp ⟨response, h⟩) crowded_refused
  refine ⟨Or.inr ⟨e, he⟩, ?_⟩
  intro hanswers
  -- what the secondary answers to the request as given
  obtain ⟨response, hok, hthreads⟩ := build_keeps random hne (Ambient.unset rng)
    crowded_has_a (claimed_iff_getThreads.mpr (by rw [crowded_before]; simp))
  have hfall := (hanswers.answer response).mpr hok
  -- what it answers to the request as Greedy left it
  have hclaimed : Claimed ((greedyCpuAllocator Rng).isolate (Ambient.unset rng) crowded).request.cpu
      "a" := claimed_iff_getThreads.mpr (by rw [crowded_after]; simp)
  have hkeys : "a" ∈ ((greedyCpuAllocator Rng).isolate (Ambient.unset rng)
      crowded).request.workloads.keys := by
    rw [(greedy_request _ _).1]
    exact crowded_has_a
  obtain ⟨response', hok', hthreads'⟩ := build_keeps random hne
    { Ambient.unset rng with
      rng := ((AllocatorKind.greedy.build random).isolate (Ambient.unset rng) crowded).rng }
    hkeys hclaimed
  have he' : ((AllocatorKind.greedy.build random).isolate (Ambient.unset rng) crowded).result
      = .error e := he
  rw [fallback_secondary hdepth he'] at hfall
  have hsame : response' = response := by
    have : (Except.ok response' : Except PyError AllocateResponse) = .ok response :=
      hok'.symm.trans hfall
    exact Except.ok.inj this
  rw [hsame, hthreads, crowded_before, crowded_after] at hthreads'
  exact absurd hthreads' (by decide)

/--
**When a failed primary leaves no trace.** Whatever the request and the queue depth,
it leaves none unless Greedy raises before Naive or Noop is asked; and no pair of
allocators is free of traces on all requests but those where that cannot happen.
-/
theorem fallback_untraced [Inhabited Rng] (primary secondary : AllocatorKind) :
    (∀ ambient request,
        ¬ GreedyRaisesFirst fallbackQueueDepth primary secondary ambient request →
        FallsBack fallbackQueueDepth (primary.build random) ambient request →
        AnswersAsSecondary fallbackQueueDepth (primary.build random) (secondary.build random)
          ambient request (secondary = .naive))
      ∧ ((∀ ambient request,
            FallsBack fallbackQueueDepth (primary.build random) ambient request →
            AnswersAsSecondary fallbackQueueDepth (primary.build random) (secondary.build random)
              ambient request (secondary = .naive))
          ↔ ¬ (primary = .greedy ∧ secondary ≠ .greedy)) := by
  refine ⟨fun ambient request => answersAsSecondary, ?_⟩
  refine ⟨?_, ?_⟩
  · intro hall hx
    obtain ⟨rfl, hne⟩ := hx
    obtain ⟨hfalls, hnot⟩ := crowded_spoiled random fallbackQueueDepth hne default
    exact hnot (hall _ _ hfalls)
  · intro hpair ambient request hfalls
    exact answersAsSecondary (fun h => hpair ⟨h.2.1, h.2.2.1⟩) hfalls

end

/-- Naive serves the crowded request by itself when the queue is deep. -/
theorem fallback_untraced_deep :
    AnswersAsSecondary 5 (AllocatorKind.greedy.build RandomSource.reversing)
      (AllocatorKind.naive.build RandomSource.reversing)
      { Ambient.unset () with queueDepth := some 7 } crowded (AllocatorKind.naive = .naive) := by
  have hdepth : ∃ e, shouldFallbackImmediately 5
      { Ambient.unset () with queueDepth := some 7 } = .error e := ⟨_, rfl⟩
  refine (fallback_untraced RandomSource.reversing 5 .greedy .naive).1 _ _ ?_ (Or.inl hdepth)
  intro h
  obtain ⟨hok, _⟩ := h
  obtain ⟨e, he⟩ := hdepth
  rw [he] at hok
  exact absurd hok (by simp)

/-- With Greedy before Naive, `a` loses its thread although it is placed and stays. -/
theorem fallback_traced_naive :
    FallsBack 5 (AllocatorKind.greedy.build RandomSource.reversing) (Ambient.unset ()) crowded
      ∧ ¬ AnswersAsSecondary 5 (AllocatorKind.greedy.build RandomSource.reversing)
          (AllocatorKind.naive.build RandomSource.reversing) (Ambient.unset ()) crowded
          (AllocatorKind.naive = .naive) :=
  crowded_spoiled RandomSource.reversing 5 (by decide) ()

end TitusIsolate
