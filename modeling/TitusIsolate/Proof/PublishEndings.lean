import TitusIsolate.Proof.Publishing

/-!
# How publishings end

How `publish` ended is counted under a second lock, after the first was let go. No ending
is lost or counted twice, and none is kept from being counted: every way out of `publish`
lets the lock go, so if each thread in turn goes on, all of them end.
-/

namespace TitusIsolate

open Run

variable {V α : Type}

namespace PublishWorld

/-! ## No ending is lost -/

/-- How many threads are at such a phase. -/
def countAt (w : PublishWorld V α) (p : PublishPhase V α → Bool) : Nat := w.threads.values.countP p

theorem countAt_enter {w w' : PublishWorld V α} {t : Nat} {phase phase' : PublishPhase V α}
    (h : w.threads.get? t = some phase) (hthreads : w'.threads = w.threads.insert t phase')
    (p : PublishPhase V α → Bool) :
    w'.countAt p + (if p phase = true then 1 else 0)
      = w.countAt p + if p phase' = true then 1 else 0 := by
  unfold countAt
  rw [hthreads, OrderedDict.countP_values_insert, OrderedDict.countP_values_of_get? h]
  omega

theorem countAt_new {w w' : PublishWorld V α} {t : Nat} {phase : PublishPhase V α}
    (h : w.threads.get? t = none) (hthreads : w'.threads = w.threads.insert t phase)
    (p : PublishPhase V α → Bool) :
    w'.countAt p = w.countAt p + if p phase = true then 1 else 0 := by
  unfold countAt
  rw [hthreads, OrderedDict.countP_values_insert, OrderedDict.erase_eq_self h]

theorem countAt_gone {w w' : PublishWorld V α} {t : Nat} {phase : PublishPhase V α}
    (h : w.threads.get? t = some phase) (hthreads : w'.threads = w.threads.erase t)
    (p : PublishPhase V α → Bool) :
    w.countAt p = w'.countAt p + if p phase = true then 1 else 0 := by
  unfold countAt
  rw [hthreads, OrderedDict.countP_values_of_get? h]

end PublishWorld

namespace PublishPhase

/-- The publishing has returned, and is to be counted. -/
def hasReturned : PublishPhase V α → Bool
  | .leaving returned => returned
  | _ => false

/-- The publishing has raised, and is to be counted. -/
def hasRaised : PublishPhase V α → Bool
  | .leaving returned => !returned
  | _ => false

/-- The publishing is over, and is to be counted. -/
def isLeaving : PublishPhase V α → Bool
  | .leaving _ => true
  | _ => false

theorem not_leaving {phase : PublishPhase V α} (h : phase.isLeaving = false) :
    phase.hasReturned = false ∧ phase.hasRaised = false := by
  cases phase with
  | leaving => cases h
  | waiting => exact ⟨rfl, rfl⟩
  | looking => exact ⟨rfl, rfl⟩
  | gathering => exact ⟨rfl, rfl⟩
  | patching => exact ⟨rfl, rfl⟩
  | creating => exact ⟨rfl, rfl⟩

theorem not_leaving_of_requesting {phase : PublishPhase V α}
    {r : ApiVerb × ResourceUsagePredictionsResource V × PublishCall V α × Nat × Nat}
    (h : phase.requesting = some r) : phase.isLeaving = false := by
  cases phase with
  | leaving => cases h
  | waiting => rfl
  | looking => rfl
  | gathering => rfl
  | patching => rfl
  | creating => rfl

end PublishPhase

/-- The request was the last of a publishing that returned. -/
def ApiRequest.succeeded (r : ApiRequest V α) : Bool := r.verb.outcome r.answer == some true

namespace PublishWorld

/-- Where the endings of the publishings are. -/
structure Counted (w : PublishWorld V α) : Prop where
  asked : w.asked + w.countAt PublishPhase.isLeaving
    = w.returned + w.raised + w.countAt (fun _ => true)
  returned : w.returned
    = w.publishSuccessCount + w.reportedSuccess + w.countAt PublishPhase.hasReturned
  raised : w.raised
    = w.publishFailureCount + w.reportedFailure + w.countAt PublishPhase.hasRaised
  answered : w.returned = w.requests.countP ApiRequest.succeeded

theorem countAt_all (w : PublishWorld V α) :
    w.countAt (fun _ => true) = w.threads.keys.length := by
  unfold countAt OrderedDict.values OrderedDict.keys
  rw [List.countP_true, List.length_map, List.length_map]

/-- A thread that is leaving has returned or raised. -/
theorem countAt_isLeaving (w : PublishWorld V α) :
    w.countAt PublishPhase.isLeaving
      = w.countAt PublishPhase.hasReturned + w.countAt PublishPhase.hasRaised := by
  unfold countAt
  induction w.threads.values with
  | nil => rfl
  | cons phase phases ih =>
    rw [List.countP_cons, List.countP_cons, List.countP_cons, ih]
    cases phase with
    | leaving returned =>
      cases returned with
      | true => simp only [PublishPhase.isLeaving, PublishPhase.hasReturned,
          PublishPhase.hasRaised, if_true, Bool.not_true, if_false, Bool.false_eq_true]; omega
      | false => simp only [PublishPhase.isLeaving, PublishPhase.hasReturned,
          PublishPhase.hasRaised, if_true, Bool.not_false, if_false, Bool.false_eq_true]; omega
    | waiting => rfl
    | looking => rfl
    | gathering => rfl
    | patching => rfl
    | creating => rfl

theorem counted_init (podManager : PodManager LivePodBody) :
    (init podManager : PublishWorld V α).Counted := ⟨rfl, rfl, rfl, rfl⟩

section

variable {w w' : PublishWorld V α} {t : Nat} {phase phase' : PublishPhase V α}

theorem countAt_of_eq (h : w.threads.get? t = some phase)
    (hthreads : w'.threads = w.threads.insert t phase') {p : PublishPhase V α → Bool}
    (hp : p phase = p phase') : w'.countAt p = w.countAt p := by
  have := countAt_enter h hthreads p
  rw [hp] at this
  exact Nat.add_right_cancel this

/-- A thread that is not leaving moves on, and is not leaving then either. -/
theorem Counted.enter (h : w.Counted) (hget : w.threads.get? t = some phase)
    (hphase : phase.isLeaving = false) (hphase' : phase'.isLeaving = false) (lock : Option Nat)
    {requests : List (ApiRequest V α)} (hrequests : requests.countP ApiRequest.succeeded
      = w.requests.countP ApiRequest.succeeded) :
    Counted { w.enter t phase' with publishLock := lock, requests := requests } := by
  obtain ⟨hreturned, hraised⟩ := PublishPhase.not_leaving hphase
  obtain ⟨hreturned', hraised'⟩ := PublishPhase.not_leaving hphase'
  have hsame : ∀ {p : PublishPhase V α → Bool}, p phase = p phase' →
      (w.enter t phase').countAt p = w.countAt p := countAt_of_eq hget rfl
  refine ⟨?_, ?_, ?_, h.answered.trans hrequests.symm⟩
  · show w.asked + (w.enter t phase').countAt PublishPhase.isLeaving
      = w.returned + w.raised + (w.enter t phase').countAt (fun _ => true)
    rw [hsame (hphase.trans hphase'.symm), hsame rfl]
    exact h.asked
  · show w.returned = w.publishSuccessCount + w.reportedSuccess
      + (w.enter t phase').countAt PublishPhase.hasReturned
    rw [hsame (hreturned.trans hreturned'.symm)]
    exact h.returned
  · show w.raised = w.publishFailureCount + w.reportedFailure
      + (w.enter t phase').countAt PublishPhase.hasRaised
    rw [hsame (hraised.trans hraised'.symm)]
    exact h.raised

/-- A publishing ends, and how it ends is still to be counted. -/
theorem Counted.leave (h : w.Counted) (hget : w.threads.get? t = some phase)
    (hphase : phase.isLeaving = false) (returned : Bool) {requests : List (ApiRequest V α)}
    (hrequests : requests.countP ApiRequest.succeeded
      = w.requests.countP ApiRequest.succeeded + cond returned 1 0) :
    Counted
      { w.enter t (.leaving returned) with
        publishLock := none
        requests := requests
        returned := w.returned + cond returned 1 0
        raised := w.raised + cond returned 0 1 } := by
  obtain ⟨hreturned, hraised⟩ := PublishPhase.not_leaving hphase
  have hleaving := countAt_enter hget (rfl : (w.enter t (.leaving returned)).threads = _)
    PublishPhase.isLeaving
  have hall := countAt_enter hget (rfl : (w.enter t (.leaving returned)).threads = _)
    (fun _ => true)
  have hback := countAt_enter hget (rfl : (w.enter t (.leaving returned)).threads = _)
    PublishPhase.hasReturned
  have hfell := countAt_enter hget (rfl : (w.enter t (.leaving returned)).threads = _)
    PublishPhase.hasRaised
  rw [hphase] at hleaving
  rw [hreturned] at hback
  rw [hraised] at hfell
  obtain ⟨hasked, hok, hfailed, hanswered⟩ := h
  refine ⟨?_, ?_, ?_, ?_⟩
  · show w.asked + (w.enter t (.leaving returned)).countAt PublishPhase.isLeaving
      = w.returned + cond returned 1 0 + (w.raised + cond returned 0 1)
        + (w.enter t (.leaving returned)).countAt (fun _ => true)
    cases returned with
    | true => simp [PublishPhase.isLeaving] at *; omega
    | false => simp [PublishPhase.isLeaving] at *; omega
  · show w.returned + cond returned 1 0 = w.publishSuccessCount + w.reportedSuccess
      + (w.enter t (.leaving returned)).countAt PublishPhase.hasReturned
    cases returned with
    | true => simp [PublishPhase.hasReturned] at *; omega
    | false => simp [PublishPhase.hasReturned] at *; omega
  · show w.raised + cond returned 0 1 = w.publishFailureCount + w.reportedFailure
      + (w.enter t (.leaving returned)).countAt PublishPhase.hasRaised
    cases returned with
    | true => simp [PublishPhase.hasRaised] at *; omega
    | false => simp [PublishPhase.hasRaised] at *; omega
  · show w.returned + cond returned 1 0 = requests.countP ApiRequest.succeeded
    omega

theorem Counted.begun (h : w.Counted) (hget : w.threads.get? t = none) :
    Counted { w.enter t .waiting with asked := w.asked + 1 } := by
  have hnew : ∀ p : PublishPhase V α → Bool, (w.enter t .waiting).countAt p
      = w.countAt p + if p .waiting = true then 1 else 0 := countAt_new hget rfl
  have hleaving : (w.enter t .waiting).countAt PublishPhase.isLeaving
      = w.countAt PublishPhase.isLeaving := hnew _
  have hall : (w.enter t .waiting).countAt (fun _ => true) = w.countAt (fun _ => true) + 1 :=
    hnew _
  refine ⟨?_, h.returned.trans ?_, h.raised.trans ?_, h.answered⟩
  · show w.asked + 1 + (w.enter t .waiting).countAt PublishPhase.isLeaving
      = w.returned + w.raised + (w.enter t .waiting).countAt (fun _ => true)
    rw [hleaving, hall]
    have := h.asked
    omega
  · exact congrArg _ (hnew PublishPhase.hasReturned).symm
  · exact congrArg _ (hnew PublishPhase.hasRaised).symm

theorem Counted.count (h : w.Counted) {returned : Bool}
    (hget : w.threads.get? t = some (.leaving returned)) : (w.count t returned).Counted := by
  have hgone : ∀ p : PublishPhase V α → Bool, w.countAt p
      = (w.count t returned).countAt p + if p (.leaving returned) = true then 1 else 0 := by
    refine countAt_gone hget ?_
    cases returned with
    | true => rfl
    | false => rfl
  have hleaving : w.countAt PublishPhase.isLeaving
      = (w.count t returned).countAt PublishPhase.isLeaving + 1 := hgone _
  have hall : w.countAt (fun _ => true) = (w.count t returned).countAt (fun _ => true) + 1 :=
    hgone _
  have hasked : w.asked + (w.count t returned).countAt PublishPhase.isLeaving
      = w.returned + w.raised + (w.count t returned).countAt (fun _ => true) := by
    have := h.asked
    omega
  have hok := h.returned
  have hfailed := h.raised
  rw [hgone] at hok hfailed
  cases returned with
  | true =>
    refine ⟨hasked, ?_, hfailed, h.answered⟩
    show w.returned = w.publishSuccessCount + 1 + w.reportedSuccess
      + (w.count t true).countAt PublishPhase.hasReturned
    refine hok.trans ?_
    show w.publishSuccessCount + w.reportedSuccess
      + ((w.count t true).countAt PublishPhase.hasReturned + 1) = _
    omega
  | false =>
    refine ⟨hasked, hok, ?_, h.answered⟩
    show w.raised = w.publishFailureCount + 1 + w.reportedFailure
      + (w.count t false).countAt PublishPhase.hasRaised
    refine hfailed.trans ?_
    show w.publishFailureCount + w.reportedFailure
      + ((w.count t false).countAt PublishPhase.hasRaised + 1) = _
    omega

theorem Counted.reportMetrics (h : w.Counted) : w.reportMetrics.Counted := by
  refine ⟨h.asked, ?_, ?_, h.answered⟩
  · show w.returned = 0 + (w.reportedSuccess + w.publishSuccessCount)
      + w.countAt PublishPhase.hasReturned
    have := h.returned
    omega
  · show w.raised = 0 + (w.reportedFailure + w.publishFailureCount)
      + w.countAt PublishPhase.hasRaised
    have := h.raised
    omega

end

theorem countP_succeeded_concat (requests : List (ApiRequest V α)) {r : ApiRequest V α} {n : Nat}
    (h : (if r.succeeded = true then 1 else 0) = n) :
    (requests ++ [r]).countP ApiRequest.succeeded
      = requests.countP ApiRequest.succeeded + n := by
  rw [List.countP_append, List.countP_singleton, h]

/-- **One step keeps the books.** -/
theorem Counted.stepped [Add V] {publisher : Publisher V α} {w w' : PublishWorld V α}
    {e : PublishStep V α} (h : w.Counted) (hstep : Stepped publisher w e w') : w'.Counted := by
  cases hstep with
  | stays => exact h
  | podEvent event => exact ⟨h.asked, h.returned, h.raised, h.answered⟩
  | begun t ht => exact h.begun ht
  | locked t ht hfree => exact h.enter ht rfl rfl (some t) rfl
  | looked t ht => exact h.enter ht rfl rfl w.publishLock rfl
  | gathered t first view body ht call answer hbody => exact h.enter ht rfl rfl w.publishLock rfl
  | failed t first view ht => exact h.leave ht rfl false rfl
  | missing t body call firstView secondView ht =>
    exact h.enter ht rfl rfl w.publishLock (countP_succeeded_concat _ rfl)
  | returned t phase verb body call firstView secondView answer ht hphase houtcome =>
    refine h.leave ht (PublishPhase.not_leaving_of_requesting hphase) true
      (countP_succeeded_concat _ (if_pos ?_))
    exact beq_iff_eq.mpr houtcome
  | raised t phase verb body call firstView secondView answer ht hphase houtcome =>
    refine h.leave ht (PublishPhase.not_leaving_of_requesting hphase) false
      (countP_succeeded_concat _ (if_neg ?_))
    show ¬ (verb.outcome answer == some true) = true
    rw [houtcome]
    decide
  | counted t returned ht => exact h.count ht
  | reported => exact h.reportMetrics

/-- Each prediction event is among the successes, among the failures, or its thread is still
there; and the successes are the requests that ended a publishing well. -/
structure AllCounted (w : PublishWorld V α) : Prop where
  asked : w.asked = w.publishSuccessCount + w.reportedSuccess
    + (w.publishFailureCount + w.reportedFailure) + w.threads.keys.length
  succeeded : w.requests.countP ApiRequest.succeeded
    = w.publishSuccessCount + w.reportedSuccess + w.countAt PublishPhase.hasReturned

theorem Counted.allCounted {w : PublishWorld V α} (h : w.Counted) : w.AllCounted := by
  refine ⟨?_, h.answered.symm.trans h.returned⟩
  have hleaving := w.countAt_isLeaving
  have hall := w.countAt_all
  have hasked := h.asked
  have hreturned := h.returned
  have hraised := h.raised
  omega

/-- **Every ending is counted once**, however the events, their threads, the watch and the
reports take turns. Among the successes are the patches that were refused for another reason
than that the resource was not there. -/
theorem reachable_allCounted [Add V] (publisher : Publisher V α)
    (podManager : PodManager LivePodBody) (es : List (PublishStep V α)) :
    (exec (step publisher) (init podManager) es).AllCounted := by
  have h : (exec (step publisher) (init podManager) es).Counted :=
    exec_invariant (fun w e h => h.stepped (stepped publisher w e)) (counted_init podManager) es
  exact h.allCounted

end PublishWorld

/-! ## Every thread can end -/

/-- How many steps the thread is from its end, at most. -/
def PublishPhase.stepsLeft : PublishPhase V α → Nat
  | .waiting => 6
  | .looking => 5
  | .gathering _ _ => 4
  | .patching _ _ _ _ => 3
  | .creating _ _ _ _ => 2
  | .leaving _ => 1

namespace PublishWorld

/-- How many steps the `t`-th thread is from its end, at most. -/
def stepsLeft (w : PublishWorld V α) (t : Nat) : Nat :=
  ((w.threads.get? t).map PublishPhase.stepsLeft).getD 0

/-- No other thread keeps this one from going on. -/
def Clear (w : PublishWorld V α) (t : Nat) : Prop := w.publishLock = none ∨ w.publishLock = some t

theorem stepsLeft_le (w : PublishWorld V α) (t : Nat) : w.stepsLeft t ≤ 6 := by
  unfold stepsLeft
  cases w.threads.get? t with
  | none => exact Nat.zero_le 6
  | some phase =>
    cases phase with
    | waiting => exact (by decide : 6 ≤ 6)
    | looking => exact (by decide : 5 ≤ 6)
    | gathering => exact (by decide : 4 ≤ 6)
    | patching => exact (by decide : 3 ≤ 6)
    | creating => exact (by decide : 2 ≤ 6)
    | leaving => exact (by decide : 1 ≤ 6)

theorem get?_of_stepsLeft {w : PublishWorld V α} {t : Nat} (h : w.stepsLeft t = 0) :
    w.threads.get? t = none := by
  unfold stepsLeft at h
  cases hget : w.threads.get? t with
  | none => rfl
  | some phase =>
    rw [hget] at h
    cases phase with
    | waiting => cases h
    | looking => cases h
    | gathering => cases h
    | patching => cases h
    | creating => cases h
    | leaving => cases h

theorem stepsLeft_of_get? {w : PublishWorld V α} {t : Nat} {phase : PublishPhase V α}
    (h : w.threads.get? t = some phase) : w.stepsLeft t = phase.stepsLeft := by
  unfold stepsLeft
  rw [h]
  rfl

/-- What a thread does that goes on alone. -/
structure Advances (t n : Nat) (w w' : PublishWorld V α) : Prop where
  clear : w'.Clear t
  others : ∀ t', t' ≠ t → w'.threads.get? t' = w.threads.get? t'
  nearer : w'.stepsLeft t ≤ w.stepsLeft t - n

theorem Advances.trans {t n m : Nat} {w w' w'' : PublishWorld V α} (h : Advances t n w w')
    (h' : Advances t m w' w'') : Advances t (n + m) w w'' := by
  refine ⟨h'.clear, fun t' ht => (h'.others t' ht).trans (h.others t' ht), ?_⟩
  have := h.nearer
  have := h'.nearer
  omega

/-- The thread enters a phase that is nearer to its end. -/
theorem advances_of_insert {t : Nat} {w w' : PublishWorld V α} {phase phase' : PublishPhase V α}
    (hget : w.threads.get? t = some phase) (hclear : w'.Clear t)
    (hthreads : w'.threads = w.threads.insert t phase')
    (hnearer : phase'.stepsLeft < phase.stepsLeft) : Advances t 1 w w' := by
  have hself : w'.threads.get? t = some phase' := by
    rw [hthreads]
    exact get?_enter_self w t phase'
  refine ⟨hclear, fun t' ht => ?_, ?_⟩
  · rw [hthreads]
    exact (moves_enter w t phase').others t' ht
  · rw [stepsLeft_of_get? hself, stepsLeft_of_get? hget]
    exact Nat.le_sub_one_of_lt hnearer

theorem advances_patch {w : PublishWorld V α} {t : Nat}
    {body : ResourceUsagePredictionsResource V} {call : PublishCall V α}
    {firstView secondView : Nat}
    (hget : w.threads.get? t = some (.patching body call firstView secondView)) (hclear : w.Clear t)
    (answer : ApiAnswer) : Advances t 1 w (w.patch t body call firstView secondView answer) := by
  cases answer with
  | done => exact advances_of_insert hget (Or.inl rfl) rfl (by decide : 1 < 3)
  | raised e => exact advances_of_insert hget (Or.inl rfl) rfl (by decide : 1 < 3)
  | refused status =>
    unfold patch
    dsimp only
    split
    · exact advances_of_insert hget hclear rfl (by decide : 2 < 3)
    · exact advances_of_insert hget (Or.inl rfl) rfl (by decide : 1 < 3)

theorem advances_create {w : PublishWorld V α} {t : Nat}
    {body : ResourceUsagePredictionsResource V} {call : PublishCall V α}
    {firstView secondView : Nat}
    (hget : w.threads.get? t = some (.creating body call firstView secondView))
    (answer : ApiAnswer) :
    Advances t 1 w (w.create t body call firstView secondView answer) := by
  cases answer with
  | done => exact advances_of_insert hget (Or.inl rfl) rfl (by decide : 1 < 2)
  | refused status => exact advances_of_insert hget (Or.inl rfl) rfl (by decide : 1 < 2)
  | raised e => exact advances_of_insert hget (Or.inl rfl) rfl (by decide : 1 < 2)

theorem advances_count {w : PublishWorld V α} {t : Nat} {returned : Bool}
    (hget : w.threads.get? t = some (.leaving returned)) (hclear : w.Clear t) :
    Advances t 1 w (w.count t returned) := by
  have hthreads : (w.count t returned).threads = w.threads.erase t := by
    cases returned with
    | true => rfl
    | false => rfl
  have hlock : (w.count t returned).publishLock = w.publishLock := by
    cases returned with
    | true => rfl
    | false => rfl
  refine ⟨?_, fun t' ht => ?_, ?_⟩
  · unfold Clear
    rw [hlock]
    exact hclear
  · rw [hthreads, OrderedDict.get?_erase, if_neg ht]
  · unfold stepsLeft
    rw [hthreads, OrderedDict.get?_erase, if_pos rfl]
    exact Nat.zero_le _

/-- **A thread that nothing keeps goes on**, whatever it is answered. -/
theorem Orderly.advances [Add V] {publisher : Publisher V α} {w : PublishWorld V α}
    {done : List (Publishing V α)} (h : w.Orderly publisher done) {t : Nat} (hclear : w.Clear t)
    (call : PublishCall V α) (answer : ApiAnswer) :
    Advances t 1 w (w.go publisher t call answer) := by
  unfold go
  cases hget : w.threads.get? t with
  | none =>
    refine ⟨hclear, fun _ _ => rfl, ?_⟩
    unfold stepsLeft
    rw [hget]
    exact Nat.zero_le _
  | some phase =>
    cases phase with
    | waiting =>
      have hfree : w.publishLock = none := hclear.resolve_right
        (fun hlock => Bool.false_ne_true ((h.lock t _ hget).mpr hlock))
      dsimp only
      rw [hfree]
      exact advances_of_insert hget (Or.inr rfl) rfl (by decide : 5 < 6)
    | looking => exact advances_of_insert hget hclear rfl (by decide : 4 < 5)
    | gathering first view =>
      dsimp only
      unfold gather
      cases publisher.prepare call first w.podManager.getPods with
      | error e => exact advances_of_insert hget (Or.inl rfl) rfl (by decide : 1 < 4)
      | ok body => exact advances_of_insert hget hclear rfl (by decide : 3 < 4)
    | patching body call firstView secondView => exact advances_patch hget hclear answer
    | creating body call firstView secondView => exact advances_create hget answer
    | leaving returned => exact advances_count hget hclear

/-- The thread goes on, with these calls and answers. -/
def turns (t : Nat) (choices : List (PublishCall V α × ApiAnswer)) : List (PublishStep V α) :=
  choices.map (fun c => .go t c.1 c.2)

theorem Orderly.turns [Add V] {publisher : Publisher V α} {t : Nat}
    (choices : List (PublishCall V α × ApiAnswer)) :
    ∀ {w : PublishWorld V α} {done : List (Publishing V α)}, w.Orderly publisher done → w.Clear t →
      (∃ done', (exec (step publisher) w (turns t choices)).Orderly publisher done')
        ∧ Advances t choices.length w (exec (step publisher) w (turns t choices)) := by
  induction choices with
  | nil =>
    intro w done h hclear
    exact ⟨⟨done, h⟩, hclear, fun _ _ => rfl, Nat.le_refl _⟩
  | cons choice choices ih =>
    intro w done h hclear
    have hfirst := h.advances hclear choice.1 choice.2
    obtain ⟨done', h'⟩ := h.stepped (stepped_go publisher w t choice.1 choice.2)
    obtain ⟨hlast, hrest⟩ := ih h' hfirst.clear
    refine ⟨hlast, ?_⟩
    have hall := hfirst.trans hrest
    rw [Nat.add_comm] at hall
    exact hall

/-- Each thread in turn goes on until it ends, the one that holds the lock first. -/
theorem drains [Add V] {publisher : Publisher V α}
    (choices : Nat → Fin 6 → PublishCall V α × ApiAnswer) (order : List Nat) :
    ∀ {w : PublishWorld V α} {done : List (Publishing V α)}, w.Orderly publisher done →
      (∀ t, w.publishLock = some t → order.head? = some t) →
      (∀ t, w.threads.get? t ≠ none → t ∈ order) →
      ∃ done', (exec (step publisher) w
          (order.flatMap (fun t => turns t (List.ofFn (choices t))))).Orderly publisher done'
        ∧ ∀ t, (exec (step publisher) w
          (order.flatMap (fun t => turns t (List.ofFn (choices t))))).threads.get? t = none := by
  induction order with
  | nil =>
    intro w done h _ hall
    refine ⟨done, h, fun t => ?_⟩
    by_contra hthere
    exact List.not_mem_nil (hall t hthere)
  | cons t order ih =>
    intro w done h hhead hall
    have hclear : w.Clear t := by
      cases hlock : w.publishLock with
      | none => exact Or.inl hlock
      | some t' =>
        have := hhead t' hlock
        rw [List.head?_cons] at this
        exact Or.inr (hlock.trans this.symm)
    obtain ⟨⟨done', h'⟩, hadvances⟩ := h.turns (List.ofFn (choices t)) hclear
    rw [List.flatMap_cons, exec_append]
    generalize exec (step publisher) w (PublishWorld.turns t (List.ofFn (choices t))) = w' at *
    have hgone : w'.threads.get? t = none := by
      refine get?_of_stepsLeft (Nat.le_zero.mp (hadvances.nearer.trans ?_))
      rw [List.length_ofFn]
      exact Nat.le_of_eq (Nat.sub_eq_zero_of_le (w.stepsLeft_le t))
    have hfree : w'.publishLock = none :=
      hadvances.clear.resolve_right (fun hlock => h'.held t hlock hgone)
    refine ih h' (fun t' hlock => ?_) (fun t' hthere => ?_)
    · rw [hfree] at hlock
      exact absurd hlock.symm (Option.some_ne_none t')
    · have hne : t' ≠ t := fun heq => hthere (heq ▸ hgone)
      rw [hadvances.others t' hne] at hthere
      exact (List.mem_cons.mp (hall t' hthere)).resolve_left hne

/-- **No thread is kept from ending.** From wherever a run has come to, there is an order of the
threads in which six steps of each end them all, whatever the services answer: the lock is
free, and every prediction event there ever was is among the successes or the failures. -/
theorem reachable_drains [Add V] (publisher : Publisher V α)
    (podManager : PodManager LivePodBody) (es : List (PublishStep V α)) :
    ∃ order : List Nat,
      order.Perm (exec (step publisher) (init podManager) es).threads.keys
        ∧ ∀ choices : Nat → Fin 6 → PublishCall V α × ApiAnswer, ∃ w,
          exec (step publisher) (init podManager)
              (es ++ order.flatMap (fun t => turns t (List.ofFn (choices t)))) = w
            ∧ w.threads.keys = [] ∧ w.publishLock = none
            ∧ w.asked = w.publishSuccessCount + w.reportedSuccess
              + (w.publishFailureCount + w.reportedFailure) := by
  obtain ⟨done, h⟩ := exists_orderly publisher podManager es
  obtain ⟨order, hperm, hhead⟩ : ∃ order : List Nat,
      order.Perm (exec (step publisher) (init podManager) es).threads.keys
        ∧ ∀ t, (exec (step publisher) (init podManager) es).publishLock = some t →
          order.head? = some t := by
    cases hlock : (exec (step publisher) (init podManager) es).publishLock with
    | none => exact ⟨_, List.Perm.refl _, fun t heq => absurd heq.symm (Option.some_ne_none t)⟩
    | some t =>
      have hthere := h.held t hlock
      rw [Ne, OrderedDict.get?_eq_none_iff, Classical.not_not] at hthere
      exact ⟨_, (List.perm_cons_erase hthere).symm, fun t' heq => heq⟩
  refine ⟨order, hperm, fun choices => ⟨_, rfl, ?_⟩⟩
  obtain ⟨done', h', hgone⟩ := drains choices order h hhead (fun t hthere => by
    rw [Ne, OrderedDict.get?_eq_none_iff, Classical.not_not] at hthere
    exact hperm.mem_iff.mpr hthere)
  have hcounted := reachable_allCounted publisher podManager
    (es ++ order.flatMap (fun t => turns t (List.ofFn (choices t))))
  rw [exec_append] at hcounted ⊢
  have hnone : ∀ t, t ∉ (exec (step publisher) (exec (step publisher) (init podManager) es)
      (order.flatMap (fun t => turns t (List.ofFn (choices t))))).threads.keys :=
    fun t => OrderedDict.get?_eq_none_iff.mp (hgone t)
  have hkeys := List.eq_nil_iff_forall_not_mem.mpr hnone
  refine ⟨hkeys, ?_, ?_⟩
  · refine Option.eq_none_iff_forall_ne_some.mpr (fun t hlock => ?_)
    exact h'.held t hlock (hgone t)
  · have hasked := hcounted.asked
    rw [hkeys] at hasked
    exact hasked

end PublishWorld

end TitusIsolate
