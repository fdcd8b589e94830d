import TitusIsolate.Lib.Run
import TitusIsolate.Api.Status

/-!
# The lock of the isolate endpoint

A call that raises between taking the lock and giving it back keeps it: there is no
`finally`. From then on every call times out and answers 404, also for a workload that
is isolated. So the lock is given back throughout a run of calls exactly when none of
them raises, and what can raise includes the metrics' tags.
-/

namespace TitusIsolate

open Run

namespace StatusState

variable {Time : Type} [Sub Time]

/-- The tags are had, and the registry records under them how long the workload waited. -/
def MetricsRecorded (s : StatusState Time) (call : StatusCall Time) (metrics : Metrics Time) :
    Prop :=
  ∃ tags, getTags metrics.tags = .ok tags
    ∧ metrics.record tags
        (call.stopTime - (s.isolateLatency.get? call.workloadId).getD call.startTime) = .ok ()

/-- Nothing the call runs under the lock raises: `is_isolated` answers, and for an isolated
workload on a host with a metrics manager the latency is recorded. -/
def RaisesNothing (s : StatusState Time) (call : StatusCall Time) : Prop :=
  call.isIsolated = .ok false
    ∨ (call.isIsolated = .ok true
      ∧ ∀ metrics, call.metricsManager = some metrics → s.MetricsRecorded call metrics)

/-- If the call takes the lock, the lock is free when the call ends. -/
def GivesLockBack (s : StatusState Time) (call : StatusCall Time) : Prop :=
  s.locked = false → (s.step call).locked = false

/-- A call made now, for an isolated workload and meeting no exception, returns 200. -/
def AnswersIsolated (s : StatusState Time) : Prop :=
  ∀ call : StatusCall Time, call.isIsolated = .ok true → s.RaisesNothing call →
    (s.isolateWorkload call).1 = .ok (statusResponse "workload_id" call.workloadId 200)

theorem recordLatency_locked (s : StatusState Time) (call : StatusCall Time) :
    (s.recordLatency call).2.locked = s.locked := by
  unfold recordLatency
  cases call.metricsManager with
  | none => rfl
  | some metrics =>
    cases h : getTags metrics.tags with
    | error e => simp [h]
    | ok tags => simp [h]

/-- What recording under the lock answers; the lock itself plays no part in it. -/
theorem recordLatency_ok_iff (s : StatusState Time) (call : StatusCall Time) (b : Bool) :
    (recordLatency { s with locked := b } call).1 = .ok ()
      ↔ ∀ metrics, call.metricsManager = some metrics → s.MetricsRecorded call metrics := by
  unfold recordLatency MetricsRecorded
  cases call.metricsManager with
  | none => simp
  | some metrics =>
    cases h : getTags metrics.tags with
    | error e => simp [h]
    | ok tags => simp [h]

/-- A call that cannot take the lock changes nothing and answers 404. -/
theorem isolateWorkload_of_locked {s : StatusState Time} (h : s.locked = true)
    (call : StatusCall Time) :
    s.isolateWorkload call = (.ok (statusResponse "workload_id" call.workloadId 404), s) := by
  unfold isolateWorkload
  rw [if_pos h]

/-- A call that takes the lock and raises nothing gives it back and answers: 200 exactly
for an isolated workload. -/
theorem isolateWorkload_of_raisesNothing {s : StatusState Time} {call : StatusCall Time}
    (h : s.locked = false) (hr : s.RaisesNothing call) :
    (s.step call).locked = false
      ∧ (call.isIsolated = .ok true →
          (s.isolateWorkload call).1 = .ok (statusResponse "workload_id" call.workloadId 200)) := by
  unfold step isolateWorkload
  simp only [h, Bool.false_eq_true, if_false]
  rcases hr with hi | ⟨hi, hr⟩
  · rw [hi]
    exact ⟨rfl, fun hx => by simp at hx⟩
  · have hrec := (recordLatency_ok_iff s call true).mpr hr
    rw [hi]
    cases hs : recordLatency { s with locked := true } call with
    | mk result s' =>
      rw [hs] at hrec
      change result = .ok () at hrec
      subst hrec
      exact ⟨rfl, fun _ => rfl⟩

/-- A call that takes the lock and raises keeps it. -/
theorem locked_of_raises {s : StatusState Time} {call : StatusCall Time}
    (h : s.locked = false) (hr : ¬ s.RaisesNothing call) : (s.step call).locked = true := by
  unfold step isolateWorkload
  simp only [h, Bool.false_eq_true, if_false]
  cases hi : call.isIsolated with
  | error e => rfl
  | ok isolated =>
    cases isolated with
    | false => exact absurd (Or.inl hi) hr
    | true =>
      -- `is_isolated` answered, so it is the metrics that raised, with the lock held
      have hlocked := recordLatency_locked { s with locked := true } call
      have hrec := (recordLatency_ok_iff s call true).mp
      cases hs : recordLatency { s with locked := true } call with
      | mk result s' =>
        rw [hs] at hlocked hrec
        cases result with
        | error e => exact hlocked
        | ok u => exact absurd (Or.inr ⟨hi, hrec rfl⟩) hr

/-- From a free lock, a call gives the lock back exactly when it raises nothing. -/
theorem step_locked_iff {s : StatusState Time} {call : StatusCall Time} (h : s.locked = false) :
    (s.step call).locked = false ↔ s.RaisesNothing call := by
  refine ⟨?_, ?_⟩
  · intro hs
    refine Classical.byContradiction ?_
    intro hr
    rw [locked_of_raises h hr] at hs
    exact absurd hs (by simp)
  · exact fun hr => (isolateWorkload_of_raisesNothing h hr).1

/-- While the lock is free, isolated workloads get their 200. -/
theorem answersIsolated_of_free {s : StatusState Time} (h : s.locked = false) :
    s.AnswersIsolated :=
  fun _ hi hr => (isolateWorkload_of_raisesNothing h hr).2 hi

/-- The lock is free throughout a run that starts with it free exactly when no call raises. -/
theorem always_free_iff {s : StatusState Time} (h : s.locked = false)
    (calls : List (StatusCall Time)) :
    Always step (fun s => s.locked = false) s calls ↔ EachStep step RaisesNothing s calls :=
  always_iff_eachStep (I := fun _ => True) (P := fun s : StatusState Time => s.locked = false)
    (fun _ _ _ => trivial) (fun _ _ _ hfree => step_locked_iff hfree) calls trivial h

/-- Calls that all give the lock back leave it free throughout. -/
theorem always_free_of_givesLockBack {s : StatusState Time} {calls : List (StatusCall Time)}
    (h : s.locked = false) (hg : EachStep step GivesLockBack s calls) :
    Always step (fun s => s.locked = false) s calls :=
  always_of_step (fun _ _ hfree hgive => hgive hfree) h hg

/--
**The endpoint gives its lock back exactly while nothing raises.** In a run of calls that
starts with the lock free, every call that takes the lock has given it back when it ends,
and in every state of the run an isolated workload would get its 200, if and only if
`is_isolated`, the tags and the recording raise in none of the calls.
-/
theorem isolateWorkload_lock_iff {s : StatusState Time} (h : s.locked = false)
    (calls : List (StatusCall Time)) :
    (EachStep step GivesLockBack s calls ∧ Always step AnswersIsolated s calls)
      ↔ EachStep step RaisesNothing s calls := by
  refine ⟨?_, ?_⟩
  · intro hgood
    exact (always_free_iff h calls).mp (always_free_of_givesLockBack h hgood.1)
  · intro hr
    have hfree := (always_free_iff h calls).mpr hr
    refine ⟨?_, hfree.mono (fun _ => answersIsolated_of_free)⟩
    exact eachStep_of_step (I := fun _ => True) (fun _ _ _ _ => trivial)
      (fun _ _ _ hnone hlock => (step_locked_iff hlock).mpr hnone) trivial hr

/-- An isolated workload is asked for while Kubernetes does not answer: building the remote
allocator asks it for the node. -/
def kubernetesDownCall : StatusCall Int where
  workloadId := "a"
  isIsolated := .ok true
  metricsManager := some
    { tags :=
        { ec2InstanceId := some "i-0"
          allocatorName := some "FallbackCpuAllocator"
          configManager := some
            { primaryAllocStr := .ok (some "GRPC_REMOTE")
              construct := fun
                | .grpcRemote => .error (.exception "(503) Reason: Service Unavailable")
                | _ => .ok ()
              getHttpCellName := .ok unknownCell
              getGrpcCellName := .ok unknownCell } }
      record := fun _ _ => .ok () }
  startTime := 10
  stopTime := 12

/-- An isolated workload is asked for on a host without a metrics manager. -/
def plainCall : StatusCall Int where
  workloadId := "b"
  isIsolated := .ok true
  metricsManager := none
  startTime := 20
  stopTime := 21

theorem plainCall_raisesNothing (s : StatusState Int) : s.RaisesNothing plainCall :=
  Or.inr ⟨rfl, fun _ h => absurd h (by simp [plainCall])⟩

theorem isolateWorkload_lock_iff_plain :
    (EachStep step GivesLockBack init [plainCall, plainCall]
        ∧ Always step AnswersIsolated init [plainCall, plainCall])
      ↔ EachStep step RaisesNothing init [plainCall, plainCall] :=
  isolateWorkload_lock_iff rfl _

/-- One call whose tags cannot be had keeps the lock, and the next workload gets a 404. -/
theorem lock_kept_after_kubernetesDown :
    ¬ EachStep step GivesLockBack init [kubernetesDownCall]
      ∧ (init.step kubernetesDownCall).RaisesNothing plainCall
      ∧ ((init.step kubernetesDownCall).isolateWorkload plainCall).1
          = .ok (statusResponse "workload_id" "b" 404)
      ∧ ¬ Always step AnswersIsolated init [kubernetesDownCall] := by
  have hlocked : (init.step kubernetesDownCall).locked = true := rfl
  refine ⟨?_, plainCall_raisesNothing _, rfl, ?_⟩
  · intro hg
    have hfree : (init.step kubernetesDownCall).locked = false := hg.1 rfl
    rw [hlocked] at hfree
    exact absurd hfree (by simp)
  · intro ha
    have h200 := ha.2 plainCall rfl (plainCall_raisesNothing _)
    rw [isolateWorkload_of_locked hlocked] at h200
    exact absurd h200 (by decide)

end StatusState

end TitusIsolate
