import TitusIsolate.Cgroup.File
import TitusIsolate.Isolate.WorkloadManager

/-!
# A workload manager on the cgroup files

`isolate` holds the manager's lock and makes its cgroup calls one by one, while the
writer threads that earlier calls started go on ending. A host is a workload manager
with its file cgroup manager and, while a call of `isolate` is under way, the cgroup
calls it has still to make and the state it will leave.
-/

namespace TitusIsolate

/-- The workload manager, and the files its cgroup manager writes. -/
structure Host where
  wm : WorkloadManager
  world : FileWorld
  /-- The call of `isolate` that holds the lock. -/
  inCall : Option (List CgroupCall × WorkloadManager)

/-- What happens next. -/
inductive HostEvent (Rng : Type) where
  /-- `isolate` is called; it waits when another call holds the lock. -/
  | isolate (call : IsolateCall Rng)
  /-- The call that holds the lock makes its next cgroup call, or ends. -/
  | advance (ok : Bool)
  /-- A writer thread ends. -/
  | complete (i : Nat) (ok : Bool)

namespace Host

/-- A host on which `isolate` was not called yet. -/
def init (wm : WorkloadManager) (files : Files) : Host where
  wm := wm
  world := FileWorld.init files
  inCall := none

variable {Rng : Type} (allocator : CpuAllocator Rng)
  (reportCpuEvent : Ambient Rng → AllocateRequest → AllocateResponse → Except PyError Unit)

/-- A call of `isolate` begins, goes on by a cgroup call, or a writing thread ends. -/
def step (h : Host) : HostEvent Rng → Host
  | .isolate call =>
      match h.inCall with
      | some _ => h
      | none =>
          let outcome := h.wm.isolate allocator reportCpuEvent call
          { h with inCall := some (outcome.cgroupCalls, outcome.manager) }
  | .advance ok =>
      match h.inCall with
      | none => h
      | some ([], wm) => { h with wm := wm, inCall := none }
      | some (c :: cs, wm) => { h with world := h.world.perform c ok, inCall := some (cs, wm) }
  | .complete i ok => { h with world := h.world.complete i ok }

/-- What an event does: nothing, because the lock is held or nobody holds it; a call of `isolate`
begins, ends or makes its next cgroup call; a thread ends. -/
theorem step_cases (h : Host) (e : HostEvent Rng) :
    (h.step allocator reportCpuEvent e = h
        ∧ ((∃ call, e = .isolate call) ∨ ∃ ok, e = .advance ok ∧ h.inCall = none))
      ∨ (∃ call, e = .isolate call ∧ h.inCall = none ∧ h.step allocator reportCpuEvent e
          = { h with
              inCall := some ((h.wm.isolate allocator reportCpuEvent call).cgroupCalls,
                (h.wm.isolate allocator reportCpuEvent call).manager) })
      ∨ (∃ ok wm, e = .advance ok ∧ h.inCall = some ([], wm)
          ∧ h.step allocator reportCpuEvent e = { h with wm := wm, inCall := none })
      ∨ (∃ ok c cs wm, e = .advance ok ∧ h.inCall = some (c :: cs, wm)
          ∧ h.step allocator reportCpuEvent e
            = { h with world := h.world.perform c ok, inCall := some (cs, wm) })
      ∨ ∃ i ok, e = .complete i ok
          ∧ h.step allocator reportCpuEvent e = { h with world := h.world.complete i ok } := by
  cases e with
  | isolate call =>
    cases hin : h.inCall with
    | some r => exact Or.inl ⟨by simp [step, hin], Or.inl ⟨call, rfl⟩⟩
    | none => exact Or.inr (Or.inl ⟨call, rfl, rfl, by simp [step, hin]⟩)
  | advance ok =>
    match hin : h.inCall with
    | none => exact Or.inl ⟨by simp [step, hin], Or.inr ⟨ok, rfl, rfl⟩⟩
    | some ([], wm) => exact Or.inr (Or.inr (Or.inl ⟨ok, wm, rfl, rfl, by simp [step, hin]⟩))
    | some (c :: cs, wm) =>
      exact Or.inr (Or.inr (Or.inr (Or.inl ⟨ok, c, cs, wm, rfl, rfl, by simp [step, hin]⟩)))
  | complete i ok => exact Or.inr (Or.inr (Or.inr (Or.inr ⟨i, ok, rfl, rfl⟩)))

/-- `is_isolated(workload_id)` -/
def isIsolated (h : Host) (workloadId : WorkloadId) : Bool :=
  WorkloadManager.isIsolated allocator h.world.manager.isolatedWorkloadIds workloadId

end Host

end TitusIsolate
