import TitusIsolate.Lib.OrderedDict

/-!
# Workloads and the workload map

A workload is what the isolation service knows of a container: its task id, its
job id and the number of threads it asks for. The workload manager keeps them in
a dictionary whose key is always the workload's own task id.
-/

namespace TitusIsolate

/-- Task ids and container names are strings. -/
abbrev WorkloadId := String

/-- The exceptions the modelled functions raise. -/
inductive PyError where
  | valueError (msg : String)
  | indexError (msg : String)
  | keyError (key : String)
  | exception (msg : String)
  deriving DecidableEq, Repr

/-- `xs[i]` -/
def getItem {α : Type} (xs : List α) (i : Nat) : Except PyError α :=
  match xs[i]? with
  | none => .error (.indexError "list index out of range")
  | some x => .ok x

/-- `d[key]` -/
def getKey {ν : Type} (d : OrderedDict String ν) (key : String) : Except PyError ν :=
  match d.get? key with
  | none => .error (.keyError key)
  | some v => .ok v

theorem getItem_eq_ok {α : Type} {xs : List α} {i : Nat} {x : α} :
    getItem xs i = .ok x ↔ xs[i]? = some x := by
  unfold getItem
  cases xs[i]? with
  | none => simp
  | some y => simp

theorem getKey_eq_ok {ν : Type} {d : OrderedDict String ν} {key : String} {v : ν} :
    getKey d key = .ok v ↔ d.get? key = some v := by
  unfold getKey
  cases d.get? key with
  | none => simp
  | some u => simp

/-- The `Workload` interface: `get_task_id`, `get_job_id`, `get_thread_count`. -/
structure Workload where
  taskId : WorkloadId
  jobId : String
  threadCount : Int
  deriving DecidableEq, Repr

/-- `LegacyWorkload(task_id, job_id, thread_count)` -/
def legacyWorkload (taskId : WorkloadId) (jobId : String) (threadCount : Int) :
    Except PyError Workload :=
  if threadCount < 0 then .error (.valueError "A workload must request at least 0 threads.")
  else .ok { taskId, jobId, threadCount }

/-- A dictionary of workloads, each under its own task id. -/
structure WorkloadMap where
  dict : OrderedDict WorkloadId Workload
  keyed : ∀ e ∈ dict.entries, e.1 = e.2.taskId

namespace WorkloadMap

/-- `{}` -/
def empty : WorkloadMap := ⟨OrderedDict.empty, by simp⟩

/-- `workload_map[w.get_task_id()] = w` -/
def put (m : WorkloadMap) (w : Workload) : WorkloadMap :=
  ⟨m.dict.insert w.taskId w, by
    intro e he
    rcases OrderedDict.mem_entries_insert.mp he with rfl | ⟨_, he⟩
    · rfl
    · exact m.keyed e he⟩

/-- `workload_map.pop(task_id, None)` -/
def pop (m : WorkloadMap) (taskId : WorkloadId) : WorkloadMap :=
  ⟨m.dict.erase taskId, fun e he => m.keyed e (OrderedDict.mem_entries_erase.mp he).2⟩

/-- The task ids, in map order. -/
def keys (m : WorkloadMap) : List WorkloadId := m.dict.keys

/-- The workloads, in map order. -/
def values (m : WorkloadMap) : List Workload := m.dict.values

/-- `workload_map.get(task_id)` -/
def get? (m : WorkloadMap) (taskId : WorkloadId) : Option Workload := m.dict.get? taskId

theorem ext {m m' : WorkloadMap} (h : m.dict = m'.dict) : m = m' := by
  cases m; cases m'; cases h; rfl

/-- The keys are the workloads' task ids, in the same order. -/
theorem values_map_taskId (m : WorkloadMap) : m.values.map Workload.taskId = m.keys := by
  unfold values keys OrderedDict.values OrderedDict.keys
  rw [List.map_map]
  exact List.map_congr_left (fun e he => (m.keyed e he).symm)

theorem keys_nodup (m : WorkloadMap) : m.keys.Nodup := m.dict.keys_nodup

theorem values_taskId_nodup (m : WorkloadMap) : (m.values.map Workload.taskId).Nodup := by
  rw [values_map_taskId]; exact m.keys_nodup

theorem mem_values_iff {m : WorkloadMap} {w : Workload} :
    w ∈ m.values ↔ m.get? w.taskId = some w := by
  unfold get? values OrderedDict.values
  rw [OrderedDict.get?_eq_some_iff]
  refine ⟨?_, ?_⟩
  · intro h
    obtain ⟨e, he, rfl⟩ := List.mem_map.mp h
    rw [← m.keyed e he]; exact he
  · intro h
    exact List.mem_map.mpr ⟨_, h, rfl⟩

theorem taskId_of_get? {m : WorkloadMap} {k : WorkloadId} {w : Workload}
    (h : m.get? k = some w) : w.taskId = k :=
  (m.keyed _ (OrderedDict.get?_eq_some_iff.mp h)).symm

theorem mem_keys_iff {m : WorkloadMap} {k : WorkloadId} :
    k ∈ m.keys ↔ ∃ w ∈ m.values, w.taskId = k := by
  rw [← values_map_taskId, List.mem_map]

theorem mem_keys_iff_get? {m : WorkloadMap} {k : WorkloadId} :
    k ∈ m.keys ↔ ∃ w, m.get? k = some w := OrderedDict.mem_keys_iff

theorem get?_eq_none_iff {m : WorkloadMap} {k : WorkloadId} :
    m.get? k = none ↔ k ∉ m.keys := OrderedDict.get?_eq_none_iff

@[simp] theorem values_empty : empty.values = [] := rfl

@[simp] theorem keys_empty : empty.keys = [] := rfl

@[simp] theorem get?_empty (k : WorkloadId) : empty.get? k = none := rfl

theorem get?_put (m : WorkloadMap) (w : Workload) (k : WorkloadId) :
    (m.put w).get? k = if k = w.taskId then some w else m.get? k :=
  OrderedDict.get?_insert _ _ _ _

theorem get?_pop (m : WorkloadMap) (t k : WorkloadId) :
    (m.pop t).get? k = if k = t then none else m.get? k :=
  OrderedDict.get?_erase _ _ _

@[simp] theorem mem_keys_put {m : WorkloadMap} {w : Workload} {k : WorkloadId} :
    k ∈ (m.put w).keys ↔ k = w.taskId ∨ k ∈ m.keys := OrderedDict.mem_keys_insert

@[simp] theorem mem_keys_pop {m : WorkloadMap} {t k : WorkloadId} :
    k ∈ (m.pop t).keys ↔ k ≠ t ∧ k ∈ m.keys := OrderedDict.mem_keys_erase

/-! ## Many removals, many additions -/

/-- `for task_id in removes: workload_map.pop(task_id, None)` -/
def popAll (m : WorkloadMap) (removes : List WorkloadId) : WorkloadMap := removes.foldl pop m

/-- `for w in adds: workload_map[w.get_task_id()] = w` -/
def putAll (m : WorkloadMap) (adds : List Workload) : WorkloadMap := adds.foldl put m

theorem get?_popAll {removes : List WorkloadId} {k : WorkloadId} (m : WorkloadMap) :
    (m.popAll removes).get? k = if k ∈ removes then none else m.get? k := by
  induction removes generalizing m with
  | nil => simp [popAll]
  | cons t ts ih =>
    rw [popAll, List.foldl_cons]
    have := ih (m.pop t)
    rw [popAll] at this
    rw [this, get?_pop]
    by_cases hk : k = t
    · simp [hk]
    · simp [hk]

theorem mem_keys_popAll {removes : List WorkloadId} {k : WorkloadId} {m : WorkloadMap} :
    k ∈ (m.popAll removes).keys ↔ k ∉ removes ∧ k ∈ m.keys := by
  rw [mem_keys_iff_get?, mem_keys_iff_get?, get?_popAll]
  by_cases hk : k ∈ removes
  · simp [hk]
  · simp [hk]

theorem mem_keys_putAll {adds : List Workload} {k : WorkloadId} {m : WorkloadMap} :
    k ∈ (m.putAll adds).keys ↔ k ∈ adds.map Workload.taskId ∨ k ∈ m.keys := by
  induction adds generalizing m with
  | nil => simp [putAll]
  | cons w ws ih =>
    rw [putAll, List.foldl_cons]
    have := ih (m := m.put w)
    rw [putAll] at this
    rw [this, mem_keys_put, List.map_cons, List.mem_cons]
    tauto

/-- A workload in the map after the additions was added or was there before. -/
theorem mem_values_putAll {adds : List Workload} {w : Workload} {m : WorkloadMap}
    (h : w ∈ (m.putAll adds).values) : w ∈ adds ∨ w ∈ m.values := by
  induction adds generalizing m with
  | nil => exact Or.inr h
  | cons a as ih =>
    rcases ih (m := m.put a) h with h | h
    · exact Or.inl (List.mem_cons_of_mem _ h)
    · rw [mem_values_iff, get?_put] at h
      split at h
      · cases h
        exact Or.inl (by simp)
      · exact Or.inr (mem_values_iff.mpr h)

theorem mem_values_popAll {removes : List WorkloadId} {w : Workload} {m : WorkloadMap}
    (h : w ∈ (m.popAll removes).values) : w ∈ m.values := by
  rw [mem_values_iff, get?_popAll] at h
  split at h
  · cases h
  · exact mem_values_iff.mpr h

end WorkloadMap

end TitusIsolate
