import Mathlib.Data.List.Perm.Basic
import TitusIsolate.Lib.OrderedDict

/-!
# The pod manager

The pod manager keeps the pods of its node in a dictionary, which only the events of a
Kubernetes watch change. When the stream ends, for whatever reason, the loop opens
another one.

What Kubernetes does is modelled beside it: the pods that exist, and a stream that first
lists them as added and then reports every change until it breaks. Changes made while no
stream is connected are not reported.
-/

namespace TitusIsolate

/-- A pod: its name, and the rest of the object. -/
structure V1Pod (Spec : Type) where
  name : String
  spec : Spec
  deriving DecidableEq, Repr

/-- An event of the watch. -/
structure WatchEvent (Spec : Type) where
  type : Option String
  object : V1Pod Spec

/-- A dictionary of pods, each under its own name. -/
structure PodTable (Spec : Type) where
  dict : OrderedDict String (V1Pod Spec)
  keyed : ∀ e ∈ dict.entries, e.1 = e.2.name

namespace PodTable

variable {Spec : Type}

/-- No pod. -/
def empty : PodTable Spec := ⟨OrderedDict.empty, by simp⟩

/-- `table[pod.name] = pod` -/
def store (t : PodTable Spec) (pod : V1Pod Spec) : PodTable Spec :=
  ⟨t.dict.insert pod.name pod, by
    intro e he
    rcases OrderedDict.mem_entries_insert.mp he with rfl | ⟨_, he⟩
    · rfl
    · exact t.keyed e he⟩

/-- `table.pop(name, None)` -/
def remove (t : PodTable Spec) (name : String) : PodTable Spec :=
  ⟨t.dict.erase name, fun e he => t.keyed e (OrderedDict.mem_entries_erase.mp he).2⟩

/-- `table.get(name)` -/
def get? (t : PodTable Spec) (name : String) : Option (V1Pod Spec) := t.dict.get? name

/-- `list(table.values())` -/
def pods (t : PodTable Spec) : List (V1Pod Spec) := t.dict.values

@[simp] theorem get?_store (t : PodTable Spec) (pod : V1Pod Spec) (name : String) :
    (t.store pod).get? name = if name = pod.name then some pod else t.get? name :=
  OrderedDict.get?_insert _ _ _ _

@[simp] theorem get?_remove (t : PodTable Spec) (gone name : String) :
    (t.remove gone).get? name = if name = gone then none else t.get? name :=
  OrderedDict.get?_erase _ _ _

theorem mem_pods_iff {t : PodTable Spec} {pod : V1Pod Spec} :
    pod ∈ t.pods ↔ t.get? pod.name = some pod := by
  unfold pods get? OrderedDict.values
  rw [OrderedDict.get?_eq_some_iff, List.mem_map]
  refine ⟨?_, fun h => ⟨_, h, rfl⟩⟩
  intro h
  obtain ⟨e, he, rfl⟩ := h
  have hk : e.1 = e.2.name := t.keyed e he
  rw [← hk]
  exact he

theorem name_of_get? {t : PodTable Spec} {name : String} {pod : V1Pod Spec}
    (h : t.get? name = some pod) : pod.name = name :=
  (t.keyed _ (OrderedDict.get?_eq_some_iff.mp h)).symm

theorem pods_names_nodup (t : PodTable Spec) : (t.pods.map V1Pod.name).Nodup := by
  have hnames : t.pods.map V1Pod.name = t.dict.keys := by
    unfold pods OrderedDict.values OrderedDict.keys
    rw [List.map_map]
    exact List.map_congr_left (fun e he => (t.keyed e he).symm)
  rw [hnames]
  exact t.dict.keys_nodup

/-- Tables that answer alike hold the same pods. -/
theorem pods_perm {t u : PodTable Spec} (h : ∀ name, t.get? name = u.get? name) :
    t.pods.Perm u.pods := by
  refine (List.perm_ext_iff_of_nodup (List.Nodup.of_map _ t.pods_names_nodup)
    (List.Nodup.of_map _ u.pods_names_nodup)).mpr ?_
  intro pod
  rw [mem_pods_iff, mem_pods_iff, h]

end PodTable

/-! ## The manager -/

/-- `PodManager`, by its cache. -/
structure PodManager (Spec : Type) where
  /-- `__pod_cache` -/
  podCache : PodTable Spec

namespace PodManager

variable {Spec : Type}

/-- `PodManager()` -/
def init : PodManager Spec := ⟨PodTable.empty⟩

/-- `get_pod(pod_name)` -/
def getPod (m : PodManager Spec) (podName : String) : Option (V1Pod Spec) :=
  m.podCache.get? podName

/-- `get_pods()` -/
def getPods (m : PodManager Spec) : List (V1Pod Spec) := m.podCache.pods

/-- `__store_pod(event)`, which is what adding and modifying come to. -/
def storePod (m : PodManager Spec) (event : WatchEvent Spec) : PodManager Spec :=
  ⟨m.podCache.store event.object⟩

/-- `__delete_pod(event)` -/
def deletePod (m : PodManager Spec) (event : WatchEvent Spec) : PodManager Spec :=
  ⟨m.podCache.remove event.object.name⟩

/-- `__handle_event(event)`: an event without a type, or of another type, is ignored. -/
def handleEvent (m : PodManager Spec) (event : WatchEvent Spec) : PodManager Spec :=
  match event.type with
  | some "ADDED" => m.storePod event
  | some "MODIFIED" => m.storePod event
  | some "DELETED" => m.deletePod event
  | _ => m

end PodManager

/-! ## The watch -/

/-- The order a stream lists the existing pods in. -/
structure Listing (Spec : Type) where
  arrange : List (V1Pod Spec) → List (V1Pod Spec)
  perm : ∀ pods, (arrange pods).Perm pods

/-- What can happen to the cluster, the stream and the watching thread. -/
inductive WatchStep (Spec : Type) where
  /-- A pod is created on the node; nothing happens if there is one of that name. -/
  | create (pod : V1Pod Spec)
  /-- The pod of that name gets a new version, if there is one. -/
  | modify (pod : V1Pod Spec)
  /-- The pod of that name is deleted, if there is one. -/
  | delete (name : String)
  /-- `__watch` opens a stream, if it has none. -/
  | connect (listing : Listing Spec)
  /-- The next event of the stream is handled. -/
  | deliver
  /-- The stream ends with an exception or otherwise; what it held is lost. -/
  | disconnect

/-- The cluster, the stream of its changes, and the manager that follows it. Names of pods are
taken to be unique over the namespaces, as the cache takes them. -/
structure WatchWorld (Spec : Type) where
  /-- The pods that exist on the node. -/
  cluster : PodTable Spec
  connected : Bool
  /-- The events the stream holds that are not handled yet. -/
  stream : List (WatchEvent Spec)
  manager : PodManager Spec

namespace WatchWorld

variable {Spec : Type}

/-- The world before the watching thread is started. -/
def init (cluster : PodTable Spec) : WatchWorld Spec := ⟨cluster, false, [], PodManager.init⟩

/-- A pod is listed or created. -/
def added (pod : V1Pod Spec) : WatchEvent Spec := ⟨some "ADDED", pod⟩

/-- A pod is changed. -/
def modified (pod : V1Pod Spec) : WatchEvent Spec := ⟨some "MODIFIED", pod⟩

/-- A pod is gone. -/
def deleted (pod : V1Pod Spec) : WatchEvent Spec := ⟨some "DELETED", pod⟩

/-- A change of the cluster, reported if a stream is connected. -/
def changed (w : WatchWorld Spec) (cluster : PodTable Spec) (event : WatchEvent Spec) :
    WatchWorld Spec :=
  { w with
    cluster := cluster
    stream := if w.connected then w.stream ++ [event] else w.stream }

/-- A pod of a name there is already is not created; nothing happens to one there is not. -/
def step (w : WatchWorld Spec) : WatchStep Spec → WatchWorld Spec
  | .create pod =>
      match w.cluster.get? pod.name with
      | none => w.changed (w.cluster.store pod) (added pod)
      | some _ => w
  | .modify pod =>
      match w.cluster.get? pod.name with
      | none => w
      | some _ => w.changed (w.cluster.store pod) (modified pod)
  | .delete name =>
      match w.cluster.get? name with
      | none => w
      | some pod => w.changed (w.cluster.remove name) (deleted pod)
  | .connect listing =>
      if w.connected then w
      else { w with connected := true, stream := (listing.arrange w.cluster.pods).map added }
  | .deliver =>
      match w.stream with
      | [] => w
      | event :: stream => { w with stream := stream, manager := w.manager.handleEvent event }
  | .disconnect => { w with connected := false, stream := [] }

end WatchWorld

end TitusIsolate
