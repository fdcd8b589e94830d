import TitusIsolate.Lib.Run
import TitusIsolate.Pod.PodManager

/-!
# When the pod cache is the cluster

While a stream is connected the cache lags behind the cluster by the events the stream
holds: handling them all gives the pods that exist. A new stream lists what exists, and
nothing takes out of the cache what does not exist any more, so this survives a reconnect
exactly if no cached pod has gone in the meantime.
-/

namespace TitusIsolate

open Run

namespace PodManager

variable {Spec : Type}

/-- The manager once all these events are handled. -/
def replay (m : PodManager Spec) (events : List (WatchEvent Spec)) : PodManager Spec :=
  events.foldl handleEvent m

/-- The manager answers as the table does. -/
def Mirrors (m : PodManager Spec) (cluster : PodTable Spec) : Prop :=
  ∀ name, m.getPod name = cluster.get? name

/-- What the callers of the manager see when it mirrors a table. -/
theorem Mirrors.getPods {m : PodManager Spec} {cluster : PodTable Spec} (h : m.Mirrors cluster) :
    m.getPods.Perm cluster.pods ∧ (m.getPods.map V1Pod.name).Nodup :=
  ⟨PodTable.pods_perm h, m.podCache.pods_names_nodup⟩

theorem replay_append (m : PodManager Spec) (events events' : List (WatchEvent Spec)) :
    m.replay (events ++ events') = (m.replay events).replay events' := List.foldl_append

@[simp] theorem getPod_added (m : PodManager Spec) (pod : V1Pod Spec) (name : String) :
    (m.handleEvent (WatchWorld.added pod)).getPod name
      = if name = pod.name then some pod else m.getPod name :=
  PodTable.get?_store _ _ _

@[simp] theorem getPod_modified (m : PodManager Spec) (pod : V1Pod Spec) (name : String) :
    (m.handleEvent (WatchWorld.modified pod)).getPod name
      = if name = pod.name then some pod else m.getPod name :=
  PodTable.get?_store _ _ _

@[simp] theorem getPod_deleted (m : PodManager Spec) (pod : V1Pod Spec) (name : String) :
    (m.handleEvent (WatchWorld.deleted pod)).getPod name
      = if name = pod.name then none else m.getPod name :=
  PodTable.get?_remove _ _ _

/-- A listing stores every pod it lists and leaves every other name alone. -/
theorem getPod_replay_added {pods : List (V1Pod Spec)} (hnd : (pods.map V1Pod.name).Nodup)
    (m : PodManager Spec) :
    (∀ pod ∈ pods, (m.replay (pods.map WatchWorld.added)).getPod pod.name = some pod)
      ∧ ∀ name, name ∉ pods.map V1Pod.name →
        (m.replay (pods.map WatchWorld.added)).getPod name = m.getPod name := by
  induction pods generalizing m with
  | nil => exact ⟨by simp, fun _ _ => rfl⟩
  | cons head pods ih =>
    obtain ⟨hhead, hnd⟩ := List.nodup_cons.mp hnd
    obtain ⟨hlisted, hother⟩ := ih hnd (m.handleEvent (WatchWorld.added head))
    refine ⟨?_, ?_⟩
    · intro pod hpod
      rcases List.mem_cons.mp hpod with rfl | hpod
      · have hkeep := hother pod.name hhead
        rw [getPod_added, if_pos rfl] at hkeep
        exact hkeep
      · exact hlisted pod hpod
    · intro name hname
      rw [List.map_cons, List.mem_cons, not_or] at hname
      have hkeep := hother name hname.2
      rw [getPod_added, if_neg hname.1] at hkeep
      exact hkeep

end PodManager

namespace WatchWorld

variable {Spec : Type}

/-- Whenever the stream is connected and everything it gave has been handled, `get_pods()`
is the pods that exist, one for each name and in their latest version, and `get_pod`
answers by them. -/
def InSync (w : WatchWorld Spec) : Prop :=
  w.connected = true → w.stream = [] →
    w.manager.getPods.Perm w.cluster.pods
      ∧ (w.manager.getPods.map V1Pod.name).Nodup
      ∧ ∀ name, w.manager.getPod name = w.cluster.get? name

/-- A stream is not opened while the cache holds a pod that does not exist any more. -/
def NoneGone (w : WatchWorld Spec) : WatchStep Spec → Prop
  | .connect _ => w.connected = false →
      ∀ name, w.cluster.get? name = none → w.manager.getPod name = none
  | .create _ => True
  | .modify _ => True
  | .delete _ => True
  | .deliver => True
  | .disconnect => True

/-- The invariant: the cache and what the stream holds make up the cluster. -/
def Tracks (w : WatchWorld Spec) : Prop :=
  w.connected = true → (w.manager.replay w.stream).Mirrors w.cluster

/-- A reported change keeps the invariant if handling it does to the manager what the change
does to the cluster. -/
theorem tracks_changed {w : WatchWorld Spec} (h : w.Tracks) {cluster : PodTable Spec}
    {event : WatchEvent Spec}
    (hevent : ∀ m : PodManager Spec, m.Mirrors w.cluster → (m.handleEvent event).Mirrors cluster) :
    (w.changed cluster event).Tracks := by
  intro hc
  have hconn : w.connected = true := hc
  unfold changed
  simp only [hconn, if_true]
  rw [PodManager.replay_append]
  exact hevent _ (h hconn)

/-- **A new stream is exact if and only if no cached pod has gone.** -/
theorem connect_mirrors_iff {w : WatchWorld Spec} (listing : Listing Spec) :
    (w.manager.replay ((listing.arrange w.cluster.pods).map added)).Mirrors w.cluster
      ↔ ∀ name, w.cluster.get? name = none → w.manager.getPod name = none := by
  have hperm := listing.perm w.cluster.pods
  have hnd : ((listing.arrange w.cluster.pods).map V1Pod.name).Nodup :=
    (hperm.map V1Pod.name).nodup_iff.mpr w.cluster.pods_names_nodup
  obtain ⟨hlisted, hother⟩ := PodManager.getPod_replay_added hnd w.manager
  -- the listing says nothing of a pod that has gone, so the cache keeps what it holds
  have hunlisted : ∀ name, w.cluster.get? name = none →
      name ∉ (listing.arrange w.cluster.pods).map V1Pod.name := by
    intro name hnone hmem
    obtain ⟨pod, hpod, rfl⟩ := List.mem_map.mp hmem
    rw [PodTable.mem_pods_iff.mp (hperm.mem_iff.mp hpod)] at hnone
    exact absurd hnone (by simp)
  refine ⟨?_, ?_⟩
  · intro hm name hnone
    rw [← hother name (hunlisted name hnone), hm name, hnone]
  · intro hgone name
    cases hget : w.cluster.get? name with
    | none => rw [hother name (hunlisted name hget), hgone name hget]
    | some pod =>
      have hname := PodTable.name_of_get? hget
      subst hname
      exact hlisted pod (hperm.mem_iff.mpr (PodTable.mem_pods_iff.mpr hget))

theorem tracks_step {w : WatchWorld Spec} {e : WatchStep Spec} (h : w.Tracks)
    (he : w.NoneGone e) : (w.step e).Tracks := by
  cases e with
  | create pod =>
    cases hget : w.cluster.get? pod.name with
    | some old => simpa only [step, hget] using h
    | none =>
      simp only [step, hget]
      -- a stream that is connected reports it, one that is not will list it
      refine tracks_changed h ?_
      intro m hm name
      rw [PodManager.getPod_added, PodTable.get?_store, hm name]
  | modify pod =>
    cases hget : w.cluster.get? pod.name with
    | none => simpa only [step, hget] using h
    | some old =>
      simp only [step, hget]
      refine tracks_changed h ?_
      intro m hm name
      rw [PodManager.getPod_modified, PodTable.get?_store, hm name]
  | delete gone =>
    cases hget : w.cluster.get? gone with
    | none => simpa only [step, hget] using h
    | some pod =>
      have hname := PodTable.name_of_get? hget
      simp only [step, hget]
      refine tracks_changed h ?_
      intro m hm name
      rw [PodManager.getPod_deleted, PodTable.get?_remove, hm name, hname]
  | connect listing =>
    by_cases hconn : w.connected = true
    · simpa only [step, hconn, if_true] using h
    · simp only [step, hconn]
      intro _
      exact (connect_mirrors_iff listing).mpr (he (Bool.eq_false_iff.mpr hconn))
  | deliver =>
    cases hstream : w.stream with
    | nil => simpa only [step, hstream] using h
    | cons event stream =>
      simp only [step, hstream]
      intro hc
      have hm := h hc
      rw [hstream] at hm
      exact hm
  | disconnect => exact fun hc => absurd hc (by simp [step])

theorem inSync_of_tracks {w : WatchWorld Spec} (h : w.Tracks) : w.InSync := by
  intro hconn hstream
  have hm := h hconn
  rw [hstream] at hm
  have hm' : w.manager.Mirrors w.cluster := hm
  exact ⟨hm'.getPods.1, hm'.getPods.2, hm'⟩

/--
**The cache tracks the cluster.** From the start of the watching thread, in every run of
creations, changes and deletions of pods, breaks and reconnects in which no stream is opened
while the cache holds a pod that has gone, the cache is the cluster whenever the stream is
connected and everything it gave has been handled.
-/
theorem always_inSync (cluster : PodTable Spec) (es : List (WatchStep Spec))
    (hes : EachStep step NoneGone (init cluster) es) : Always step InSync (init cluster) es := by
  have hinit : (init cluster).Tracks := fun hc => absurd hc (by simp [init])
  exact (always_of_step (fun _ _ => tracks_step) hinit hes).mono (fun _ => inSync_of_tracks)

/-- **And only so**: a stream opened while the cache holds a pod that has gone is out of sync
once its listing is handled. -/
theorem inSync_after_listing_iff {w : WatchWorld Spec} (h : w.connected = false)
    (listing : Listing Spec) :
    InSync (exec step w
        (.connect listing :: List.replicate (listing.arrange w.cluster.pods).length .deliver))
      ↔ w.NoneGone (.connect listing) := by
  have hdeliver : ∀ (events : List (WatchEvent Spec)) (w : WatchWorld Spec), w.stream = events →
      exec step w (List.replicate events.length .deliver)
        = { w with stream := [], manager := w.manager.replay events } := by
    intro events
    induction events with
    | nil =>
      intro w hw
      cases w
      subst hw
      rfl
    | cons event events ih =>
      intro w hw
      rw [List.length_cons, List.replicate_succ, exec_cons]
      have hstep : w.step .deliver
          = { w with stream := events, manager := w.manager.handleEvent event } := by
        simp only [step, hw]
      rw [hstep, ih _ rfl]
      rfl
  -- the stream starts with the listing, and the listing is handled to its end
  have hconnect : w.step (.connect listing)
      = { w with
          connected := true, stream := (listing.arrange w.cluster.pods).map added } := by
    simp [step, h]
  have hlength : (listing.arrange w.cluster.pods).length
      = ((listing.arrange w.cluster.pods).map added).length := by simp
  rw [exec_cons, hconnect, hlength, hdeliver _ _ rfl]
  refine ⟨?_, ?_⟩
  · intro hsync _
    exact (connect_mirrors_iff listing).mp (hsync rfl rfl).2.2
  · intro hgone _ _
    have hm := (connect_mirrors_iff listing).mpr (hgone h)
    exact ⟨hm.getPods.1, hm.getPods.2, hm⟩

/-- The existing pods in the order of the table. -/
def asStored (Spec : Type) : Listing Spec := ⟨id, fun _ => List.Perm.refl _⟩

/-- A pod is created and seen, the stream breaks, the pod is deleted, and a new stream is
opened. -/
def deletedWhileDisconnected : List (WatchStep Nat) :=
  [ .connect (asStored Nat), .create ⟨"p", 0⟩, .deliver, .disconnect, .delete "p",
    .connect (asStored Nat) ]

theorem always_inSync_reconnect :
    Always step InSync (init PodTable.empty)
      [.connect (asStored Nat), .create ⟨"p", 0⟩, .deliver, .disconnect, .modify ⟨"p", 1⟩,
        .connect (asStored Nat), .deliver] :=
  always_inSync PodTable.empty _
    ⟨fun _ _ _ => rfl, trivial, trivial, trivial, trivial, by
      intro _ name hnone
      by_cases hp : name = "p"
      · subst hp
        exact absurd hnone (by decide)
      · show (PodManager.init.handleEvent (added ⟨"p", 0⟩)).getPod name = none
        rw [PodManager.getPod_added, if_neg hp]
        rfl, trivial, trivial⟩

/-- The deleted pod stays in the cache. -/
theorem gone_pod_is_kept :
    ¬ Always step InSync (init PodTable.empty) deletedWhileDisconnected
      ∧ (exec step (init PodTable.empty) deletedWhileDisconnected).manager.getPod "p"
          = some ⟨"p", 0⟩
      ∧ (exec step (init PodTable.empty) deletedWhileDisconnected).cluster.get? "p" = none := by
  refine ⟨?_, rfl, rfl⟩
  intro h
  have hlast := h.2.2.2.2.2.2 rfl rfl
  exact absurd (hlast.2.2 "p") (by decide)

end WatchWorld

end TitusIsolate
