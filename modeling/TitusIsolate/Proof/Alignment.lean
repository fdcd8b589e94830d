import TitusIsolate.Lib.Slots
import TitusIsolate.Monitor.Prometheus
import TitusIsolate.Proof.Padding

/-!
# Whether usage samples stay aligned in time

A range response that ends at some time has samples at whole minutes before it. Where
Prometheus has no data a sample is missing. The usage map keeps no times: it has the
values of a series in a row, at the end of a list of sixty.

So an entry is at the place of its minute exactly when no minute after a sample was left
out. One that was left out shifts all that came before it towards the end.
-/

namespace TitusIsolate

open Raising

section

variable {F : Type} {float : String → Except PyError F} {mul : F → F → F} {str : F → String}
variable {nan scale : F} {resource : String}

/-- A sample, some whole minutes before the end of the window. -/
structure PromSample (float : String → Except PyError F) where
  minutesAgo : Nat
  text : String
  value : F
  float_text : float text = .ok value

/-- A series of samples at increasing times. -/
structure PromSeries (float : String → Except PyError F) where
  metric : OrderedDict String String
  taskId : WorkloadId
  metric_taskId : metric.get? taskIdLabel = some taskId
  samples : List (PromSample float)
  increasing : samples.Pairwise (fun a b => b.minutesAgo < a.minutesAgo)
  ne_nil : samples ≠ []

namespace PromSeries

/-- The series in a response for a window that ends at `endTs`. -/
def result (endTs : Rat) (s : PromSeries float) : PromResult where
  metric := some s.metric
  values := some (s.samples.map (fun p => (endTs - 60 * p.minutesAgo, p.text)))

/-- The samples from the newest on. -/
def newestFirst (s : PromSeries float) : List (PromSample float) := s.samples.reverse

/-- The sample of minute `j` before the end. -/
def sampleAt (s : PromSeries float) (j : Nat) : Option (PromSample float) :=
  s.newestFirst.find? (fun p => p.minutesAgo = j)

/-- No minute of the last hour that is later than a sample was left out. -/
def NoGap (s : PromSeries float) : Prop :=
  ∀ p ∈ s.samples, ∀ j, j < p.minutesAgo → j < 60 → ∃ q ∈ s.samples, q.minutesAgo = j

end PromSeries

/-- The response with the given series. -/
def rangeResponse (endTs : Rat) (series : List (PromSeries float)) : PromResponse where
  data := some { result := some (series.map (PromSeries.result endTs)) }

/-- What is due in a list of the usage map for a minute: the sample's value, or NaN. -/
def dueValue (mul : F → F → F) (str : F → String) (nan scale : F) :
    Option (PromSample float) → UsageValue F
  | none => .float nan
  | some p => .text (str (mul p.value scale))

/-- Each of the sixty entries of the series' list is that of its minute. -/
def Aligned (mul : F → F → F) (str : F → String) (nan scale : F) (resource : String)
    (g : GlobalResourceUsage (UsageValue F)) (s : PromSeries float) : Prop :=
  ∃ wu xs, g.map.get? resource = some wu ∧ wu.get? s.taskId = some xs
    ∧ ∀ j < 60, xs[59 - j]? = some (dueValue mul str nan scale (s.sampleAt j))

/-! ## From the response to the lists -/

/-- The values of a series as the usage map has them. -/
def writtenValues (mul : F → F → F) (str : F → String) (scale : F) (s : PromSeries float) :
    List (UsageValue F) :=
  s.samples.map (fun p => .text (str (mul p.value scale)))

theorem scaledValues_samples (endTs : Rat) (samples : List (PromSample float)) :
    scaledValues float mul scale (samples.map (fun p => (endTs - 60 * p.minutesAgo, p.text)))
      = .ok (samples.map (fun p => mul p.value scale)) := by
  refine mapM_map_eq_ok ?_
  intro p _
  exact map_eq_ok.mpr ⟨p.value, p.float_text, rfl⟩

theorem validateResult_result (endTs : Rat) (s : PromSeries float) :
    validateResult (s.result endTs) = true := by
  have hmem : taskIdLabel ∈ s.metric.keys := OrderedDict.mem_keys_iff.mpr ⟨_, s.metric_taskId⟩
  have hne := s.ne_nil
  unfold validateResult PromSeries.result
  simp [hmem, hne]

/-- A series is read as the usage of its task. -/
theorem parseResult_result (mul : F → F → F) (scale : F) (resource : String) (endTs : Rat)
    (s : PromSeries float) :
    ∃ u, parseResult float mul resource scale (s.result endTs) = .ok u
      ∧ u.workloadId = s.taskId ∧ u.resourceName = resource
      ∧ u.values = s.samples.map (fun p => mul p.value scale) := by
  obtain ⟨p, samples, hsamples⟩ := List.exists_cons_of_ne_nil s.ne_nil
  refine ⟨_, bind_eq_ok.mpr ⟨s.metric, rfl, bind_eq_ok.mpr ⟨s.taskId,
    getKey_eq_ok.mpr s.metric_taskId, bind_eq_ok.mpr ⟨_, rfl, bind_eq_ok.mpr
      ⟨(endTs - 60 * p.minutesAgo, p.text), ?_, bind_eq_ok.mpr
        ⟨_, scaledValues_samples endTs s.samples, rfl⟩⟩⟩⟩⟩, rfl, rfl, rfl⟩
  rw [getItem_eq_ok, hsamples]
  rfl

/-- For each usage the task and the values, written as texts. -/
def writtenUsages (str : F → String) (usages : List (ResourceUsage F)) :
    List (WorkloadId × List (UsageValue F)) :=
  usages.map (fun u => (u.workloadId, u.values.map (fun v => .text (str v))))

theorem mapM_parseResult (mul : F → F → F) (str : F → String) (scale : F) (resource : String)
    (endTs : Rat) (series : List (PromSeries float)) :
    ∃ usages, (series.map (PromSeries.result endTs)).mapM (parseResult float mul resource scale)
        = .ok usages
      ∧ (∀ u ∈ usages, u.resourceName = resource)
      ∧ writtenUsages str usages
        = series.map (fun s => (s.taskId, writtenValues mul str scale s)) := by
  induction series with
  | nil => exact ⟨[], rfl, fun u hu => absurd hu List.not_mem_nil, rfl⟩
  | cons s series ih =>
    obtain ⟨usages, hmapM, hresource, hwritten⟩ := ih
    obtain ⟨u, hu, htask, hname, hvalues⟩ :=
      parseResult_result mul scale resource endTs s
    refine ⟨u :: usages, ?_, ?_, ?_⟩
    · rw [List.map_cons, List.mapM_cons, hmapM, hu]
      rfl
    · intro u' hu'
      rcases List.mem_cons.mp hu' with rfl | hu'
      · exact hname
      · exact hresource u' hu'
    · have hhead : u.values.map (fun v => UsageValue.text (str v))
          = writtenValues mul str scale s := by
        rw [hvalues, List.map_map]
        rfl
      unfold writtenUsages at hwritten ⊢
      rw [List.map_cons, List.map_cons, hwritten, htask, hhead]

/-- Every series of the response is valid, so each is read. -/
theorem parsePromResponse_rangeResponse (resource : String) (scale : F) (endTs : Rat)
    {series : List (PromSeries float)} (hne : series ≠ []) :
    parsePromResponse float mul resource (rangeResponse endTs series) scale
      = (series.map (PromSeries.result endTs)).mapM (parseResult float mul resource scale) := by
  have hvalid : validatePromResponse (rangeResponse endTs series) = true := by
    unfold validatePromResponse rangeResponse
    simp [hne]
  have hfilter : (series.map (PromSeries.result endTs)).filter validateResult
      = series.map (PromSeries.result endTs) := by
    rw [List.filter_eq_self]
    rintro _ hr
    obtain ⟨s, _, rfl⟩ := List.mem_map.mp hr
    exact validateResult_result endTs s
  unfold parsePromResponse
  rw [if_neg (by rw [hvalid]; simp)]
  show (List.filter validateResult (series.map (PromSeries.result endTs))).mapM _ = _
  rw [hfilter]

/-- The usages of one resource are put into one dictionary. -/
theorem foldl_putUsage (usages : List (ResourceUsage F)) (d : UsageMap (UsageValue F))
    (h : ∀ u ∈ usages, u.resourceName = resource) :
    ((usages.foldl (putUsage str) d).get? resource).getD OrderedDict.empty
      = (writtenUsages str usages).foldl (fun wu e => wu.insert e.1 e.2)
          ((d.get? resource).getD OrderedDict.empty) := by
  induction usages generalizing d with
  | nil => rfl
  | cons u usages ih =>
    have hu := h u (by simp)
    have hput : ((putUsage str d u).get? resource).getD OrderedDict.empty
        = ((d.get? resource).getD OrderedDict.empty).insert u.workloadId
            (u.values.map (fun v => UsageValue.text (str v))) := by
      unfold putUsage setUsage
      rw [hu]
      simp only
      rw [OrderedDict.get?_insert, if_pos rfl, Option.getD_some]
      by_cases hmem : resource ∈ d.keys
      · rw [if_pos hmem]
      · have hnone := OrderedDict.get?_eq_none_iff.mpr hmem
        rw [if_neg hmem, OrderedDict.get?_insert, if_pos rfl, hnone]
        rfl
    rw [List.foldl_cons, ih _ (fun u' hu' => h u' (List.mem_cons_of_mem _ hu')), hput]
    rfl

/-- With distinct tasks, each has its own list there. -/
theorem get?_resourceUsagesToDict {usages : List (ResourceUsage F)}
    (hresource : ∀ u ∈ usages, u.resourceName = resource)
    (hdistinct : ((writtenUsages str usages).map Prod.fst).Nodup)
    {taskId : WorkloadId} {xs : List (UsageValue F)} (hxs : (taskId, xs) ∈ writtenUsages str usages) :
    ∃ wu, (resourceUsagesToDict str usages).get? resource = some wu
      ∧ wu.get? taskId = some xs := by
  have hdict : ((resourceUsagesToDict str usages).get? resource).getD OrderedDict.empty
      = OrderedDict.ofPairs (writtenUsages str usages) :=
    foldl_putUsage usages OrderedDict.empty hresource
  have hget := (OrderedDict.get?_ofPairs hdistinct).mpr hxs
  rw [← hdict] at hget
  cases hwu : (resourceUsagesToDict str usages).get? resource with
  | none =>
    rw [hwu] at hget
    exact absurd hget (by simp)
  | some wu =>
    rw [hwu] at hget
    exact ⟨wu, rfl, hget⟩

/-- The response of distinct tasks is read, and the list of each is its values, padded. -/
theorem promResourceUsage_rangeResponse (mul : F → F → F) (str : F → String) (nan scale : F)
    (resource : String) (endTs : Rat) (series : List (PromSeries float))
    (hdistinct : (series.map PromSeries.taskId).Nodup) :
    ∃ g, promResourceUsage float mul str nan resource (rangeResponse endTs series) scale = .ok g
      ∧ ∀ s ∈ series, ∃ wu, g.map.get? resource = some wu
          ∧ wu.get? s.taskId
            = some (padList (.float nan) 60 (writtenValues mul str scale s)) := by
  by_cases hnil : series = []
  · subst hnil
    exact ⟨_, rfl, fun s hs => absurd hs List.not_mem_nil⟩
  obtain ⟨usages, hmapM, hresource, hwritten⟩ :=
    mapM_parseResult mul str scale resource endTs series
  refine ⟨_, bind_eq_ok.mpr
    ⟨usages, (parsePromResponse_rangeResponse resource scale endTs hnil).trans hmapM, rfl⟩, ?_⟩
  intro s hs
  have hnodup : ((writtenUsages str usages).map Prod.fst).Nodup := by
    rw [hwritten, List.map_map]
    exact hdistinct
  have hmem : (s.taskId, writtenValues mul str scale s) ∈ writtenUsages str usages := by
    rw [hwritten]
    exact List.mem_map_of_mem hs
  obtain ⟨wu, hwu, hlist⟩ := get?_resourceUsagesToDict hresource hnodup hmem
  refine ⟨wu.mapValues (fun _ xs => padList (.float nan) 60 xs), ?_, ?_⟩
  · unfold GlobalResourceUsage.new
    rw [padUsage_eq, OrderedDict.get?_mapValues, hwu]
    rfl
  · rw [OrderedDict.get?_mapValues, hlist]
    rfl

/-! ## From the lists to the minutes -/

/-- Read from its end, a padded list has the values packed. -/
theorem reverse_padList_writtenValues (mul : F → F → F) (str : F → String) (nan scale : F)
    (s : PromSeries float) (k : Nat) :
    (padList (.float nan) k (writtenValues mul str scale s)).reverse
      = (Slots.packed s.newestFirst k).map (dueValue mul str nan scale) := by
  have hlength : s.samples.length - (s.samples.length - k) = min k s.samples.length := by omega
  rw [padList_eq, List.reverse_append, List.reverse_replicate, List.reverse_drop]
  unfold writtenValues Slots.packed PromSeries.newestFirst
  rw [List.length_map, List.length_reverse, List.map_append, List.map_replicate, List.map_map,
    hlength, ← List.map_reverse, ← List.map_take, ← List.length_reverse,
    ← List.take_eq_take_min]
  rfl

theorem newestFirst_increasing (s : PromSeries float) :
    Slots.Increasing PromSample.minutesAgo s.newestFirst :=
  List.pairwise_reverse.mpr s.increasing

theorem noGap_iff_newestFirst (s : PromSeries float) :
    s.NoGap ↔ Slots.NoGap PromSample.minutesAgo s.newestFirst 0 60 := by
  unfold PromSeries.NoGap Slots.NoGap PromSeries.newestFirst
  simp only [List.mem_reverse, Nat.zero_add]
  refine ⟨fun h p hp j _ => h p hp j, fun h p hp j => h p hp j (Nat.zero_le j)⟩

/-- A list read from its end has the entry of each minute when it lists the minutes' slots. -/
theorem entries_due_iff (mul : F → F → F) (str : F → String) (nan scale : F)
    {xs : List (UsageValue F)} (hlength : xs.length = 60) (s : PromSeries float) :
    (∀ j < 60, xs[59 - j]? = some (dueValue mul str nan scale (s.sampleAt j)))
      ↔ xs.reverse
        = (Slots.slots PromSample.minutesAgo s.newestFirst 0 60).map
            (dueValue mul str nan scale) := by
  have hrev : ∀ j < 60, xs.reverse[j]? = xs[59 - j]? := by
    intro j hj
    rw [List.getElem?_reverse (by omega), hlength]
  have hslot : ∀ j < 60, ((Slots.slots PromSample.minutesAgo s.newestFirst 0 60).map
      (dueValue mul str nan scale))[j]? = some (dueValue mul str nan scale (s.sampleAt j)) := by
    intro j hj
    rw [List.getElem?_map, Slots.slots_getElem? _ hj, Nat.zero_add]
    rfl
  refine ⟨?_, ?_⟩
  · intro h
    refine List.ext_getElem? ?_
    intro j
    by_cases hj : j < 60
    · rw [hrev j hj, h j hj, hslot j hj]
    · rw [List.getElem?_eq_none (by simp; omega), List.getElem?_eq_none (by simp; omega)]
  · intro h j hj
    rw [← hrev j hj, h, hslot j hj]

/-- One series is aligned exactly when it has no gap. -/
theorem aligned_iff_noGap {g : GlobalResourceUsage (UsageValue F)} {s : PromSeries float}
    {wu : OrderedDict WorkloadId (List (UsageValue F))} (hwu : g.map.get? resource = some wu)
    (hlist : wu.get? s.taskId = some (padList (.float nan) 60 (writtenValues mul str scale s))) :
    Aligned mul str nan scale resource g s ↔ s.NoGap := by
  have hlength : (padList (.float nan) 60 (writtenValues mul str scale s)).length = 60 :=
    length_padList 60 _
  have hdue := entries_due_iff mul str nan scale hlength s
  rw [reverse_padList_writtenValues] at hdue
  rw [noGap_iff_newestFirst, ← Slots.packed_eq_slots_iff (f := dueValue mul str nan scale)
    (fun p => by simp [dueValue]) 60 s.newestFirst 0 (newestFirst_increasing s)
    (fun p _ => Nat.zero_le _), ← hdue]
  refine ⟨?_, fun h => ⟨wu, _, hwu, hlist, h⟩⟩
  rintro ⟨wu', xs, hwu', hxs, h⟩
  cases hwu.symm.trans hwu'
  cases hlist.symm.trans hxs
  exact h

/-- **The lists of a response are aligned exactly when no series has a gap**: no sample missing
later than one that is there. -/
theorem usage_aligned_iff (mul : F → F → F) (str : F → String) (nan scale : F) (resource : String)
    (endTs : Rat) (series : List (PromSeries float))
    (hdistinct : (series.map PromSeries.taskId).Nodup) :
    (∃ g, promResourceUsage float mul str nan resource (rangeResponse endTs series) scale = .ok g
        ∧ ∀ s ∈ series, Aligned mul str nan scale resource g s)
      ↔ ∀ s ∈ series, s.NoGap := by
  obtain ⟨g, hg, hlists⟩ :=
    promResourceUsage_rangeResponse mul str nan scale resource endTs series hdistinct
  refine ⟨?_, ?_⟩
  · rintro ⟨g', hg', haligned⟩ s hs
    cases hg.symm.trans hg'
    obtain ⟨wu, hwu, hlist⟩ := hlists s hs
    exact (aligned_iff_noGap hwu hlist).mp (haligned s hs)
  · intro hnoGap
    refine ⟨g, hg, ?_⟩
    intro s hs
    obtain ⟨wu, hwu, hlist⟩ := hlists s hs
    exact (aligned_iff_noGap hwu hlist).mpr (hnoGap s hs)

end

/-! ## Series of whole numbers -/

/-- The product, NaN if a factor is. -/
def WholeFloat.mul : WholeFloat → WholeFloat → WholeFloat
  | some a, some b => some (a * b)
  | _, _ => none

/-- A sample of a whole number. -/
def wholeSample (minutesAgo n : Nat) : PromSample WholeFloat.float where
  minutesAgo := minutesAgo
  text := WholeFloat.str (some n)
  value := some n
  float_text := WholeFloat.float_str (some n)

/-- The series of a task, of such samples. -/
def wholeSeries (taskId : WorkloadId) (samples : List (PromSample WholeFloat.float))
    (hincreasing : samples.Pairwise (fun a b => b.minutesAgo < a.minutesAgo))
    (hne : samples ≠ []) : PromSeries WholeFloat.float where
  metric := OrderedDict.ofPairs [("instance", "i-abc123"), (taskIdLabel, taskId)]
  taskId := taskId
  metric_taskId := (OrderedDict.get?_ofPairs (by simp [taskIdLabel])).mpr (by simp)
  samples := samples
  increasing := hincreasing
  ne_nil := hne

/-- A series that has just started. -/
def startedSeries : PromSeries WholeFloat.float :=
  wholeSeries "a" [wholeSample 1 4, wholeSample 0 5] (by simp [wholeSample]) (by simp)

/-- A series that stopped a minute before the end. -/
def stoppedSeries : PromSeries WholeFloat.float :=
  wholeSeries "b" [wholeSample 2 6, wholeSample 1 7] (by simp [wholeSample]) (by simp)

theorem usage_aligned_iff_started :
    ∃ g, promResourceUsage WholeFloat.float WholeFloat.mul WholeFloat.str none "cpu_usage"
        (rangeResponse 1604702094 [startedSeries]) (some 1) = .ok g
      ∧ ∀ s ∈ [startedSeries],
          Aligned WholeFloat.mul WholeFloat.str none (some 1) "cpu_usage" g s := by
  refine (usage_aligned_iff WholeFloat.mul WholeFloat.str none (some 1) "cpu_usage" 1604702094
    [startedSeries] (by simp)).mpr ?_
  intro s hs p hp j hj _
  obtain rfl := List.mem_singleton.mp hs
  refine ⟨wholeSample 0 5, List.mem_cons_of_mem _ (List.mem_singleton_self _), ?_⟩
  rcases List.mem_cons.mp hp with rfl | hp
  · simp only [wholeSample] at hj ⊢
    omega
  · obtain rfl := List.mem_singleton.mp hp
    exact absurd hj (Nat.not_lt_zero j)

/-- The last sample of a series that stopped is listed as one of the end of the window. -/
theorem stoppedSeries_shifted :
    ∃ g wu, promResourceUsage WholeFloat.float WholeFloat.mul WholeFloat.str none "cpu_usage"
        (rangeResponse 1604702094 [startedSeries, stoppedSeries]) (some 1) = .ok g
      ∧ g.map.get? "cpu_usage" = some wu
      ∧ wu.get? "b" = some (List.replicate 58 (.float none) ++ [.text "6.0", .text "7.0"])
      ∧ ¬ ∀ s ∈ [startedSeries, stoppedSeries],
          Aligned WholeFloat.mul WholeFloat.str none (some 1) "cpu_usage" g s := by
  obtain ⟨g, hg, hlists⟩ := promResourceUsage_rangeResponse WholeFloat.mul WholeFloat.str none
    (some 1) "cpu_usage" 1604702094 [startedSeries, stoppedSeries]
    (by simp [startedSeries, stoppedSeries, wholeSeries])
  obtain ⟨wu, hwu, hlist⟩ := hlists stoppedSeries (by simp)
  refine ⟨g, wu, hg, hwu, hlist, ?_⟩
  intro haligned
  have hnoGap := (aligned_iff_noGap hwu hlist).mp (haligned stoppedSeries (by simp))
  obtain ⟨q, hq, hzero⟩ := hnoGap (wholeSample 1 7) (by simp [stoppedSeries, wholeSeries]) 0
    (by simp [wholeSample]) (by omega)
  simp only [stoppedSeries, wholeSeries, List.mem_cons, List.not_mem_nil, or_false] at hq
  rcases hq with rfl | rfl <;> simp [wholeSample] at hzero

end TitusIsolate
