import TitusIsolate.Lib.Raising
import TitusIsolate.Pod.Requests

/-!
# The two readings of a pod's cpu

The workload's thread count is read from the text of a decimal, so it is there only when
the decimal is written without a point and without an exponent. The requested cpu is the
integer part of a decimal, of whichever container comes first. So the two agree when the
main container's decimal is plain and its integer is that of the first container's.
-/

namespace TitusIsolate

open Raising

/-! ## Decimals as texts -/

/-- The text of a decimal reads as an integer when its power is zero, and as its own. -/
theorem pyInt_str_eq_ok {d : Decimal} {n : Int} :
    pyInt d.str = .ok n ↔ d.exponent = 0 ∧ d.toInt = n := by
  by_cases h : d.exponent = 0
  · have hread : pyInt d.str = .ok d.toInt := by
      have hdigits : d.digits = d.coefficient.repr.toList := (Nat.toList_repr).symm
      rw [Decimal.str_of_exponent_zero h, Decimal.toInt_of_exponent_zero h, hdigits]
      unfold Decimal.sign
      cases d.negative with
      | false => exact pyInt_repr d.coefficient
      | true => exact pyInt_neg_repr d.coefficient
    rw [hread, Except.ok.injEq]
    simp [h]
  · refine ⟨?_, fun hc => absurd hc.1 h⟩
    intro hok
    have hfails : ∃ e, pyInt d.str = .error e := by
      rcases Decimal.point_or_exponent_mem_str h with hmem | hmem
      · exact pyInt_error_of_mem hmem (by decide) (by decide) (by decide)
      · exact pyInt_error_of_mem hmem (by decide) (by decide) (by decide)
    obtain ⟨e, he⟩ := hfails
    rw [he] at hok
    cases hok

/-! ## What is read -/

/-- A container's resource requests. -/
def requestsOf (c : V1Container) : Option (OrderedDict String String) :=
  c.resources.bind V1ResourceRequirements.requests

/-- The decimal of a container's cpu request. -/
def cpuRequest (parseQuantity : String → Except PyError Decimal) (c : V1Container) :
    Option Decimal :=
  (requestsOf c).bind (fun r => (r.get? specResourceCpuKey).bind
    (fun quantity => (parseQuantity quantity).toOption))

/-- A container requests every resource that `get_requested_resources` asks for. -/
def RequestsAll (c : V1Container) : Prop :=
  ∃ r, requestsOf c = some r ∧ specResourceCpuKey ∈ r.keys ∧ specResourceMemKey ∈ r.keys
    ∧ specResourceNetKey ∈ r.keys
    ∧ ((r.get? specResourceDiskKey).getD "" ≠ "" ∨ specResourceDiskDeprecatedKey ∈ r.keys)

section

variable {parseQuantity : String → Except PyError Decimal} {pod : V1Pod PodBody}

theorem getAttr_eq_ok {α : Type} {name : String} {o : Option α} {x : α} :
    getAttr name o = .ok x ↔ o = some x := by
  cases o with
  | none => simp [getAttr]
  | some y => simp [getAttr]

theorem cpuRequest_eq_some {c : V1Container} {d : Decimal} :
    cpuRequest parseQuantity c = some d
      ↔ ∃ r quantity, requestsOf c = some r ∧ r.get? specResourceCpuKey = some quantity
          ∧ parseQuantity quantity = .ok d := by
  unfold cpuRequest
  simp only [Option.bind_eq_some_iff, toOption_eq_some]
  refine ⟨?_, ?_⟩
  · intro h
    obtain ⟨r, hr, quantity, hq, hd⟩ := h
    exact ⟨r, quantity, hr, hq, hd⟩
  · intro h
    obtain ⟨r, quantity, hr, hq, hd⟩ := h
    exact ⟨r, hr, quantity, hq, hd⟩

theorem requestsOf_eq_some {c : V1Container} {r : OrderedDict String String} :
    requestsOf c = some r ↔ ∃ resources, c.resources = some resources
      ∧ resources.requests = some r := Option.bind_eq_some_iff

/-- The workload is there when the main container's decimal is plain. -/
theorem kubernetesWorkload_ok_iff {main : V1Container} {jobId : String}
    (hmain : getMainContainer pod = some main) (hjob : getJobId pod = .ok jobId) {n : Int} :
    (∃ w, kubernetesWorkload parseQuantity pod = .ok w ∧ w.threadCount = n)
      ↔ ∃ d, cpuRequest parseQuantity main = some d ∧ d.exponent = 0 ∧ d.toInt = n := by
  unfold kubernetesWorkload
  rw [hmain, hjob]
  refine ⟨?_, ?_⟩
  · intro h
    obtain ⟨w, hw, rfl⟩ := h
    obtain ⟨c, hc, hw⟩ := bind_eq_ok.mp hw
    obtain rfl := Option.some.inj (getAttr_eq_ok.mp hc)
    obtain ⟨resources, hresources, hw⟩ := bind_eq_ok.mp hw
    have hresources := getAttr_eq_ok.mp hresources
    cases hr : resources.requests with
    | none =>
      rw [hr] at hw
      cases hw
    | some r =>
      rw [hr] at hw
      obtain ⟨quantity, hquantity, hw⟩ := bind_eq_ok.mp hw
      obtain ⟨text, htext, hw⟩ := bind_eq_ok.mp hw
      obtain ⟨cpus, hcpus, hw⟩ := bind_eq_ok.mp hw
      obtain rfl : Workload.mk pod.name jobId cpus = w := Except.ok.inj hw
      obtain ⟨d, hd, rfl⟩ := map_eq_ok.mp htext
      exact ⟨d, cpuRequest_eq_some.mpr ⟨r, quantity, requestsOf_eq_some.mpr ⟨_, hresources, hr⟩,
        getKey_eq_ok.mp hquantity, hd⟩, pyInt_str_eq_ok.mp hcpus⟩
  · intro h
    obtain ⟨d, hd, hplain⟩ := h
    obtain ⟨r, quantity, hr, hquantity, hparse⟩ := cpuRequest_eq_some.mp hd
    obtain ⟨resources, hresources, hr⟩ := requestsOf_eq_some.mp hr
    refine ⟨{ taskId := pod.name, jobId := jobId, threadCount := n }, ?_, rfl⟩
    refine bind_eq_ok.mpr ⟨main, rfl, bind_eq_ok.mpr ⟨resources, getAttr_eq_ok.mpr hresources, ?_⟩⟩
    rw [hr]
    refine bind_eq_ok.mpr ⟨quantity, getKey_eq_ok.mpr hquantity, ?_⟩
    refine bind_eq_ok.mpr ⟨d.str, map_eq_ok.mpr ⟨d, hparse, rfl⟩, ?_⟩
    exact bind_eq_ok.mpr ⟨n, pyInt_str_eq_ok.mpr hplain, rfl⟩

theorem diskStr_ok_iff {r : OrderedDict String String} :
    (∃ disk, diskStr r = .ok disk) ↔ (r.get? specResourceDiskKey).getD "" ≠ ""
      ∨ specResourceDiskDeprecatedKey ∈ r.keys := by
  unfold diskStr
  by_cases h : (r.get? specResourceDiskKey).getD "" = ""
  · simp only [h, if_true, getKey_eq_ok, ne_eq, not_true_eq_false, false_or]
    exact OrderedDict.mem_keys_iff.symm
  · simp [h]

/-- A value that is read is one of the dictionary's. -/
theorem diskStr_value {r : OrderedDict String String} {disk : String} (h : diskStr r = .ok disk) :
    disk ∈ r.values := by
  unfold diskStr at h
  cases hget : r.get? specResourceDiskKey with
  | none =>
    rw [hget] at h
    exact OrderedDict.mem_values_of_get? (getKey_eq_ok.mp h)
  | some v =>
    rw [hget] at h
    simp only [Option.getD_some] at h
    split at h
    · exact OrderedDict.mem_values_of_get? (getKey_eq_ok.mp h)
    · obtain rfl := Except.ok.inj h
      exact OrderedDict.mem_values_of_get? hget

theorem cpuQuantity_ok_iff {r : OrderedDict String String} {n : Int} :
    (getKey r specResourceCpuKey >>= intQuantity parseQuantity) = .ok n
      ↔ ∃ quantity d, r.get? specResourceCpuKey = some quantity
          ∧ parseQuantity quantity = .ok d ∧ d.toInt = n := by
  unfold intQuantity
  simp only [bind_eq_ok, map_eq_ok, getKey_eq_ok]
  refine ⟨?_, ?_⟩
  · rintro ⟨quantity, hquantity, d, hd, hcut⟩
    exact ⟨quantity, d, hquantity, hd, hcut⟩
  · rintro ⟨quantity, d, hquantity, hd, hcut⟩
    exact ⟨quantity, hquantity, d, hd, hcut⟩

/-- What is read under a key was requested. -/
theorem mem_keys_of_quantity {r : OrderedDict String String} {key : String} {i : Int}
    (h : (getKey r key >>= intQuantity parseQuantity) = .ok i) : key ∈ r.keys := by
  obtain ⟨v, hv, _⟩ := bind_eq_ok.mp h
  exact OrderedDict.mem_keys_iff.mpr ⟨v, getKey_eq_ok.mp hv⟩

section

variable {r : OrderedDict String String}

theorem intQuantity_ok (hvalid : ∀ quantity ∈ r.values, ∃ d, parseQuantity quantity = .ok d)
    {quantity : String} (hin : quantity ∈ r.values) :
    ∃ i, intQuantity parseQuantity quantity = .ok i := by
  obtain ⟨d, hd⟩ := hvalid quantity hin
  exact ⟨d.toInt, map_eq_ok.mpr ⟨d, hd, rfl⟩⟩

theorem getQuantity_ok (hvalid : ∀ quantity ∈ r.values, ∃ d, parseQuantity quantity = .ok d)
    {key : String} (hkey : key ∈ r.keys) :
    ∃ i, (getKey r key >>= intQuantity parseQuantity) = .ok i := by
  obtain ⟨v, hv⟩ := OrderedDict.mem_keys_iff.mp hkey
  obtain ⟨i, hi⟩ := intQuantity_ok hvalid (OrderedDict.mem_values_of_get? hv)
  exact ⟨i, bind_eq_ok.mpr ⟨v, getKey_eq_ok.mpr hv, hi⟩⟩

/-- No request for GPUs, or an empty one, counts as none. -/
theorem gpuCount_ok (hvalid : ∀ quantity ∈ r.values, ∃ d, parseQuantity quantity = .ok d) :
    ∃ gpu, gpuCount parseQuantity r = .ok gpu := by
  unfold gpuCount
  cases hget : r.get? specResourceGpuKey with
  | none => exact ⟨0, rfl⟩
  | some v =>
    by_cases hv : v = ""
    · exact ⟨0, by simp [hv]⟩
    · obtain ⟨i, hi⟩ := intQuantity_ok hvalid (OrderedDict.mem_values_of_get? hget)
      exact ⟨i, by simp [hv, hi]⟩

/-- All resources are read when each is requested. -/
theorem resourcesOf_ok_iff (hvalid : ∀ quantity ∈ r.values, ∃ d, parseQuantity quantity = .ok d)
    {n : Int} :
    (∃ resources, resourcesOf parseQuantity r = .ok resources ∧ resources.cpu = n)
      ↔ (∃ quantity d, r.get? specResourceCpuKey = some quantity ∧ parseQuantity quantity = .ok d
          ∧ d.toInt = n)
        ∧ specResourceMemKey ∈ r.keys ∧ specResourceNetKey ∈ r.keys
        ∧ ((r.get? specResourceDiskKey).getD "" ≠ "" ∨ specResourceDiskDeprecatedKey ∈ r.keys) := by
  rw [← cpuQuantity_ok_iff, ← diskStr_ok_iff]
  refine ⟨?_, ?_⟩
  · rintro ⟨resources, hresources, rfl⟩
    obtain ⟨disk, hdisk, h⟩ := bind_eq_ok.mp hresources
    obtain ⟨gpu, _, h⟩ := bind_eq_ok.mp h
    obtain ⟨cpu, hcpu, h⟩ := bind_eq_ok.mp h
    obtain ⟨mem, hmem, h⟩ := bind_eq_ok.mp h
    obtain ⟨diskInt, _, h⟩ := bind_eq_ok.mp h
    obtain ⟨net, hnet, h⟩ := bind_eq_ok.mp h
    obtain rfl : Resources.mk cpu mem diskInt net gpu = resources := Except.ok.inj h
    exact ⟨hcpu, mem_keys_of_quantity hmem, mem_keys_of_quantity hnet, disk, hdisk⟩
  · rintro ⟨hcpu, hmem, hnet, disk, hdisk⟩
    obtain ⟨diskInt, hdiskInt⟩ := intQuantity_ok hvalid (diskStr_value hdisk)
    obtain ⟨gpu, hgpu⟩ := gpuCount_ok hvalid
    obtain ⟨mem, hmem⟩ := getQuantity_ok hvalid hmem
    obtain ⟨net, hnet⟩ := getQuantity_ok hvalid hnet
    refine ⟨Resources.mk n mem diskInt net gpu, ?_, rfl⟩
    refine bind_eq_ok.mpr ⟨disk, hdisk, bind_eq_ok.mpr ⟨gpu, hgpu, bind_eq_ok.mpr ⟨n, hcpu, ?_⟩⟩⟩
    refine bind_eq_ok.mpr ⟨mem, hmem, bind_eq_ok.mpr ⟨diskInt, hdiskInt, ?_⟩⟩
    exact bind_eq_ok.mpr ⟨net, hnet, rfl⟩

end

/-- The resources are there when the first container requests them all. -/
theorem getRequestedResources_ok_iff
    (hvalid : ∀ c ∈ pod.spec.containers, ∀ r, requestsOf c = some r →
      ∀ quantity ∈ r.values, ∃ d, parseQuantity quantity = .ok d) {n : Int} :
    (∃ resources, getRequestedResources parseQuantity pod = .ok resources ∧ resources.cpu = n)
      ↔ ∃ first d, pod.spec.containers.head? = some first ∧ RequestsAll first
          ∧ cpuRequest parseQuantity first = some d ∧ d.toInt = n := by
  unfold getRequestedResources
  cases hcontainers : pod.spec.containers with
  | nil =>
    refine ⟨?_, ?_⟩
    · rintro ⟨resources, h, _⟩
      cases h
    · rintro ⟨first, d, h, _⟩
      cases h
  | cons c cs =>
    have hc : ∀ r, requestsOf c = some r → ∀ quantity ∈ r.values,
        ∃ d, parseQuantity quantity = .ok d := hvalid c (by rw [hcontainers]; simp)
    refine ⟨?_, ?_⟩
    · rintro ⟨resources, h, hcpu⟩
      obtain ⟨first, hfirst, h⟩ := bind_eq_ok.mp h
      obtain rfl : c = first := Except.ok.inj hfirst
      obtain ⟨requirements, hrequirements, h⟩ := bind_eq_ok.mp h
      obtain ⟨r, hr, h⟩ := bind_eq_ok.mp h
      have hr : requestsOf c = some r :=
        requestsOf_eq_some.mpr ⟨_, getAttr_eq_ok.mp hrequirements, getAttr_eq_ok.mp hr⟩
      obtain ⟨⟨quantity, d, hquantity, hd, hcut⟩, hmem, hnet, hdisk⟩ :=
        (resourcesOf_ok_iff (hc r hr)).mp ⟨resources, h, hcpu⟩
      exact ⟨c, d, rfl, ⟨r, hr, OrderedDict.mem_keys_iff.mpr ⟨_, hquantity⟩, hmem, hnet, hdisk⟩,
        cpuRequest_eq_some.mpr ⟨r, quantity, hr, hquantity, hd⟩, hcut⟩
    · rintro ⟨first, d, hfirst, ⟨r, hr, _, hmem, hnet, hdisk⟩, hcpu, hcut⟩
      obtain rfl := Option.some.inj hfirst
      obtain ⟨r', quantity, hr', hquantity, hd⟩ := cpuRequest_eq_some.mp hcpu
      obtain rfl := Option.some.inj (hr.symm.trans hr')
      obtain ⟨resources, hresources, hn⟩ :=
        (resourcesOf_ok_iff (hc r hr)).mpr ⟨⟨quantity, d, hquantity, hd, hcut⟩, hmem, hnet, hdisk⟩
      obtain ⟨requirements, hrequirements, hrequests⟩ := requestsOf_eq_some.mp hr
      refine ⟨resources, bind_eq_ok.mpr ⟨c, rfl, ?_⟩, hn⟩
      refine bind_eq_ok.mpr ⟨requirements, getAttr_eq_ok.mpr hrequirements, ?_⟩
      exact bind_eq_ok.mpr ⟨r, getAttr_eq_ok.mpr hrequests, hresources⟩

/-- The main container's cpu is written plainly, and the first container requests everything
and as much cpu, cut to an integer. -/
def RequestsAlike (parseQuantity : String → Except PyError Decimal) (pod : V1Pod PodBody)
    (main : V1Container) : Prop :=
  ∃ d first d', cpuRequest parseQuantity main = some d ∧ d.exponent = 0
    ∧ pod.spec.containers.head? = some first ∧ RequestsAll first
    ∧ cpuRequest parseQuantity first = some d' ∧ d'.toInt = d.toInt

/-- **The two readings of a pod agree when its requests do**, and only then. -/
theorem threadCount_eq_cpu_iff {main : V1Container} {jobId : String}
    (hmain : getMainContainer pod = some main) (hjob : getJobId pod = .ok jobId)
    (hvalid : ∀ c ∈ pod.spec.containers, ∀ r, requestsOf c = some r →
      ∀ quantity ∈ r.values, ∃ d, parseQuantity quantity = .ok d) :
    (∃ w resources, kubernetesWorkload parseQuantity pod = .ok w
        ∧ getRequestedResources parseQuantity pod = .ok resources
        ∧ w.threadCount = resources.cpu)
      ↔ RequestsAlike parseQuantity pod main := by
  refine ⟨?_, ?_⟩
  · rintro ⟨w, resources, hw, hresources, heq⟩
    obtain ⟨d, hd, hplain, hcut⟩ := (kubernetesWorkload_ok_iff hmain hjob).mp ⟨w, hw, rfl⟩
    obtain ⟨first, d', hfirst, hall, hd', hcut'⟩ :=
      (getRequestedResources_ok_iff hvalid).mp ⟨resources, hresources, rfl⟩
    exact ⟨d, first, d', hd, hplain, hfirst, hall, hd', by rw [hcut', hcut, heq]⟩
  · rintro ⟨d, first, d', hd, hplain, hfirst, hall, hd', hcut⟩
    obtain ⟨w, hw, hcount⟩ := (kubernetesWorkload_ok_iff hmain hjob).mpr ⟨d, hd, hplain, rfl⟩
    obtain ⟨resources, hresources, hcpu⟩ :=
      (getRequestedResources_ok_iff hvalid).mpr ⟨first, d', hfirst, hall, hd', hcut⟩
    exact ⟨w, resources, hw, hresources, by rw [hcount, hcpu]⟩

end

/-! ## Two pods -/

/-- What `parse_quantity` makes of the quantities below. -/
def quantityTable : List (String × Decimal) :=
  [("2", ⟨false, 2, 0⟩), ("2000m", ⟨false, 2000, -3⟩), ("1", ⟨false, 1, 0⟩),
    ("512Mi", ⟨false, 536870912, 0⟩), ("10k", ⟨false, 10000, 0⟩), ("128", ⟨false, 128, 0⟩)]

/-- A `parse_quantity` that knows the quantities of the table. -/
def parseListed (quantity : String) : Except PyError Decimal :=
  match quantityTable.lookup quantity with
  | some d => .ok d
  | none => .error (.valueError ("Invalid number format: " ++ quantity))

/-- A container that asks for so much CPU. -/
def containerOf (name cpu : String) : V1Container where
  name := name
  resources := some { requests := some (OrderedDict.ofPairs
    [("cpu", cpu), ("memory", "512Mi"), ("titus/disk", "10k"), ("titus/network", "128")]) }

/-- A pod of the given containers. -/
def podOf (containers : List V1Container) : V1Pod PodBody where
  name := "task"
  spec :=
    { labels := some (OrderedDict.ofPairs [("v3.job.titus.netflix.com/job-id", "job")])
      annotations := none
      containers := containers }

theorem threadCount_eq_cpu_iff_single :
    ∃ w resources, kubernetesWorkload parseListed (podOf [containerOf "main" "2"]) = .ok w
      ∧ getRequestedResources parseListed (podOf [containerOf "main" "2"]) = .ok resources
      ∧ w.threadCount = resources.cpu := by
  have hmain : getMainContainer (podOf [containerOf "main" "2"]) = some (containerOf "main" "2") :=
    rfl
  have hjob : getJobId (podOf [containerOf "main" "2"]) = .ok "job" := rfl
  refine (threadCount_eq_cpu_iff hmain hjob ?_).mpr ?_
  · intro c hc r hr quantity hquantity
    obtain rfl := List.mem_singleton.mp hc
    cases hr
    have hin : quantity ∈ ["2", "512Mi", "10k", "128"] := hquantity
    simp only [List.mem_cons, List.not_mem_nil, or_false] at hin
    rcases hin with rfl | rfl | rfl | rfl
    · exact ⟨_, rfl⟩
    · exact ⟨_, rfl⟩
    · exact ⟨_, rfl⟩
    · exact ⟨_, rfl⟩
  · refine ⟨⟨false, 2, 0⟩, containerOf "main" "2", ⟨false, 2, 0⟩, rfl, rfl, rfl, ?_, rfl, rfl⟩
    exact ⟨_, rfl, by decide, by decide, by decide, Or.inr (by decide)⟩

/-- Two cpus written in thousandths are no workload, and beside a first container of one cpu
the two readings differ. -/
theorem threadCount_ne_cpu :
    kubernetesWorkload parseListed (podOf [containerOf "main" "2000m"])
        = .error (.valueError "invalid literal for int() with base 10: '2.000'")
      ∧ (getRequestedResources parseListed (podOf [containerOf "main" "2000m"])).map Resources.cpu
        = .ok 2
      ∧ (kubernetesWorkload parseListed (podOf [containerOf "side" "1", containerOf "main" "2"])).map
          Workload.threadCount = .ok 2
      ∧ (getRequestedResources parseListed
          (podOf [containerOf "side" "1", containerOf "main" "2"])).map Resources.cpu = .ok 1 := by
  decide

end TitusIsolate
