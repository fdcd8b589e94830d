import TitusIsolate.Cgroup.Cpuset
import TitusIsolate.Lib.Raising
import TitusIsolate.Monitor.ResourceUsage

/-!
# Padding and writing down a usage map

Filling the blank map list by list pads every list of the map. Padded, all lists are of
one length. So the last list that a reader meets has the length of all, and padding to
that length again leaves what was read alone.
-/

namespace TitusIsolate

section

variable {α : Type} {nan : α}

/-- A list that is too short gets padding in front, one that is too long loses its beginning. -/
theorem padList_eq (L : Nat) (xs : List α) :
    padList nan L xs = List.replicate (L - xs.length) nan ++ xs.drop (xs.length - L) := by
  have hpad : ((L : Int) - xs.length).toNat = L - xs.length := by omega
  have hlength : (xs.drop (xs.length - L)).length ≤ L := by
    rw [List.length_drop]
    omega
  unfold padList
  simp only
  rw [BoundedDeque.toList_extendLeft, BoundedDeque.toList_ofList, hpad, List.reverse_replicate]
  refine List.take_of_length_le ?_
  rw [List.length_append, List.length_replicate, List.length_drop]
  omega

@[simp] theorem length_padList (L : Nat) (xs : List α) : (padList nan L xs).length = L := by
  rw [padList_eq, List.length_append, List.length_replicate, List.length_drop]
  omega

/-- A list of the right length stays. -/
theorem padList_of_length {L : Nat} {xs : List α} (h : xs.length = L) : padList nan L xs = xs := by
  rw [padList_eq, h, Nat.sub_self]
  rfl

/-! ## Filling the map -/

/-- The loop over the workloads of one resource. -/
theorem fillResource (nan : α) (L : Nat) (r : String) :
    ∀ (lists : List (WorkloadId × List α)) (padded : UsageMap α)
      (d : OrderedDict WorkloadId (List α)), padded.get? r = some d →
      (lists.foldl (fun padded w => setUsage padded r w.1 (padList nan L w.2)) padded).keys
          = padded.keys
        ∧ (lists.foldl (fun padded w => setUsage padded r w.1 (padList nan L w.2)) padded).get? r
          = some ((lists.map (fun w => (w.1, padList nan L w.2))).foldl
              (fun d w => d.insert w.1 w.2) d)
        ∧ ∀ k, k ≠ r →
          (lists.foldl (fun padded w => setUsage padded r w.1 (padList nan L w.2)) padded).get? k
            = padded.get? k
  | [], padded, d, h => ⟨rfl, h, fun _ _ => rfl⟩
  | w :: lists, padded, d, h => by
      have hset : setUsage padded r w.1 (padList nan L w.2)
          = padded.insert r (d.insert w.1 (padList nan L w.2)) := by
        unfold setUsage
        rw [h]
        rfl
      have hmem : r ∈ padded.keys := OrderedDict.mem_keys_iff.mpr ⟨d, h⟩
      obtain ⟨hkeys, hget, hother⟩ := fillResource nan L r lists
        (padded.insert r (d.insert w.1 (padList nan L w.2))) (d.insert w.1 (padList nan L w.2))
        (by rw [OrderedDict.get?_insert, if_pos rfl])
      rw [List.foldl_cons, hset]
      refine ⟨hkeys.trans (OrderedDict.keys_insert_of_mem hmem _), hget, ?_⟩
      intro k hk
      rw [hother k hk, OrderedDict.get?_insert, if_neg hk]

/-- The loop over the resources. -/
theorem fillAll (nan : α) (L : Nat) :
    ∀ (entries : List (String × OrderedDict WorkloadId (List α))) (padded : UsageMap α),
      (entries.map Prod.fst).Nodup →
      (∀ e ∈ entries, padded.get? e.1 = some (e.2.mapValues (fun _ _ => []))) →
      (entries.foldl (fun padded e => e.2.entries.foldl
          (fun padded w => setUsage padded e.1 w.1 (padList nan L w.2)) padded) padded).keys
        = padded.keys
      ∧ (∀ k ∉ entries.map Prod.fst, (entries.foldl (fun padded e => e.2.entries.foldl
          (fun padded w => setUsage padded e.1 w.1 (padList nan L w.2)) padded) padded).get? k
        = padded.get? k)
      ∧ ∀ e ∈ entries, (entries.foldl (fun padded e => e.2.entries.foldl
          (fun padded w => setUsage padded e.1 w.1 (padList nan L w.2)) padded) padded).get? e.1
        = some (e.2.mapValues (fun _ xs => padList nan L xs))
  | [], padded, _, _ => ⟨rfl, fun _ _ => rfl, fun e he => absurd he List.not_mem_nil⟩
  | e :: entries, padded, hnodup, hblank => by
      obtain ⟨hnew, hnodup⟩ := List.nodup_cons.mp hnodup
      obtain ⟨hkeysOne, hgetOne, hotherOne⟩ :=
        fillResource nan L e.1 e.2.entries padded _ (hblank e (by simp))
      -- every list of the blank dictionary is replaced by the padded one
      have hfilled : (e.2.entries.map (fun w => (w.1, padList nan L w.2))).foldl
          (fun d w => d.insert w.1 w.2) (e.2.mapValues (fun _ _ => []))
          = e.2.mapValues (fun _ xs => padList nan L xs) :=
        OrderedDict.foldl_insert_mapValues (fun _ xs => padList nan L xs) e.2
          (OrderedDict.keys_mapValues _ _)
      obtain ⟨hkeys, hother, hentries⟩ := fillAll nan L entries
        (e.2.entries.foldl (fun padded w => setUsage padded e.1 w.1 (padList nan L w.2)) padded)
        hnodup (by
          intro e' he'
          have hne : e'.1 ≠ e.1 := fun heq => hnew (heq ▸ List.mem_map_of_mem he')
          rw [hotherOne e'.1 hne]
          exact hblank e' (List.mem_cons_of_mem _ he'))
      rw [List.foldl_cons]
      refine ⟨hkeys.trans hkeysOne, ?_, ?_⟩
      · intro k hk
        rw [List.map_cons, List.mem_cons, not_or] at hk
        rw [hother k hk.2, hotherOne k hk.1]
      · intro e' he'
        rcases List.mem_cons.mp he' with rfl | he'
        · rw [hother _ hnew, hgetOne, hfilled]
        · exact hentries e' he'

/-- **Padding a map pads each of its lists.** -/
theorem padUsage_eq (usage : UsageMap α) (L : Nat) :
    padUsage nan usage L
      = usage.mapValues (fun _ wu => wu.mapValues (fun _ xs => padList nan L xs)) := by
  obtain ⟨hkeys, _, hentries⟩ := fillAll nan L usage.entries
    (usage.mapValues (fun _ wu => wu.mapValues (fun _ _ => []))) usage.nodup (by
      intro e he
      rw [OrderedDict.get?_mapValues, OrderedDict.get?_eq_some_iff.mpr he]
      rfl)
  unfold padUsage
  refine OrderedDict.ext_get? (by rw [hkeys]; simp) ?_
  intro k hk
  rw [hkeys, OrderedDict.keys_mapValues] at hk
  obtain ⟨wu, hwu⟩ := OrderedDict.mem_keys_iff.mp hk
  rw [hentries (k, wu) (OrderedDict.get?_eq_some_iff.mp hwu), OrderedDict.get?_mapValues, hwu]
  rfl

/-- All lists of a map are of the given length. -/
def AllOfLength (usage : UsageMap α) (L : Nat) : Prop :=
  ∀ r wu, usage.get? r = some wu → ∀ w xs, wu.get? w = some xs → xs.length = L

theorem padUsage_of_allOfLength {usage : UsageMap α} {L : Nat} (h : AllOfLength usage L) :
    padUsage nan usage L = usage := by
  rw [padUsage_eq]
  refine OrderedDict.mapValues_eq_self ?_
  intro r wu hwu
  exact OrderedDict.mapValues_eq_self (fun hxs => padList_of_length (h r wu hwu _ _ hxs))

theorem allOfLength_padUsage (usage : UsageMap α) (L : Nat) :
    AllOfLength (padUsage nan usage L) L := by
  intro r wu hwu w xs hxs
  rw [padUsage_eq, OrderedDict.get?_mapValues] at hwu
  obtain ⟨wu', _, rfl⟩ := Option.map_eq_some_iff.mp hwu
  rw [OrderedDict.get?_mapValues] at hxs
  obtain ⟨xs', _, rfl⟩ := Option.map_eq_some_iff.mp hxs
  exact length_padList L xs'

/-! ## Reading a map back -/

variable {str : α → String} {float : String → Except PyError α}

open GlobalResourceUsage Raising

/-- The lists are read back, and the length is theirs, when there is one. -/
theorem deserializeLists_map (h : ∀ x, float (str x) = .ok x) {L : Nat} :
    ∀ (lists : List (WorkloadId × List α)) (n : Nat), (∀ w ∈ lists, w.2.length = L) →
      ∃ n', deserializeLists float (lists.map (fun w => (w.1, w.2.map str))) n = .ok (lists, n')
        ∧ (n' = L ∨ (lists = [] ∧ n' = n))
  | [], n, _ => ⟨n, rfl, Or.inr ⟨rfl, rfl⟩⟩
  | w :: lists, n, hlength => by
      obtain ⟨n', hrest, hn⟩ := deserializeLists_map h lists w.2.length
        (fun w' hw' => hlength w' (List.mem_cons_of_mem _ hw'))
      refine ⟨n', ?_, ?_⟩
      · have hread : (w.2.map str).mapM float = .ok (w.2.map id) :=
          mapM_map_eq_ok (fun x _ => h x)
        rw [List.map_id] at hread
        rw [List.map_cons, deserializeLists]
        refine bind_eq_ok.mpr ⟨w.2, hread, ?_⟩
        rw [List.length_map]
        exact bind_eq_ok.mpr ⟨(lists, n'), hrest, rfl⟩
      · rcases hn with hn | ⟨_, hn⟩
        · exact Or.inl hn
        · exact Or.inl (hn.trans (hlength w (by simp)))

theorem deserializeMaps_map (h : ∀ x, float (str x) = .ok x) {L : Nat} :
    ∀ (maps : List (String × OrderedDict WorkloadId (List α))) (n : Nat),
      (∀ m ∈ maps, ∀ w ∈ m.2.entries, w.2.length = L) →
      ∃ n', deserializeMaps float
          (maps.map (fun m => (m.1, m.2.mapValues (fun _ xs => xs.map str)))) n = .ok (maps, n')
        ∧ (n' = L ∨ ((∀ m ∈ maps, m.2.entries = []) ∧ n' = n))
  | [], n, _ => ⟨n, rfl, Or.inr ⟨fun m hm => absurd hm List.not_mem_nil, rfl⟩⟩
  | m :: maps, n, hlength => by
      obtain ⟨n₁, hlists, hn₁⟩ := deserializeLists_map h m.2.entries n (hlength m (by simp))
      obtain ⟨n₂, hmaps, hn₂⟩ := deserializeMaps_map h maps n₁
        (fun m' hm' => hlength m' (List.mem_cons_of_mem _ hm'))
      refine ⟨n₂, ?_, ?_⟩
      · rw [List.map_cons, deserializeMaps]
        refine bind_eq_ok.mpr ⟨(m.2.entries, n₁), hlists, bind_eq_ok.mpr ⟨(maps, n₂), hmaps, ?_⟩⟩
        simp only
        rw [OrderedDict.ofPairs_entries]
      · rcases hn₂ with hn₂ | ⟨hempty, hn₂⟩
        · exact Or.inl hn₂
        · rcases hn₁ with hn₁ | ⟨hnone, hn₁⟩
          · exact Or.inl (hn₂.trans hn₁)
          · refine Or.inr ⟨?_, hn₂.trans hn₁⟩
            intro m' hm'
            rcases List.mem_cons.mp hm' with rfl | hm'
            · exact hnone
            · exact hempty m' hm'

/-- A map of lists of one length survives being written down and read. -/
theorem deserialize_serialize (h : ∀ x, float (str x) = .ok x) {g : GlobalResourceUsage α} {L : Nat}
    (hlength : AllOfLength g.map L) : deserialize nan float (g.serialize str) = .ok g := by
  obtain ⟨n, hmaps, hn⟩ := deserializeMaps_map h g.map.entries defaultUsageLength (by
    intro m hm w hw
    exact hlength m.1 m.2 (OrderedDict.get?_eq_some_iff.mpr hm) w.1 w.2
      (OrderedDict.get?_eq_some_iff.mpr hw))
  refine bind_eq_ok.mpr ⟨(g.map.entries, n), hmaps, ?_⟩
  simp only
  rw [OrderedDict.ofPairs_entries]
  have hn : AllOfLength g.map n := by
    rcases hn with rfl | ⟨hempty, _⟩
    · exact hlength
    · -- there is no list, so all are of any length
      intro r wu hwu w xs hxs
      have hnone := hempty (r, wu) (OrderedDict.get?_eq_some_iff.mp hwu)
      have hin := OrderedDict.get?_eq_some_iff.mp hxs
      rw [hnone] at hin
      exact absurd hin List.not_mem_nil
  unfold GlobalResourceUsage.new
  rw [padUsage_of_allOfLength hn]

/-! ## Padded and read back -/

/-- **Padding brings every list to its length, once and for all, and a padded map survives being
written down and read.** -/
theorem padded_roundTrip (h : ∀ x, float (str x) = .ok x) (usage : UsageMap α) (L : Nat) :
    (padUsage nan usage L).keys = usage.keys
      ∧ (∀ r wu, usage.get? r = some wu →
          ∃ padded, (padUsage nan usage L).get? r = some padded ∧ padded.keys = wu.keys
            ∧ ∀ w xs, wu.get? w = some xs → ∃ ys, padded.get? w = some ys ∧ ys.length = L
                ∧ ys = List.replicate (L - xs.length) nan ++ xs.drop (xs.length - L))
      ∧ padUsage nan (padUsage nan usage L) L = padUsage nan usage L
      ∧ deserialize nan float ((GlobalResourceUsage.new nan usage L).serialize str)
          = .ok (GlobalResourceUsage.new nan usage L) := by
  have hlength : AllOfLength (padUsage nan usage L) L := allOfLength_padUsage usage L
  refine ⟨?_, ?_, padUsage_of_allOfLength hlength, deserialize_serialize h hlength⟩
  · rw [padUsage_eq, OrderedDict.keys_mapValues]
  · intro r wu hwu
    refine ⟨wu.mapValues (fun _ xs => padList nan L xs), ?_, OrderedDict.keys_mapValues _ _, ?_⟩
    · rw [padUsage_eq, OrderedDict.get?_mapValues, hwu]
      rfl
    · intro w xs hxs
      refine ⟨padList nan L xs, ?_, length_padList L xs, padList_eq L xs⟩
      rw [OrderedDict.get?_mapValues, hxs]
      rfl

end

/-! ## Whole numbers as floats -/

/-- A float that is NaN or a whole number. -/
abbrev WholeFloat := Option Nat

/-- `str(x)` -/
def WholeFloat.str : WholeFloat → String
  | none => "nan"
  | some n => String.ofList (n.repr.toList ++ ['.', '0'])

/-- `float(s)` -/
def WholeFloat.float (s : String) : Except PyError WholeFloat :=
  if s = "nan" then .ok none
  else (pyInt (s.toList.take (s.toList.length - 2))).map (fun i => some i.toNat)

theorem WholeFloat.float_str (x : WholeFloat) : float (str x) = .ok x := by
  cases x with
  | none => rfl
  | some n =>
    have hne : str (some n) ≠ "nan" := by
      intro heq
      have hpoint : '.' ∈ (str (some n)).toList := by
        unfold str
        rw [String.toList_ofList]
        simp
      rw [heq] at hpoint
      exact absurd hpoint (by decide)
    have htake : (str (some n)).toList.take ((str (some n)).toList.length - 2) = n.repr.toList := by
      unfold str
      rw [String.toList_ofList, List.length_append]
      exact List.take_left
    unfold float
    rw [if_neg hne, htake, pyInt_repr]
    rfl

/-- A short list, a long one and a resource without a workload. -/
def threeUsages : UsageMap WholeFloat := OrderedDict.ofPairs
  [("cpu_usage", OrderedDict.ofPairs
      [("a", [some 1, some 2]), ("b", [some 3, some 4, some 5, some 6])]),
    ("mem_usage", OrderedDict.empty)]

theorem padded_roundTrip_three :
    ((padUsage none threeUsages 3).get? "cpu_usage").map OrderedDict.entries
        = some [("a", [none, some 1, some 2]), ("b", [some 4, some 5, some 6])]
      ∧ GlobalResourceUsage.deserialize none WholeFloat.float
          ((GlobalResourceUsage.new none threeUsages 3).serialize WholeFloat.str)
        = .ok (GlobalResourceUsage.new none threeUsages 3) :=
  ⟨by decide, (padded_roundTrip WholeFloat.float_str threeUsages 3).2.2.2⟩

end TitusIsolate
