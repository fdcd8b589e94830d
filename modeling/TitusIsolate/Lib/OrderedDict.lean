import Mathlib.Data.List.Nodup

/-!
# Dictionaries that remember insertion order

A dictionary here is a list of bindings with distinct keys. Assigning to a key
that is already bound replaces the value and leaves the key where it was;
assigning to a new key appends; deleting forgets the key and its place, so a key
that is deleted and bound again comes last.

`get?_eq_some_iff` is the lemma everything else goes through: looking a key up is
the same as finding its binding in the list, because a key is bound at most once.
-/

/-- Bindings in insertion order, at most one for each key. -/
structure OrderedDict (κ ν : Type) where
  entries : List (κ × ν)
  nodup : (entries.map Prod.fst).Nodup

namespace OrderedDict

variable {κ ν : Type}

/-- The keys, oldest first. -/
def keys (d : OrderedDict κ ν) : List κ := d.entries.map Prod.fst

/-- The values, in the order of their keys. -/
def values (d : OrderedDict κ ν) : List ν := d.entries.map Prod.snd

/-- The dictionary with no binding. -/
def empty : OrderedDict κ ν := ⟨[], List.nodup_nil⟩

@[simp] theorem keys_empty : (empty : OrderedDict κ ν).keys = [] := rfl

@[simp] theorem values_empty : (empty : OrderedDict κ ν).values = [] := rfl

@[simp] theorem entries_empty : (empty : OrderedDict κ ν).entries = [] := rfl

theorem keys_nodup (d : OrderedDict κ ν) : d.keys.Nodup := d.nodup

theorem entries_nodup (d : OrderedDict κ ν) : d.entries.Nodup := List.Nodup.of_map _ d.nodup

theorem ext {d e : OrderedDict κ ν} (h : d.entries = e.entries) : d = e := by
  cases d; cases e; cases h; rfl

/-- A key has one value. -/
theorem entry_unique (d : OrderedDict κ ν) {k : κ} {v v' : ν}
    (h : (k, v) ∈ d.entries) (h' : (k, v') ∈ d.entries) : v = v' := by
  have := List.inj_on_of_nodup_map d.nodup h h' rfl
  exact congrArg Prod.snd this

variable [DecidableEq κ]

/-- The value bound to `k`. -/
def get? (d : OrderedDict κ ν) (k : κ) : Option ν :=
  (d.entries.find? (fun e => e.1 = k)).map Prod.snd

theorem get?_eq_some_iff {d : OrderedDict κ ν} {k : κ} {v : ν} :
    d.get? k = some v ↔ (k, v) ∈ d.entries := by
  unfold get?
  refine ⟨?_, ?_⟩
  · intro h
    obtain ⟨e, he, rfl⟩ := Option.map_eq_some_iff.mp h
    have hk : e.1 = k := by simpa using List.find?_some he
    subst hk
    exact List.mem_of_find?_eq_some he
  · intro h
    have hs : (d.entries.find? (fun e => e.1 = k)).isSome := by
      rw [List.find?_isSome]; exact ⟨_, h, by simp⟩
    obtain ⟨e, he⟩ := Option.isSome_iff_exists.mp hs
    have hk : e.1 = k := by simpa using List.find?_some he
    have hm := List.mem_of_find?_eq_some he
    have hv : e.2 = v := d.entry_unique (k := k) (by rw [← hk]; exact hm) h
    rw [he, ← hv]; rfl

theorem mem_keys_iff {d : OrderedDict κ ν} {k : κ} :
    k ∈ d.keys ↔ ∃ v, d.get? k = some v := by
  refine ⟨?_, ?_⟩
  · intro h
    obtain ⟨e, he, rfl⟩ := List.mem_map.mp h
    exact ⟨e.2, get?_eq_some_iff.mpr he⟩
  · intro hx
    obtain ⟨v, hv⟩ := hx
    exact List.mem_map.mpr ⟨_, get?_eq_some_iff.mp hv, rfl⟩

theorem get?_eq_none_iff {d : OrderedDict κ ν} {k : κ} :
    d.get? k = none ↔ k ∉ d.keys := by
  rw [mem_keys_iff]
  cases d.get? k with
  | none => simp
  | some v => simp

/-- The same keys are missing from dictionaries with the same keys. -/
theorem get?_eq_none_congr {μ : Type} {d : OrderedDict κ ν} {e : OrderedDict κ μ} {k : κ}
    (h : d.keys = e.keys) : d.get? k = none ↔ e.get? k = none := by
  rw [get?_eq_none_iff, get?_eq_none_iff, h]

theorem mem_values_of_get? {d : OrderedDict κ ν} {k : κ} {v : ν} (h : d.get? k = some v) :
    v ∈ d.values := List.mem_map.mpr ⟨_, get?_eq_some_iff.mp h, rfl⟩

@[simp] theorem get?_empty (k : κ) : (empty : OrderedDict κ ν).get? k = none := rfl

/-! ## Assignment -/

theorem map_assign_keys (l : List (κ × ν)) (k : κ) (v : ν) :
    (l.map (fun e => if e.1 = k then (k, v) else e)).map Prod.fst = l.map Prod.fst := by
  rw [List.map_map]
  refine List.map_congr_left ?_
  intro e _
  by_cases he : e.1 = k
  · simp [he]
  · simp [he]

/-- `d[k] = v` -/
def insert (d : OrderedDict κ ν) (k : κ) (v : ν) : OrderedDict κ ν :=
  if h : k ∈ d.keys then
    ⟨d.entries.map (fun e => if e.1 = k then (k, v) else e), by
      rw [map_assign_keys]; exact d.nodup⟩
  else
    ⟨d.entries ++ [(k, v)], by
      rw [List.map_append, List.map_singleton]
      exact List.nodup_append.mpr ⟨d.nodup, List.nodup_singleton _, by
        intro a ha b hb hab
        have hbk : b = k := List.mem_singleton.mp hb
        exact h (by rw [← hbk, ← hab]; exact ha)⟩⟩

theorem keys_insert_of_mem {d : OrderedDict κ ν} {k : κ} (h : k ∈ d.keys) (v : ν) :
    (d.insert k v).keys = d.keys := by
  unfold insert
  rw [dif_pos h]
  exact map_assign_keys _ _ _

theorem keys_insert_of_not_mem {d : OrderedDict κ ν} {k : κ} (h : k ∉ d.keys) (v : ν) :
    (d.insert k v).keys = d.keys ++ [k] := by
  unfold insert
  rw [dif_neg h]
  simp [keys]

@[simp] theorem mem_keys_insert {d : OrderedDict κ ν} {k k' : κ} {v : ν} :
    k' ∈ (d.insert k v).keys ↔ k' = k ∨ k' ∈ d.keys := by
  by_cases h : k ∈ d.keys
  · rw [keys_insert_of_mem h]
    refine ⟨?_, ?_⟩
    · exact Or.inr
    · intro hx
      rcases hx with rfl | h'
      · exact h
      · exact h'
  · rw [keys_insert_of_not_mem h, List.mem_append, List.mem_singleton, or_comm]

theorem mem_entries_insert {d : OrderedDict κ ν} {k : κ} {v : ν} {e : κ × ν} :
    e ∈ (d.insert k v).entries ↔ e = (k, v) ∨ (e.1 ≠ k ∧ e ∈ d.entries) := by
  unfold insert
  by_cases h : k ∈ d.keys
  · rw [dif_pos h]
    simp only [List.mem_map]
    refine ⟨?_, ?_⟩
    · intro hx
      obtain ⟨e', he', rfl⟩ := hx
      by_cases hk : e'.1 = k
      · simp [hk]
      · simp [hk, he']
    · intro hx
      rcases hx with rfl | ⟨hk, he⟩
      · obtain ⟨e', he', hk⟩ := List.mem_map.mp h
        exact ⟨e', he', by simp [hk]⟩
      · exact ⟨e, he, by simp [hk]⟩
  · rw [dif_neg h]
    simp only [List.mem_append, List.mem_singleton]
    refine ⟨?_, ?_⟩
    · intro hx
      rcases hx with he | rfl
      · refine Or.inr ⟨?_, he⟩
        intro hk
        exact h (hk ▸ List.mem_map.mpr ⟨e, he, rfl⟩)
      · exact Or.inl rfl
    · intro hx
      rcases hx with rfl | ⟨_, he⟩
      · exact Or.inr rfl
      · exact Or.inl he

theorem get?_insert (d : OrderedDict κ ν) (k k' : κ) (v : ν) :
    (d.insert k v).get? k' = if k' = k then some v else d.get? k' := by
  by_cases hk : k' = k
  · rw [if_pos hk, hk, get?_eq_some_iff, mem_entries_insert]
    exact Or.inl rfl
  · rw [if_neg hk]
    apply Option.ext
    intro u
    rw [get?_eq_some_iff, get?_eq_some_iff, mem_entries_insert]
    refine ⟨?_, ?_⟩
    · intro hx
      rcases hx with h | ⟨_, h⟩
      · exact absurd (congrArg Prod.fst h) hk
      · exact h
    · intro h
      exact Or.inr ⟨hk, h⟩

/-- `{k: v for k, v in pairs}` -/
def ofPairs (pairs : List (κ × ν)) : OrderedDict κ ν :=
  pairs.foldl (fun d e => d.insert e.1 e.2) empty

theorem entries_insert_of_not_mem {d : OrderedDict κ ν} {k : κ} (h : k ∉ d.keys) (v : ν) :
    (d.insert k v).entries = d.entries ++ [(k, v)] := by
  unfold insert
  rw [dif_neg h]

/-- Pairs with distinct keys are the entries of their dictionary. -/
theorem entries_ofPairs {pairs : List (κ × ν)} (h : (pairs.map Prod.fst).Nodup) :
    (ofPairs pairs).entries = pairs := by
  have hfold : ∀ (l : List (κ × ν)) (d : OrderedDict κ ν), (l.map Prod.fst).Nodup →
      (∀ e ∈ l, e.1 ∉ d.keys) →
      (l.foldl (fun d e => d.insert e.1 e.2) d).entries = d.entries ++ l := by
    intro l
    induction l with
    | nil => intro d _ _; simp
    | cons e l ih =>
      intro d hnd hnew
      obtain ⟨he, hnd⟩ := List.nodup_cons.mp hnd
      have hfresh := hnew e (by simp)
      rw [List.foldl_cons, ih _ hnd, entries_insert_of_not_mem hfresh]
      · simp
      · intro e' he' hmem
        rcases mem_keys_insert.mp hmem with heq | hmem
        · exact he (heq ▸ List.mem_map_of_mem he')
        · exact hnew e' (List.mem_cons_of_mem _ he') hmem
  have hall := hfold pairs empty h (fun e _ => by simp)
  unfold ofPairs
  simpa using hall

theorem get?_ofPairs {pairs : List (κ × ν)} (h : (pairs.map Prod.fst).Nodup) {k : κ} {v : ν} :
    (ofPairs pairs).get? k = some v ↔ (k, v) ∈ pairs := by
  rw [get?_eq_some_iff, entries_ofPairs h]

theorem length_keys_ofPairs_le (pairs : List (κ × ν)) : (ofPairs pairs).keys.length ≤ pairs.length := by
  have hfold : ∀ (l : List (κ × ν)) (d : OrderedDict κ ν),
      (l.foldl (fun d e => d.insert e.1 e.2) d).keys.length ≤ d.keys.length + l.length := by
    intro l
    induction l with
    | nil => intro d; exact Nat.le_refl _
    | cons e l ih =>
      intro d
      have hrest := ih (d.insert e.1 e.2)
      rw [List.foldl_cons, List.length_cons]
      by_cases he : e.1 ∈ d.keys
      · rw [keys_insert_of_mem he] at hrest
        omega
      · rw [keys_insert_of_not_mem he, List.length_append, List.length_singleton] at hrest
        omega
  have hall := hfold pairs empty
  rw [keys_empty, List.length_nil, Nat.zero_add] at hall
  exact hall

/-- Entering what passes a test, one after another. -/
theorem foldl_ite_insert {α : Type} (q : α → Prop) [DecidablePred q] (key : α → κ) (value : α → ν)
    (xs : List α) :
    xs.foldl (fun d x => if q x then d.insert (key x) (value x) else d) empty
      = ofPairs ((xs.filter (fun x => decide (q x))).map (fun x => (key x, value x))) := by
  unfold ofPairs
  rw [List.foldl_map, List.foldl_filter]
  simp only [decide_eq_true_eq]

/-! ## Deletion -/

/-- `d.pop(k, None)` -/
def erase (d : OrderedDict κ ν) (k : κ) : OrderedDict κ ν :=
  ⟨d.entries.filter (fun e => e.1 ≠ k), (d.nodup).sublist (List.filter_sublist.map _)⟩

theorem mem_entries_erase {d : OrderedDict κ ν} {k : κ} {e : κ × ν} :
    e ∈ (d.erase k).entries ↔ e.1 ≠ k ∧ e ∈ d.entries := by
  simp [erase, and_comm]

@[simp] theorem mem_keys_erase {d : OrderedDict κ ν} {k k' : κ} :
    k' ∈ (d.erase k).keys ↔ k' ≠ k ∧ k' ∈ d.keys := by
  unfold keys
  simp only [List.mem_map, mem_entries_erase]
  refine ⟨?_, ?_⟩
  · intro h
    obtain ⟨e, ⟨h1, h2⟩, rfl⟩ := h
    exact ⟨h1, e, h2, rfl⟩
  · intro h
    obtain ⟨h1, e, h2, rfl⟩ := h
    exact ⟨e, ⟨h1, h2⟩, rfl⟩

theorem get?_erase (d : OrderedDict κ ν) (k k' : κ) :
    (d.erase k).get? k' = if k' = k then none else d.get? k' := by
  by_cases hk : k' = k
  · rw [if_pos hk, get?_eq_none_iff, mem_keys_erase]
    exact fun h => h.1 hk
  · rw [if_neg hk]
    apply Option.ext
    intro u
    rw [get?_eq_some_iff, get?_eq_some_iff, mem_entries_erase]
    exact ⟨fun h => h.2, fun h => ⟨hk, h⟩⟩

/-! ## What is bound, up to order -/

/-- Binding a key is forgetting it and putting the binding in front. -/
theorem entries_insert_perm (d : OrderedDict κ ν) (k : κ) (v : ν) :
    (d.insert k v).entries.Perm ((k, v) :: (d.erase k).entries) := by
  have hnew : (k, v) ∉ (d.erase k).entries := fun h => (mem_entries_erase.mp h).1 rfl
  refine (List.perm_ext_iff_of_nodup (entries_nodup _)
    (List.nodup_cons.mpr ⟨hnew, entries_nodup _⟩)).mpr (fun e => ?_)
  rw [mem_entries_insert, List.mem_cons, mem_entries_erase]

theorem entries_perm_erase {d : OrderedDict κ ν} {k : κ} {v : ν} (h : d.get? k = some v) :
    d.entries.Perm ((k, v) :: (d.erase k).entries) := by
  refine (List.perm_ext_iff_of_nodup (entries_nodup _) (List.nodup_cons.mpr
    ⟨fun h => (mem_entries_erase.mp h).1 rfl, entries_nodup _⟩)).mpr (fun e => ?_)
  rw [List.mem_cons, mem_entries_erase]
  refine ⟨?_, ?_⟩
  · intro he
    by_cases hk : e.1 = k
    · subst hk
      exact Or.inl (Prod.ext rfl (d.entry_unique he (get?_eq_some_iff.mp h)))
    · exact Or.inr ⟨hk, he⟩
  · intro he
    rcases he with rfl | ⟨_, he⟩
    · exact get?_eq_some_iff.mp h
    · exact he

theorem erase_eq_self {d : OrderedDict κ ν} {k : κ} (h : d.get? k = none) : d.erase k = d := by
  refine ext (List.filter_eq_self.mpr (fun e he => ?_))
  refine decide_eq_true (fun hk => get?_eq_none_iff.mp h ?_)
  exact hk ▸ List.mem_map.mpr ⟨e, he, rfl⟩

/-- How many bound values there are of a kind, after a key was bound. -/
theorem countP_values_insert (d : OrderedDict κ ν) (k : κ) (v : ν) (p : ν → Bool) :
    (d.insert k v).values.countP p
      = (d.erase k).values.countP p + if p v = true then 1 else 0 := by
  unfold values
  rw [((entries_insert_perm d k v).map Prod.snd).countP_eq, List.map_cons, List.countP_cons]

/-- How many bound values there are of a kind, before a key was forgotten. -/
theorem countP_values_of_get? {d : OrderedDict κ ν} {k : κ} {v : ν} (h : d.get? k = some v)
    (p : ν → Bool) :
    d.values.countP p = (d.erase k).values.countP p + if p v = true then 1 else 0 := by
  unfold values
  rw [((entries_perm_erase h).map Prod.snd).countP_eq, List.map_cons, List.countP_cons]

/-! ## Keys and values make the dictionary -/

theorem entries_eq_map_keys (d : OrderedDict κ ν) :
    d.entries.map (fun e => (e.1, some e.2)) = d.keys.map (fun k => (k, d.get? k)) := by
  unfold keys
  rw [List.map_map]
  refine List.map_congr_left ?_
  intro e he
  exact Prod.ext rfl (get?_eq_some_iff.mpr he).symm

/-- Dictionaries with the same keys, in order, and the same values. -/
theorem ext_get? {d e : OrderedDict κ ν} (hkeys : d.keys = e.keys)
    (hget : ∀ k ∈ d.keys, d.get? k = e.get? k) : d = e := by
  refine ext ?_
  have hmaps : d.entries.map (fun e => (e.1, some e.2))
      = e.entries.map (fun e => (e.1, some e.2)) := by
    rw [entries_eq_map_keys, entries_eq_map_keys, ← hkeys]
    exact List.map_congr_left (fun k hk => by rw [hget k hk])
  refine List.map_injective_iff.mpr ?_ hmaps
  intro x y hxy
  obtain ⟨hfst, hsnd⟩ := Prod.mk.inj hxy
  exact Prod.ext hfst (Option.some.inj hsnd)

/-- A dictionary is made from its own entries. -/
theorem ofPairs_entries (d : OrderedDict κ ν) : ofPairs d.entries = d :=
  ext (entries_ofPairs d.nodup)

/-- Assigning the value that is there changes nothing. -/
theorem insert_eq_self {d : OrderedDict κ ν} {k : κ} {v : ν} (h : d.get? k = some v) :
    d.insert k v = d := by
  refine ext_get? (keys_insert_of_mem (mem_keys_iff.mpr ⟨v, h⟩) v) ?_
  intro k' _
  rw [get?_insert]
  by_cases hk : k' = k
  · rw [if_pos hk, hk, h]
  · rw [if_neg hk]

/-- Assigning to keys that are there, one after another. -/
theorem foldl_insert_of_mem :
    ∀ {pairs : List (κ × ν)} {d : OrderedDict κ ν}, (pairs.map Prod.fst).Nodup →
      (∀ e ∈ pairs, e.1 ∈ d.keys) →
      (pairs.foldl (fun d e => d.insert e.1 e.2) d).keys = d.keys
        ∧ (∀ k ∉ pairs.map Prod.fst,
            (pairs.foldl (fun d e => d.insert e.1 e.2) d).get? k = d.get? k)
        ∧ ∀ e ∈ pairs, (pairs.foldl (fun d e => d.insert e.1 e.2) d).get? e.1 = some e.2
  | [], d, _, _ => ⟨rfl, fun _ _ => rfl, fun e he => absurd he List.not_mem_nil⟩
  | e :: pairs, d, hnodup, hmem => by
      obtain ⟨hnew, hnodup⟩ := List.nodup_cons.mp hnodup
      have hkeysOne : (d.insert e.1 e.2).keys = d.keys :=
        keys_insert_of_mem (hmem e (by simp)) e.2
      obtain ⟨hkeys, hother, hpairs⟩ := foldl_insert_of_mem (d := d.insert e.1 e.2) hnodup
        (fun e' he' => by rw [hkeysOne]; exact hmem e' (List.mem_cons_of_mem _ he'))
      rw [List.foldl_cons]
      refine ⟨hkeys.trans hkeysOne, ?_, ?_⟩
      · intro k hk
        rw [List.map_cons, List.mem_cons, not_or] at hk
        rw [hother k hk.2, get?_insert, if_neg hk.1]
      · intro e' he'
        rcases List.mem_cons.mp he' with rfl | he'
        · rw [hother _ hnew, get?_insert, if_pos rfl]
        · exact hpairs e' he'

omit [DecidableEq κ] in
theorem keys_map_entries {μ : Type} (d : OrderedDict κ ν) (f : κ → ν → μ) :
    (d.entries.map (fun e => (e.1, f e.1 e.2))).map Prod.fst = d.keys := by
  rw [List.map_map]
  rfl

/-- `{k: f(k, v) for k, v in d.items()}` -/
def mapValues {μ : Type} (f : κ → ν → μ) (d : OrderedDict κ ν) : OrderedDict κ μ where
  entries := d.entries.map (fun e => (e.1, f e.1 e.2))
  nodup := by rw [keys_map_entries]; exact d.keys_nodup

omit [DecidableEq κ] in
@[simp] theorem keys_mapValues {μ : Type} (f : κ → ν → μ) (d : OrderedDict κ ν) :
    (d.mapValues f).keys = d.keys := keys_map_entries d f

theorem get?_mapValues {μ : Type} (f : κ → ν → μ) (d : OrderedDict κ ν) (k : κ) :
    (d.mapValues f).get? k = (d.get? k).map (f k) := by
  cases hget : d.get? k with
  | none =>
    show (d.mapValues f).get? k = none
    rw [get?_eq_none_iff, keys_mapValues]
    exact get?_eq_none_iff.mp hget
  | some v =>
    show (d.mapValues f).get? k = some (f k v)
    rw [get?_eq_some_iff]
    exact List.mem_map.mpr ⟨(k, v), get?_eq_some_iff.mp hget, rfl⟩

/-- Assigning new values to all keys, whatever was there. -/
theorem foldl_insert_mapValues {μ : Type} (f : κ → ν → μ) (d : OrderedDict κ ν)
    {blank : OrderedDict κ μ} (h : blank.keys = d.keys) :
    (d.entries.map (fun e => (e.1, f e.1 e.2))).foldl (fun b e => b.insert e.1 e.2) blank
      = d.mapValues f := by
  have hmem : ∀ e ∈ d.entries.map (fun e => (e.1, f e.1 e.2)), e.1 ∈ blank.keys := by
    intro e he
    rw [h, ← keys_map_entries d f]
    exact List.mem_map_of_mem he
  obtain ⟨hkeys, _, hget⟩ := foldl_insert_of_mem (d.mapValues f).nodup hmem
  refine ext_get? (by rw [keys_mapValues]; exact hkeys.trans h) ?_
  intro k hk
  obtain ⟨v, hv⟩ := mem_keys_iff.mp (h ▸ hkeys ▸ hk)
  rw [get?_mapValues, hv]
  exact hget (k, f k v) (List.mem_map.mpr ⟨(k, v), get?_eq_some_iff.mp hv, rfl⟩)

/-- A change that leaves the values as they are. -/
theorem mapValues_eq_self {f : κ → ν → ν} {d : OrderedDict κ ν}
    (h : ∀ {k v}, d.get? k = some v → f k v = v) : d.mapValues f = d := by
  refine ext_get? (keys_mapValues f d) ?_
  intro k _
  rw [get?_mapValues]
  cases hget : d.get? k with
  | none => rfl
  | some v => exact congrArg some (h hget)

/-! ## Replacing every value -/

/-- `for k, v in d.items(): d[k] = f(k, v)`, where `f` may raise. -/
def updateM {ε : Type} (f : κ → ν → Except ε ν) (d : OrderedDict κ ν) :
    Except ε (OrderedDict κ ν) :=
  d.entries.foldlM (fun out e => (f e.1 e.2).map (out.insert e.1)) d

/-- What a loop over some of the entries leaves in the dictionary. -/
theorem updateEntries_ok {ε : Type} {f : κ → ν → Except ε ν} :
    ∀ {entries : List (κ × ν)} {out out' : OrderedDict κ ν}, (entries.map Prod.fst).Nodup →
      (∀ e ∈ entries, e.1 ∈ out.keys) →
      entries.foldlM (fun out e => (f e.1 e.2).map (out.insert e.1)) out = .ok out' →
      out'.keys = out.keys ∧ (∀ k ∉ entries.map Prod.fst, out'.get? k = out.get? k)
        ∧ ∀ e ∈ entries, ∃ u, f e.1 e.2 = .ok u ∧ out'.get? e.1 = some u
  | [], out, out', _, _, h => by
      cases h
      exact ⟨rfl, fun _ _ => rfl, fun e he => absurd he List.not_mem_nil⟩
  | e :: entries, out, out', hnodup, hkeys, h => by
      obtain ⟨hnew, hnodup⟩ := List.nodup_cons.mp hnodup
      rw [List.foldlM_cons] at h
      cases hf : f e.1 e.2 with
      | error err =>
        rw [hf] at h
        cases h
      | ok u =>
        rw [hf] at h
        have hkeysOut : (out.insert e.1 u).keys = out.keys :=
          keys_insert_of_mem (hkeys e (by simp)) u
        obtain ⟨hkeys', hother, hentries⟩ := updateEntries_ok hnodup
          (fun e' he' => by rw [hkeysOut]; exact hkeys e' (List.mem_cons_of_mem _ he')) h
        refine ⟨hkeys'.trans hkeysOut, ?_, ?_⟩
        · intro k hk
          rw [List.map_cons, List.mem_cons, not_or] at hk
          rw [hother k hk.2, get?_insert, if_neg hk.1]
        · intro e' he'
          rcases List.mem_cons.mp he' with rfl | he'
          · exact ⟨u, hf, by rw [hother _ hnew, get?_insert, if_pos rfl]⟩
          · exact hentries e' he'

/-- What the loop leaves: the same keys, each with its new value. -/
theorem updateM_ok {ε : Type} {f : κ → ν → Except ε ν} {d d' : OrderedDict κ ν}
    (h : d.updateM f = .ok d') : d'.keys = d.keys
      ∧ ∀ {k v}, d.get? k = some v → ∃ u, f k v = .ok u ∧ d'.get? k = some u := by
  obtain ⟨hkeys, _, hentries⟩ := updateEntries_ok d.nodup (fun e he => List.mem_map_of_mem he) h
  exact ⟨hkeys, fun hget => hentries _ (get?_eq_some_iff.mp hget)⟩

/-- The loop goes through when no new value raises. -/
theorem updateM_ok_of_forall {ε : Type} {f : κ → ν → Except ε ν} {d : OrderedDict κ ν}
    (h : ∀ {k v}, d.get? k = some v → ∃ u, f k v = .ok u) : ∃ d', d.updateM f = .ok d' := by
  have hfold : ∀ (entries : List (κ × ν)) (out : OrderedDict κ ν),
      (∀ e ∈ entries, ∃ u, f e.1 e.2 = .ok u) →
      ∃ d', entries.foldlM (fun out e => (f e.1 e.2).map (out.insert e.1)) out = .ok d' := by
    intro entries
    induction entries with
    | nil => exact fun out _ => ⟨out, rfl⟩
    | cons e entries ih =>
      intro out hentries
      obtain ⟨u, hu⟩ := hentries e (by simp)
      rw [List.foldlM_cons, hu]
      exact ih _ (fun e' he' => hentries e' (List.mem_cons_of_mem _ he'))
  exact hfold _ d (fun e he => h (get?_eq_some_iff.mpr he))

end OrderedDict
