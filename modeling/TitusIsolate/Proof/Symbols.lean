import Mathlib.Data.Finset.Sort
import Mathlib.Data.String.Basic
import TitusIsolate.Lib.PrefixCode
import TitusIsolate.Model.Visualize

/-!
# Symbols for sets of workloads

A set of workloads is known by the text of its sorted list, and gets a symbol by the place
at which that text was first met. The texts tell the sets apart, because the `repr` of a
string can be read off from the left; the symbols tell the places apart, because a symbol
has one letter in as many copies as the alphabet was gone through.
-/

namespace TitusIsolate

open PrefixCode

/-! ## Symbols by number -/

/-- The letter of a number below 26. -/
def letter (k : Nat) : Char := Char.ofNat ('a'.toNat + k)

theorem letter_inj {k k' : Nat} (hk : k < 26) (hk' : k' < 26) (h : letter k = letter k') :
    k = k' := by
  have htoNat : ∀ k < 26, (letter k).toNat = 97 + k := by decide
  have hsame := congrArg Char.toNat h
  rw [htoNat k hk, htoNat k' hk'] at hsame
  omega

/-- Each round adds the letter once more, and takes 26 away. -/
theorem getStrReprLoop_toList :
    ∀ (fuel ind : Nat) (res : String), ind / 26 < fuel →
      (getStrReprLoop fuel ind res).toList
        = res.toList ++ List.replicate (ind / 26 + 1) (letter (ind % 26))
  | 0, ind, res, h => absurd h (Nat.not_lt_zero _)
  | fuel + 1, ind, res, h => by
      have hpos : (ind : Int) ≥ 0 := Int.natCast_nonneg ind
      have hmod : ((ind : Int) % 26).toNat = ind % 26 := by omega
      rw [getStrReprLoop, if_pos hpos, hmod]
      have hletter : Char.ofNat ('a'.toNat + ind % 26) = letter (ind % 26) := rfl
      rw [hletter]
      by_cases hlt : ind < 26
      · -- the last round leaves a negative number
        have hneg : ¬ ((ind : Int) - 26 ≥ 0) := by omega
        have hzero : ind / 26 = 0 := by omega
        have hstop : getStrReprLoop fuel ((ind : Int) - 26) (res.push (letter (ind % 26)))
            = res.push (letter (ind % 26)) := by
          cases fuel with
          | zero => rfl
          | succ fuel => rw [getStrReprLoop, if_neg hneg]
        rw [hstop, String.toList_push, hzero]
        rfl
      · have hsub : (ind : Int) - 26 = ((ind - 26 : Nat) : Int) := by omega
        have hdiv : ind / 26 = (ind - 26) / 26 + 1 := by omega
        have hsame : (ind - 26) % 26 = ind % 26 := by omega
        rw [hsub, getStrReprLoop_toList fuel (ind - 26) _ (by omega), hsame, String.toList_push,
          hdiv, List.append_assoc]
        rfl

/-- **The symbol of a number**: one letter, in copies. -/
theorem getStrRepr_toList (ind : Nat) :
    (getStrRepr ind).toList = List.replicate (ind / 26 + 1) (letter (ind % 26)) := by
  unfold getStrRepr
  rw [getStrReprLoop_toList (ind + 1) ind "" (by omega)]
  rfl

theorem getStrRepr_injective {i j : Nat} (h : getStrRepr i = getStrRepr j) : i = j := by
  have hlist := congrArg String.toList h
  rw [getStrRepr_toList, getStrRepr_toList] at hlist
  obtain ⟨hcopies, hletter⟩ := List.replicate_inj.mp hlist
  have hmod := letter_inj (Nat.mod_lt i (by omega)) (Nat.mod_lt j (by omega))
    (hletter.resolve_left (by omega))
  omega

/-! ## Texts of lists of strings -/

/-- The value of a hexadecimal digit. -/
def hexVal (c : Char) : Nat := ((List.range 16).find? (fun k => Nat.digitChar k = c)).getD 0

theorem hexVal_digitChar {k : Nat} (h : k < 16) : hexVal (Nat.digitChar k) = k := by
  revert k
  decide

/-- The character that a backslash and another one stand for. -/
def unescape (c : Char) : Char :=
  if c = 'n' then '\n' else if c = 'r' then '\r' else if c = 't' then '\t' else c

/-- Reads one character out of the inside of a `repr`. -/
def readReprChar : List Char → Option (Char × List Char)
  | [] => none
  | '\\' :: 'x' :: a :: b :: rest => some (Char.ofNat (16 * hexVal a + hexVal b), rest)
  | '\\' :: c :: rest => some (unescape c, rest)
  | c :: rest => some (c, rest)

theorem readReprChar_escape {c : Char} (hc : c ≠ 'x') (rest : List Char) :
    readReprChar ('\\' :: c :: rest) = some (unescape c, rest) := by
  unfold readReprChar
  split
  · rename_i heq
    exact absurd heq (by simp)
  · rename_i heq
    simp only [List.cons.injEq] at heq
    exact absurd heq.2.1 hc
  · rename_i heq
    simp only [List.cons.injEq, true_and] at heq
    rw [heq.1, heq.2]
  · rename_i hne heq
    simp only [List.cons.injEq] at heq
    exact (hne c rest heq.1.symm heq.2.symm).elim

theorem readReprChar_plain {c : Char} (hc : c ≠ '\\') (rest : List Char) :
    readReprChar (c :: rest) = some (c, rest) := by
  unfold readReprChar
  split <;> simp_all

/-- A character is read back from its `repr`. -/
theorem readReprChar_reprChar {q : Char} (hq : q = '\'' ∨ q = '"') (c : Char) (rest : List Char) :
    readReprChar ((reprChar q c).toList ++ rest) = some (c, rest) := by
  unfold reprChar
  split_ifs with hslash hquote hn hr ht hctl
  · subst hslash
    exact readReprChar_escape (by decide) rest
  · subst hquote
    rcases hq with rfl | rfl
    · exact readReprChar_escape (by decide) rest
    · exact readReprChar_escape (by decide) rest
  · subst hn
    exact readReprChar_escape (by decide) rest
  · subst hr
    exact readReprChar_escape (by decide) rest
  · subst ht
    exact readReprChar_escape (by decide) rest
  · -- two digits below 16 make up the number
    have hlt : c.toNat / 16 < 16 := by omega
    have hsum : 16 * (c.toNat / 16) + c.toNat % 16 = c.toNat := by omega
    rw [String.toList_ofList]
    show some (Char.ofNat (16 * hexVal _ + hexVal _), rest) = _
    rw [hexVal_digitChar hlt, hexVal_digitChar (Nat.mod_lt _ (by omega)), hsum, Char.ofNat_toNat]
  · rw [String.toList_singleton]
    exact readReprChar_plain hslash rest

/-- The text of a character does not begin with the quote. -/
theorem begins_reprChar {q : Char} (hq : q = '\'' ∨ q = '"') :
    Begins (fun c => (reprChar q c).toList) q := by
  have hslash : '\\' ≠ q := by
    rcases hq with rfl | rfl
    · decide
    · decide
  intro c
  show ∃ x xs, (reprChar q c).toList = x :: xs ∧ x ≠ q
  unfold reprChar
  split_ifs with _ hquote
  · exact ⟨'\\', ['\\'], rfl, hslash⟩
  · refine ⟨'\\', [q], ?_, hslash⟩
    rw [String.toList_append, String.toList_singleton]
    rfl
  · exact ⟨'\\', ['n'], rfl, hslash⟩
  · exact ⟨'\\', ['r'], rfl, hslash⟩
  · exact ⟨'\\', ['t'], rfl, hslash⟩
  · exact ⟨'\\', _, String.toList_ofList, hslash⟩
  · exact ⟨c, [], String.toList_singleton c, hquote⟩

/-- The text of a string is its characters' texts after a quote and before it. -/
theorem reprStr_toList (s : String) :
    ∃ q : Char, (q = '\'' ∨ q = '"')
      ∧ (reprStr s).toList = q :: message (fun c => (reprChar q c).toList) q s.toList := by
  refine ⟨if '\'' ∈ s.toList ∧ '"' ∉ s.toList then '"' else '\'', ?_, ?_⟩
  · split_ifs
    · exact Or.inr rfl
    · exact Or.inl rfl
  · simp only [reprStr, String.toList_append, String.toList_singleton, String.toList_join,
      List.flatMap_map, List.cons_append]
    rfl

theorem prefixCode_reprStr : PrefixCode (fun s => (reprStr s).toList) := by
  intro s s' u v heq
  obtain ⟨q, hq, hs⟩ := reprStr_toList s
  obtain ⟨q', hq', hs'⟩ := reprStr_toList s'
  simp only [hs, hs', List.cons_append, List.cons.injEq] at heq
  -- the first character is the quote of both
  obtain ⟨rfl, hrest⟩ := heq
  have hread := message_prefixCode (of_read (readReprChar_reprChar hq)) (begins_reprChar hq)
  obtain ⟨hlist, hend⟩ := hread _ _ u v hrest
  exact ⟨String.toList_inj.mp hlist, hend⟩

theorem strOfList_toList (xs : List String) :
    (strOfList xs).toList
      = '[' :: separated (fun s => (reprStr s).toList) [',', ' '] ']' xs := by
  rw [separated_eq]
  simp only [strOfList, String.toList_append, String.toList_intercalate, List.map_map]
  rfl

/-- **The text of a list of strings tells the list.** -/
theorem strOfList_injective {xs ys : List String} (h : strOfList xs = strOfList ys) :
    xs = ys := by
  have hlist := congrArg String.toList h
  rw [strOfList_toList, strOfList_toList] at hlist
  have hquote : Begins (fun s => (reprStr s).toList) ']' := by
    intro s
    obtain ⟨q, hq, hs⟩ := reprStr_toList s
    refine ⟨q, _, hs, ?_⟩
    rintro rfl
    exact absurd hq (by decide)
  have hcomma : ∃ x xs, [',', ' '] = x :: xs ∧ x ≠ ']' := ⟨',', [' '], rfl, by decide⟩
  exact (separated_prefixCode prefixCode_reprStr hquote hcomma).injective (List.cons.inj hlist).2

/-! ## Sets of workloads -/

/-- The text of a set of workloads. -/
def setText (s : Finset WorkloadId) : String := strOfList (s.sort (· ≤ ·))

theorem setText_injective {s s' : Finset WorkloadId} (h : setText s = setText s') : s = s' := by
  have hsort := strOfList_injective h
  have hset := congrArg List.toFinset hsort
  rwa [Finset.sort_toFinset, Finset.sort_toFinset] at hset

/-- The set of workloads on a thread. -/
def Thread.workloads (t : Thread) : Finset WorkloadId := t.workloadIds.toFinset

theorem getWorkloadsStr_eq (t : Thread) : getWorkloadsStr t = setText t.workloads := by
  unfold getWorkloadsStr setText Thread.workloads
  congr 1
  have hsorted : (t.workloadIds.insertionSort (· ≤ ·)).Pairwise (· ≤ ·) :=
    List.pairwise_insertionSort _ _
  refine List.Perm.eq_of_pairwise (fun _ _ _ _ => le_antisymm) hsorted
    (Finset.pairwise_sort _ _) ?_
  -- both have each id of the thread once
  have hnodup := (List.perm_insertionSort (· ≤ ·) t.workloadIds).nodup_iff.mpr t.nodup
  refine (List.perm_ext_iff_of_nodup hnodup (Finset.sort_nodup _ _)).mpr ?_
  intro w
  rw [List.mem_insertionSort, Finset.mem_sort, List.mem_toFinset]

/-! ## The symbol of a set -/

/-- One more set, unless it was met before. -/
def meet (sets : List (Finset WorkloadId)) (t : Thread) : List (Finset WorkloadId) :=
  if !t.isClaimed then sets
  else if t.workloads ∈ sets then sets
  else sets ++ [t.workloads]

/-- The sets of workloads on the claimed threads of the CPUs, as they are met. -/
def footprintSets (cpus : List Cpu) : List (Finset WorkloadId) :=
  (cpus.flatMap Cpu.getThreads).foldl meet []

theorem mem_map_setText {s : Finset WorkloadId} {sets : List (Finset WorkloadId)} :
    setText s ∈ sets.map setText ↔ s ∈ sets :=
  List.mem_map_of_injective (fun _ _ => setText_injective)

/-- The keys are the texts of the sets. -/
theorem footprintKeys_eq (cpus : List Cpu) :
    footprintKeys cpus = (footprintSets cpus).map setText := by
  have hfold : ∀ (ts : List Thread) (sets : List (Finset WorkloadId)),
      ts.foldl (fun keys t =>
        if !t.isClaimed then keys
        else if getWorkloadsStr t ∈ keys then keys
        else keys ++ [getWorkloadsStr t]) (sets.map setText)
          = (ts.foldl meet sets).map setText := by
    intro ts
    induction ts with
    | nil => exact fun _ => rfl
    | cons t ts ih =>
      intro sets
      rw [List.foldl_cons, List.foldl_cons, ← ih]
      congr 1
      unfold meet
      simp only [getWorkloadsStr_eq, mem_map_setText]
      split_ifs
      · rfl
      · rfl
      · rw [List.map_append, List.map_cons, List.map_nil]
  exact hfold _ []

theorem nodup_meet {sets : List (Finset WorkloadId)} (h : sets.Nodup) (t : Thread) :
    (meet sets t).Nodup := by
  unfold meet
  split_ifs with _ hmem
  · exact h
  · exact h
  · exact h.append (List.nodup_singleton _) (List.disjoint_singleton.mpr hmem)

theorem mem_meet {sets : List (Finset WorkloadId)} {t : Thread} {s : Finset WorkloadId} :
    s ∈ meet sets t ↔ s ∈ sets ∨ t.isClaimed = true ∧ t.workloads = s := by
  unfold meet
  split_ifs with hfree hmem
  · have hunclaimed : t.isClaimed ≠ true := by simpa using hfree
    simp [hunclaimed]
  · have hclaimed : t.isClaimed = true := by simpa using hfree
    rw [and_iff_right hclaimed]
    exact ⟨Or.inl, fun h => h.elim id (fun h => h ▸ hmem)⟩
  · have hclaimed : t.isClaimed = true := by simpa using hfree
    rw [and_iff_right hclaimed, List.mem_append, List.mem_singleton, eq_comm (a := s)]

theorem foldl_meet {ts : List Thread} {sets : List (Finset WorkloadId)} (h : sets.Nodup) :
    (ts.foldl meet sets).Nodup
      ∧ ∀ s, s ∈ ts.foldl meet sets
          ↔ s ∈ sets ∨ ∃ t ∈ ts, t.isClaimed = true ∧ t.workloads = s := by
  induction ts generalizing sets with
  | nil => simp [h]
  | cons t ts ih =>
    obtain ⟨hnodup, hmem⟩ := ih (nodup_meet h t)
    refine ⟨hnodup, ?_⟩
    intro s
    rw [List.foldl_cons, hmem, mem_meet, or_assoc, List.exists_mem_cons_iff]

theorem footprintSets_nodup (cpus : List Cpu) : (footprintSets cpus).Nodup :=
  (foldl_meet List.nodup_nil).1

theorem mem_footprintSets {cpus : List Cpu} {s : Finset WorkloadId} :
    s ∈ footprintSets cpus
      ↔ ∃ cpu ∈ cpus, ∃ t ∈ cpu.getThreads, t.isClaimed = true ∧ t.workloads = s := by
  unfold footprintSets
  rw [(foldl_meet List.nodup_nil).2 s]
  simp only [List.not_mem_nil, false_or, List.mem_flatMap]
  refine ⟨?_, ?_⟩
  · rintro ⟨t, ⟨cpu, hcpu, ht⟩, hs⟩
    exact ⟨cpu, hcpu, t, ht, hs⟩
  · rintro ⟨cpu, hcpu, t, ht, hs⟩
    exact ⟨t, ⟨cpu, hcpu, ht⟩, hs⟩

/-- The symbol of a set of workloads, by its place among the sets. -/
def symbol (cpus : List Cpu) (s : Finset WorkloadId) : String :=
  getStrRepr ((footprintSets cpus).idxOf s)

/-- **Distinct sets get distinct symbols.** -/
theorem symbol_injOn (cpus : List Cpu) {s s' : Finset WorkloadId} (hs : s ∈ footprintSets cpus)
    (h : symbol cpus s = symbol cpus s') : s = s' :=
  (List.idxOf_inj hs).mp (getStrRepr_injective h)

/-- **The footprints** bind the text of each set to its symbol. -/
theorem getFootprints_entries (cpus : List Cpu) :
    (getFootprints cpus).entries
      = (footprintSets cpus).map (fun s => (setText s, symbol cpus s)) := by
  have hpairs : (footprintKeys cpus).zipIdx.map (fun e => (e.1, getStrRepr e.2))
      = (footprintSets cpus).map (fun s => (setText s, symbol cpus s)) := by
    rw [footprintKeys_eq]
    refine List.ext_getElem (by simp) ?_
    intro i hi hi'
    have hlt : i < (footprintSets cpus).length := by simpa using hi'
    simp only [List.getElem_map, List.getElem_zipIdx, Nat.zero_add, symbol,
      (footprintSets_nodup cpus).idxOf_getElem i hlt]
  have hkeys : ((footprintSets cpus).map (fun s => (setText s, symbol cpus s))).map Prod.fst
      = (footprintSets cpus).map setText := by
    rw [List.map_map]
    rfl
  have hnodup : ((footprintSets cpus).map setText).Nodup :=
    (footprintSets_nodup cpus).map (fun _ _ => setText_injective)
  have hentries := OrderedDict.entries_ofPairs (hkeys ▸ hnodup)
  unfold OrderedDict.ofPairs at hentries
  rw [← hpairs, List.foldl_map] at hentries
  rw [← hpairs]
  exact hentries

theorem getFootprints_get? {cpus : List Cpu} {s : Finset WorkloadId}
    (h : s ∈ footprintSets cpus) :
    (getFootprints cpus).get? (setText s) = some (symbol cpus s) := by
  rw [OrderedDict.get?_eq_some_iff, getFootprints_entries]
  exact List.mem_map_of_mem (f := fun s => (setText s, symbol cpus s)) h

end TitusIsolate
