import Mathlib.Data.Finset.Basic
import Mathlib.Data.List.TakeWhile
import TitusIsolate.Model.Visualize

/-!
# Cpuset strings

A cpuset is written as the thread ids joined by commas and read back by splitting on
commas and then, for ranges, on dashes. `parseCpuset_getThreadIdsStr` is the round
trip for what the program itself writes, `parseCpuset_writeCpuset` for what the kernel
makes of it.
-/

namespace TitusIsolate

/-- `",".join([str(t_id) for t_id in thread_ids])` -/
def getThreadIdsStr (threadIds : List Nat) : String :=
  ",".intercalate (threadIds.map Nat.repr)

/-- The value of a run of digits, with single underscores allowed between them. -/
def parseDigits : Nat → List Char → Option Nat
  | acc, [] => some acc
  | acc, [c] => if c.isDigit then some (10 * acc + (c.toNat - '0'.toNat)) else none
  | acc, c :: d :: cs =>
      if c.isDigit then parseDigits (10 * acc + (c.toNat - '0'.toNat)) (d :: cs)
      else if c = '_' ∧ d.isDigit then parseDigits acc (d :: cs)
      else none

/-- The value of a number without a sign. -/
def parseNat : List Char → Option Nat
  | [] => none
  | c :: cs => if c.isDigit then parseDigits 0 (c :: cs) else none

/-- The blanks `strip` removes, among ASCII characters. -/
def isSpace (c : Char) : Bool := c ∈ [' ', '\t', '\n', '\r', '\x0b', '\x0c']

/-- `s.strip()` -/
def strip (s : List Char) : List Char :=
  ((s.dropWhile isSpace).reverse.dropWhile isSpace).reverse

/-- The value of a number that may have a sign. -/
def parseSigned : List Char → Option Int
  | '-' :: ds => (parseNat ds).map (fun n => -(n : Int))
  | '+' :: ds => (parseNat ds).map (fun n => (n : Int))
  | ds => (parseNat ds).map (fun n => (n : Int))

/-- `int(s)` for ASCII text. -/
def pyInt (s : List Char) : Except PyError Int :=
  match parseSigned (strip s) with
  | some i => .ok i
  | none => .error (.valueError
      ("invalid literal for int() with base 10: " ++ reprStr (String.ofList s)))

/-- `range(int(r[0]), int(r[-1]) + 1)` with `r = x.split("-")`; no part has a minus sign. -/
def parseRange (x : List Char) : Except PyError (List Nat) :=
  let r := x.splitOn '-'
  match pyInt (r.headD []) with
  | .error e => .error e
  | .ok first =>
      match pyInt (r.getLastD []) with
      | .error e => .error e
      | .ok last => .ok (List.range' first.toNat (last + 1 - first).toNat)

/-- The ids of the entries, one after another. -/
def parseRanges : List (List Char) → Except PyError (List Nat)
  | [] => .ok []
  | x :: xs =>
      match parseRange x with
      | .error e => .error e
      | .ok ids =>
          match parseRanges xs with
          | .error e => .error e
          | .ok rest => .ok (ids ++ rest)

/-- `parse_cpuset(cpuset_str)` -/
def parseCpuset (cpusetStr : String) : Except PyError (List Nat) :=
  parseRanges (cpusetStr.toList.splitOn ',')

/-! ## Numbers -/

theorem parseDigits_eq {cs : List Char} (h : ∀ c ∈ cs, c.isDigit) (acc : Nat) :
    parseDigits acc cs = some (Nat.ofDigitChars 10 cs acc) := by
  induction cs generalizing acc with
  | nil => rfl
  | cons c cs ih =>
    have hc : c.isDigit = true := h c (by simp)
    cases cs with
    | nil => rw [parseDigits, if_pos hc, Nat.ofDigitChars_cons, Nat.ofDigitChars_nil]
    | cons d cs =>
      have htail := ih (fun x hx => h x (List.mem_cons_of_mem _ hx))
        (10 * acc + (c.toNat - '0'.toNat))
      rw [parseDigits, if_pos hc, htail, ← Nat.ofDigitChars_cons]

theorem isDigit_of_mem_repr {n : Nat} {c : Char} (h : c ∈ n.repr.toList) : c.isDigit = true := by
  rw [Nat.toList_repr] at h
  exact Nat.isDigit_of_mem_toDigits (by decide) (by decide) h

theorem repr_toList_ne_nil (n : Nat) : n.repr.toList ≠ [] := by
  rw [Nat.toList_repr]; exact Nat.toDigits_ne_nil

theorem isSpace_of_isDigit {c : Char} (h : c.isDigit = true) : isSpace c = false := by
  unfold isSpace
  rw [decide_eq_false_iff_not]
  intro hmem
  simp only [List.mem_cons, List.not_mem_nil, or_false] at hmem
  -- no white space is a digit
  rcases hmem with rfl | rfl | rfl | rfl | rfl | rfl <;> exact absurd h (by decide)

theorem dropWhile_isSpace {cs : List Char} (h : ∀ c ∈ cs, isSpace c = false) :
    cs.dropWhile isSpace = cs := by
  cases cs with
  | nil => rfl
  | cons c cs =>
    rw [List.dropWhile_cons_of_neg]
    rw [h c (by simp)]
    exact Bool.false_ne_true

theorem strip_of_no_space {cs : List Char} (h : ∀ c ∈ cs, isSpace c = false) : strip cs = cs := by
  unfold strip
  rw [dropWhile_isSpace h, dropWhile_isSpace, List.reverse_reverse]
  intro c hc
  exact h c (List.mem_reverse.mp hc)

/-- Only blanks are stripped. -/
theorem mem_strip {cs : List Char} {c : Char} (hc : c ∈ cs) (h : isSpace c = false) :
    c ∈ strip cs := by
  have hkeep : ∀ ds : List Char, c ∈ ds → c ∈ ds.dropWhile isSpace := by
    intro ds hmem
    rw [← List.takeWhile_append_dropWhile (p := isSpace) (l := ds), List.mem_append] at hmem
    rcases hmem with hmem | hmem
    · rw [List.mem_takeWhile_imp hmem] at h
      cases h
    · exact hmem
  unfold strip
  rw [List.mem_reverse]
  exact hkeep _ (List.mem_reverse.mpr (hkeep _ hc))

theorem parseSigned_of_isDigit {ds : List Char} (h : ∀ c ∈ ds, c.isDigit = true) :
    parseSigned ds = (parseNat ds).map (fun n => (n : Int)) := by
  unfold parseSigned
  split
  · exact absurd (h '-' (by simp)) (by decide)
  · exact absurd (h '+' (by simp)) (by decide)
  · rfl

theorem parseNat_repr (n : Nat) : parseNat n.repr.toList = some n := by
  have hne := repr_toList_ne_nil n
  cases hcs : n.repr.toList with
  | nil => exact absurd hcs hne
  | cons c cs =>
    have hd : ∀ x ∈ c :: cs, x.isDigit = true := by
      intro x hx
      rw [← hcs] at hx
      exact isDigit_of_mem_repr hx
    rw [parseNat, if_pos (hd c (by simp)), parseDigits_eq hd, ← hcs, Nat.toList_repr,
      Nat.ofDigitChars_ten_toDigits]

/-- `int(str(n))` -/
theorem pyInt_repr (n : Nat) : pyInt n.repr.toList = .ok (n : Int) := by
  have hd : ∀ c ∈ n.repr.toList, c.isDigit = true := fun c => isDigit_of_mem_repr
  unfold pyInt
  rw [strip_of_no_space (fun c hc => isSpace_of_isDigit (hd c hc)), parseSigned_of_isDigit hd,
    parseNat_repr]
  rfl

/-- `int(str(-n))` -/
theorem pyInt_neg_repr (n : Nat) : pyInt ('-' :: n.repr.toList) = .ok (-(n : Int)) := by
  have hspace : ∀ c ∈ '-' :: n.repr.toList, isSpace c = false := by
    intro c hc
    rcases List.mem_cons.mp hc with rfl | hc
    · decide
    · exact isSpace_of_isDigit (isDigit_of_mem_repr hc)
  unfold pyInt
  rw [strip_of_no_space hspace, parseSigned, parseNat_repr]
  rfl

/-- A numeral has digits in it, and underscores. -/
theorem mem_of_parseDigits {cs : List Char} {acc n : Nat} (h : parseDigits acc cs = some n) :
    ∀ c ∈ cs, c.isDigit = true ∨ c = '_' := by
  induction cs generalizing acc with
  | nil => exact fun c hc => absurd hc List.not_mem_nil
  | cons d cs ih =>
    cases cs with
    | nil =>
      intro c hc
      rw [List.mem_singleton.mp hc]
      unfold parseDigits at h
      split at h
      · rename_i hd
        exact Or.inl hd
      · cases h
    | cons e cs =>
      intro c hc
      rw [parseDigits] at h
      split at h
      · rename_i hd
        rcases List.mem_cons.mp hc with rfl | hc
        · exact Or.inl hd
        · exact ih h c hc
      · split at h
        · rename_i hd
          rcases List.mem_cons.mp hc with rfl | hc
          · exact Or.inr hd.1
          · exact ih h c hc
        · cases h

theorem mem_of_parseNat {cs : List Char} {n : Nat} (h : parseNat cs = some n) :
    ∀ c ∈ cs, c.isDigit = true ∨ c = '_' := by
  cases cs with
  | nil => cases h
  | cons d cs =>
    by_cases hd : d.isDigit = true
    · rw [parseNat, if_pos hd] at h
      exact mem_of_parseDigits h
    · rw [parseNat, if_neg hd] at h
      cases h

/-- A text with another character in it is no integer. -/
theorem pyInt_error_of_mem {cs : List Char} {c : Char} (hc : c ∈ cs) (hspace : isSpace c = false)
    (hdigit : c.isDigit = false) (hother : c ∉ ['_', '-', '+']) : ∃ e, pyInt cs = .error e := by
  have hstrip := mem_strip hc hspace
  have hnat : ∀ {ds : List Char}, c ∈ ds → parseNat ds = none := by
    intro ds hmem
    cases hparse : parseNat ds with
    | none => rfl
    | some n =>
      rcases mem_of_parseNat hparse c hmem with h | h
      · rw [h] at hdigit
        cases hdigit
      · exact absurd h (fun he => hother (by simp [he]))
  -- the character is not the sign, so it comes after it
  have hafter : ∀ {s : Char} {ds : List Char}, s ∈ ['_', '-', '+'] → strip cs = s :: ds →
      parseNat ds = none := by
    intro s ds hs heq
    rw [heq] at hstrip
    rcases List.mem_cons.mp hstrip with rfl | h
    · exact absurd hs hother
    · exact hnat h
  have hsigned : parseSigned (strip cs) = none := by
    unfold parseSigned
    split
    · rename_i ds heq
      rw [hafter (by simp) heq]
      rfl
    · rename_i ds heq
      rw [hafter (by simp) heq]
      rfl
    · rw [hnat hstrip]
      rfl
  unfold pyInt
  rw [hsigned]
  exact ⟨_, rfl⟩

theorem not_mem_repr_of_not_isDigit {c : Char} (hc : c.isDigit = false) (n : Nat) :
    c ∉ n.repr.toList := by
  intro h
  rw [isDigit_of_mem_repr h] at hc
  exact absurd hc (by simp)

theorem parseRange_repr (n : Nat) : parseRange n.repr.toList = .ok [n] := by
  -- a number has no dash, so the range is the number alone
  have hsplit : n.repr.toList.splitOn '-' = [n.repr.toList] := by
    have hnot : '-' ∉ n.repr.toList := not_mem_repr_of_not_isDigit (by decide) n
    have hjoin : (List.intercalate ['-'] [n.repr.toList]).splitOn '-' = [n.repr.toList] :=
      List.splitOn_intercalate '-' (by simpa using hnot) (by simp)
    simpa using hjoin
  unfold parseRange
  simp only [hsplit, List.headD_cons, List.getLastD_cons, List.getLastD_nil, pyInt_repr]
  simp

/-! ## The round trip -/

/-- One entry of a cpuset as the kernel may write it. -/
inductive CpusetEntry where
  | single (id : Nat)
  | range (first last : Nat) (le : first ≤ last)

namespace CpusetEntry

/-- The entry as it is written: `7`, or `4-6`. -/
def text : CpusetEntry → String
  | single id => id.repr
  | range first last _ => first.repr ++ "-" ++ last.repr

/-- The ids an entry stands for, in order. -/
def ids : CpusetEntry → List Nat
  | single id => [id]
  | range first last _ => List.range' first (last + 1 - first)

end CpusetEntry

/-- The text of a cpuset written with these entries. -/
def writeCpuset (entries : List CpusetEntry) : String :=
  ",".intercalate (entries.map CpusetEntry.text)

theorem parseRange_text (e : CpusetEntry) : parseRange e.text.toList = .ok e.ids := by
  cases e with
  | single id => exact parseRange_repr id
  | range first last le =>
    have hdash : ∀ l ∈ [first.repr.toList, last.repr.toList], '-' ∉ l := by
      intro l hl
      rcases List.mem_cons.mp hl with rfl | hl
      · exact not_mem_repr_of_not_isDigit (by decide) first
      · rw [List.mem_singleton.mp hl]
        exact not_mem_repr_of_not_isDigit (by decide) last
    have htext : (CpusetEntry.range first last le).text.toList
        = ['-'].intercalate [first.repr.toList, last.repr.toList] := by
      simp [CpusetEntry.text, List.intercalate]
    have hcount : ((last : Int) + 1 - first).toNat = last + 1 - first := by omega
    unfold parseRange
    simp only [htext, List.splitOn_intercalate '-' hdash (List.cons_ne_nil _ _), List.headD_cons,
      List.getLastD_cons, List.getLastD_nil, pyInt_repr, Int.toNat_natCast, hcount]
    rfl

theorem parseRanges_text (entries : List CpusetEntry) :
    parseRanges (entries.map (fun e => e.text.toList)) = .ok (entries.flatMap CpusetEntry.ids) := by
  induction entries with
  | nil => rfl
  | cons e entries ih =>
    rw [List.map_cons, parseRanges, parseRange_text]
    simp only [ih, List.flatMap_cons]

theorem comma_not_mem_text (e : CpusetEntry) : ',' ∉ e.text.toList := by
  have hrepr : ∀ n : Nat, ',' ∉ n.repr.toList := not_mem_repr_of_not_isDigit (by decide)
  cases e with
  | single id => exact hrepr id
  | range first last le =>
    show ',' ∉ (first.repr ++ "-" ++ last.repr).toList
    rw [String.toList_append, String.toList_append, List.mem_append, List.mem_append]
    intro h
    rcases h with (h | h) | h
    · exact hrepr first h
    · exact absurd h (by decide)
    · exact hrepr last h

/-- However a cpuset is written, each entry is read in its place. -/
theorem parseCpuset_writeCpuset {entries : List CpusetEntry} (h : entries ≠ []) :
    parseCpuset (writeCpuset entries) = .ok (entries.flatMap CpusetEntry.ids) := by
  -- the commas of the text are the ones that join it
  have hcomma : ∀ l ∈ entries.map (fun e => e.text.toList), ',' ∉ l := by
    intro l hl
    obtain ⟨e, _, rfl⟩ := List.mem_map.mp hl
    exact comma_not_mem_text e
  have hstr : (writeCpuset entries).toList
      = [','].intercalate (entries.map (fun e => e.text.toList)) := by
    unfold writeCpuset
    rw [String.toList_intercalate, List.map_map]
    rfl
  unfold parseCpuset
  rw [hstr, List.splitOn_intercalate ',' hcomma (by simpa using h)]
  exact parseRanges_text entries

/-- The program writes every id on its own. -/
theorem getThreadIdsStr_eq (ids : List Nat) :
    getThreadIdsStr ids = writeCpuset (ids.map CpusetEntry.single) := by
  unfold getThreadIdsStr writeCpuset
  rw [List.map_map]
  rfl

/-- **Reading a cpuset undoes writing it**, for any list of ids but the empty one. -/
theorem parseCpuset_getThreadIdsStr {ids : List Nat} (h : ids ≠ []) :
    parseCpuset (getThreadIdsStr ids) = .ok ids := by
  have hids : ∀ ids : List Nat, (ids.map CpusetEntry.single).flatMap CpusetEntry.ids = ids := by
    intro ids
    rw [List.flatMap_map]
    exact List.flatMap_singleton' ids
  rw [getThreadIdsStr_eq, parseCpuset_writeCpuset (by simpa using h), hids]

/-! ## The empty cpuset -/

/-- What `int` says of an empty text. -/
def emptyLiteral : PyError := .valueError "invalid literal for int() with base 10: ''"

/-- Splitting an empty text yields one empty entry, so the guard for no entry is never met. -/
theorem parseCpuset_empty : parseCpuset "" = .error emptyLiteral := by decide

/-- An entry stands for at least one id. -/
theorem CpusetEntry.ids_ne_nil (e : CpusetEntry) : e.ids ≠ [] := by
  cases e with
  | single id => exact List.cons_ne_nil _ _
  | range first last le =>
    intro h
    have hlen := congrArg List.length h
    simp only [CpusetEntry.ids, List.length_range', List.length_nil] at hlen
    omega

/-- The entries write down the set. -/
def Writes (entries : List CpusetEntry) (s : Finset Nat) : Prop :=
  ∀ i, i ∈ s ↔ ∃ e ∈ entries, i ∈ e.ids

/-- The text of the entries is read as the ids of the set, each range in order. -/
def ReadsBack (entries : List CpusetEntry) (s : Finset Nat) : Prop :=
  ∃ ids, parseCpuset (writeCpuset entries) = .ok ids ∧ (∀ i, i ∈ ids ↔ i ∈ s)
    ∧ ids = entries.flatMap CpusetEntry.ids

/-- A set has an element when there is an entry to write. -/
theorem nonempty_iff_of_writes {entries : List CpusetEntry} {s : Finset Nat}
    (h : Writes entries s) : s.Nonempty ↔ entries ≠ [] := by
  refine ⟨?_, ?_⟩
  · intro hs
    obtain ⟨i, hi⟩ := hs
    obtain ⟨e, he, _⟩ := (h i).mp hi
    exact List.ne_nil_of_mem he
  · intro hne
    obtain ⟨e, he⟩ := List.exists_mem_of_ne_nil _ hne
    obtain ⟨i, hi⟩ := List.exists_mem_of_ne_nil _ e.ids_ne_nil
    exact ⟨i, (h i).mpr ⟨e, he, hi⟩⟩

/-- **Reading a cpuset undoes writing it, unless it is empty**: as the program writes it and as
the kernel may. -/
theorem parseCpuset_undoes_iff (ids : List Nat) (s : Finset Nat) :
    (parseCpuset (getThreadIdsStr ids) = .ok ids ↔ ids ≠ [])
      ∧ ∀ entries : List CpusetEntry, Writes entries s → (ReadsBack entries s ↔ s.Nonempty) := by
  refine ⟨?_, ?_⟩
  · refine ⟨?_, parseCpuset_getThreadIdsStr⟩
    rintro h rfl
    exact absurd (h.symm.trans parseCpuset_empty) (by simp)
  · intro entries hwrites
    rw [nonempty_iff_of_writes hwrites]
    refine ⟨?_, ?_⟩
    · rintro ⟨ids, hread, _⟩ rfl
      exact absurd (hread.symm.trans parseCpuset_empty) (by simp)
    · intro hne
      refine ⟨_, parseCpuset_writeCpuset hne, ?_, rfl⟩
      intro i
      rw [hwrites, List.mem_flatMap]

/-- The kernel writes `1-3,5` for four ids. -/
theorem parseCpuset_undoes_iff_ranges :
    ReadsBack [.range 1 3 (by decide), .single 5] {1, 2, 3, 5} := by
  refine ((parseCpuset_undoes_iff [1, 2, 3, 5] {1, 2, 3, 5}).2 _ ?_).mpr ⟨1, by decide⟩
  intro i
  simp [CpusetEntry.ids]
  omega

/-- An empty cpuset is written as an empty text, which cannot be read. -/
theorem parseCpuset_empty_cpuset :
    parseCpuset (getThreadIdsStr []) = .error emptyLiteral
      ∧ Writes [] ∅ ∧ ¬ ReadsBack [] ∅ := by
  refine ⟨by decide, fun i => by simp, ?_⟩
  rintro ⟨ids, hread, _⟩
  exact absurd (hread.symm.trans parseCpuset_empty) (by simp)

end TitusIsolate
