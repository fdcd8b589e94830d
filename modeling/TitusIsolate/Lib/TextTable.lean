import Mathlib.Data.List.Forall2
import Mathlib.Algebra.Ring.Nat

/-!
# Tables in plain text

A table is drawn line by line: groups of two rows of cells, with rules between the groups,
and beside the lines a column of entries, which goes on below them when there are more
entries than lines. The cells of a group are numbered from left to right, each upper one
before the lower one below it.

How many bars a drawing has is a lower bound on how many cells it was drawn from: a table
with more cells in some row is drawn differently.
-/

namespace TextTable

/-- An upper and a lower row of cells. -/
abbrev Rows (α : Type) := List α × List α

section

variable {α : Type}

/-- The cell of a number: upper cells have the even numbers. -/
def cell (g : Rows α) (j : Nat) : Option α := (if j % 2 = 0 then g.1 else g.2)[j / 2]?

/-- Writes a cell that is there. -/
def setCell (g : Rows α) (j : Nat) (a : α) : Rows α :=
  if j % 2 = 0 then (g.1.set (j / 2) a, g.2) else (g.1, g.2.set (j / 2) a)

/-- Both rows have this many cells. -/
def Wide (k : Nat) (g : Rows α) : Prop := g.1.length = k ∧ g.2.length = k

theorem Wide.setCell {k : Nat} {g : Rows α} (h : Wide k g) (j : Nat) (a : α) :
    Wide k (setCell g j a) := by
  unfold TextTable.setCell
  split
  · exact ⟨by rw [List.length_set, h.1], h.2⟩
  · exact ⟨h.1, by rw [List.length_set, h.2]⟩

theorem cell_setCell_self {k : Nat} {g : Rows α} (h : Wide k g) {j : Nat} (hj : j / 2 < k)
    (a : α) : cell (setCell g j a) j = some a := by
  unfold cell setCell
  split
  · exact List.getElem?_set_self (h.1 ▸ hj)
  · exact List.getElem?_set_self (h.2 ▸ hj)

/-- Other cells stay as they are. -/
theorem cell_setCell_ne {g : Rows α} {j m : Nat} (hm : m ≠ j) (a : α) :
    cell (setCell g j a) m = cell g m := by
  unfold cell setCell
  by_cases hm2 : m % 2 = 0
  · rw [if_pos hm2, if_pos hm2]
    split
    · exact List.getElem?_set_ne (by omega)
    · rfl
  · rw [if_neg hm2, if_neg hm2]
    split
    · rfl
    · exact List.getElem?_set_ne (by omega)

/-- What is in the rows is in a cell. -/
theorem exists_cell_of_mem {k : Nat} {g : Rows α} (h : Wide k g) {a : α} (ha : a ∈ g.1 ++ g.2) :
    ∃ j, j / 2 < k ∧ cell g j = some a := by
  obtain ⟨hupper, hlower⟩ := h
  unfold cell
  rcases List.mem_append.mp ha with ha | ha
  · obtain ⟨i, hi⟩ := List.mem_iff_getElem?.mp ha
    obtain ⟨hlt, _⟩ := List.getElem?_eq_some_iff.mp hi
    refine ⟨2 * i, by omega, ?_⟩
    rw [if_pos (by omega), Nat.mul_div_cancel_left i (by omega), hi]
  · obtain ⟨i, hi⟩ := List.mem_iff_getElem?.mp ha
    obtain ⟨hlt, _⟩ := List.getElem?_eq_some_iff.mp hi
    have hdiv : (2 * i + 1) / 2 = i := by omega
    refine ⟨2 * i + 1, by omega, ?_⟩
    rw [if_neg (by omega), hdiv, hi]

/-- Cells up to a number need rows of some length. -/
theorem rows_of_cell {g : Rows α} {n : Nat} (h : ∀ j < n, cell g j ≠ none) :
    (n + 1) / 2 ≤ g.1.length ∧ n / 2 ≤ g.2.length := by
  refine ⟨?_, ?_⟩
  · by_contra hlt
    -- the upper cell after the last one
    have hnone := h (2 * g.1.length) (by omega)
    unfold cell at hnone
    rw [if_pos (by omega)] at hnone
    exact hnone (List.getElem?_eq_none (by omega))
  · by_contra hlt
    have hnone := h (2 * g.2.length + 1) (by omega)
    unfold cell at hnone
    rw [if_neg (by omega)] at hnone
    exact hnone (List.getElem?_eq_none (by omega))

end

/-! ## Drawing -/

/-- Cells between bars. -/
def barred (cells : List String) : String := "| " ++ " | ".intercalate cells ++ " |"

/-- A rule as long as the upper row. -/
def rule (g : Rows String) : String :=
  "| " ++ String.ofList (List.replicate (" | ".intercalate g.1).length '-') ++ " |"

/-- The lines of the groups, with rules between them. -/
def lines : List (Rows String) → List String
  | [] => []
  | g :: gs => barred g.1 :: barred g.2 :: ((if gs = [] then [] else [rule g]) ++ lines gs)

/-- Entries beside the lines, and below them beside blanks. -/
def sideBySide (blank : String) : List String → List String → List String
  | ls, [] => ls
  | [], e :: es => (blank ++ "   " ++ e) :: sideBySide blank [] es
  | l :: ls, e :: es => (l ++ "   " ++ e) :: sideBySide blank ls es

/-- `n` blanks. -/
def blanks (n : Nat) : String := String.ofList (List.replicate n ' ')

/-- The groups as text, with the entries beside them. -/
def draw (groups : List (Rows String)) (entries : List String) : String :=
  String.join ((sideBySide (blanks ((lines groups).headD "").length) (lines groups) entries).map
    (fun l => l ++ "\n"))

example : draw [(["a", "b"], ["a", " "]), (["b", " "], [" ", " "])] ["a: x", "b: y"]
    = "| a | b |   a: x\n| a |   |   b: y\n| ----- |\n| b |   |\n|   |   |\n" := by decide

/-- A drawing begins with the first upper row. -/
theorem exists_draw_eq (g : Rows String) (gs : List (Rows String)) (entries : List String) :
    ∃ rest, draw (g :: gs) entries = barred g.1 ++ rest := by
  unfold draw lines
  cases entries with
  | nil =>
    rw [sideBySide, List.map_cons, String.join_cons, String.append_assoc]
    exact ⟨_, rfl⟩
  | cons e es =>
    rw [sideBySide, List.map_cons, String.join_cons]
    simp only [String.append_assoc]
    exact ⟨_, rfl⟩

/-- A blank cell is told from no cell by the fourth character. -/
theorem exists_barred_blank_eq (cells : List String) :
    ∃ rest, barred (" " :: cells) = "|   " ++ rest := by
  have hstart : "|   " = "| " ++ " " ++ " " := rfl
  cases cells with
  | nil => exact ⟨"|", rfl⟩
  | cons c cells =>
    refine ⟨"| " ++ (" | ".intercalate (c :: cells) ++ " |"), ?_⟩
    have hsep : " | " = " " ++ "| " := rfl
    unfold barred
    rw [String.intercalate_cons_cons, hstart, hsep]
    simp only [String.append_assoc]

/-! ## Bars -/

/-- The number of bars in a text. -/
def bars (s : String) : Nat := s.toList.count '|'

theorem bars_append (s t : String) : bars (s ++ t) = bars s + bars t := by
  unfold bars
  rw [String.toList_append, List.count_append]

theorem bars_ofList_replicate {c : Char} (hc : c ≠ '|') (n : Nat) :
    bars (String.ofList (List.replicate n c)) = 0 := by
  unfold bars
  rw [String.toList_ofList]
  exact List.count_eq_zero.mpr (fun h => hc (List.eq_of_mem_replicate h).symm)

theorem bars_blanks (n : Nat) : bars (blanks n) = 0 := bars_ofList_replicate (by decide) n

theorem bars_join (ls : List String) : bars (String.join ls) = (ls.map bars).sum := by
  induction ls with
  | nil => rfl
  | cons l ls ih => rw [String.join_cons, bars_append, ih, List.map_cons, List.sum_cons]

theorem bars_barred (cells : List String) :
    bars (barred cells) = 2 + (cells.length - 1) + (cells.map bars).sum := by
  have hcells : ∀ cells : List String,
      bars (" | ".intercalate cells) = (cells.length - 1) + (cells.map bars).sum := by
    intro cells
    induction cells with
    | nil => rfl
    | cons c cells ih =>
      cases cells with
      | nil => simp
      | cons c' cells =>
        have hsep : bars " | " = 1 := rfl
        rw [String.intercalate_cons_cons, bars_append, bars_append, ih, hsep]
        simp only [List.map_cons, List.sum_cons, List.length_cons]
        omega
  have hleft : bars "| " = 1 := rfl
  have hright : bars " |" = 1 := rfl
  unfold barred
  rw [bars_append, bars_append, hcells, hleft, hright]
  omega

theorem bars_rule (g : Rows String) : bars (rule g) = 2 := by
  have hleft : bars "| " = 1 := rfl
  have hright : bars " |" = 1 := rfl
  unfold rule
  rw [bars_append, bars_append, bars_ofList_replicate (by decide), hleft, hright]

/-- The bars of a group. -/
def groupBars (g : Rows String) : Nat := bars (barred g.1) + bars (barred g.2)

/-- Wider rows have more bars than narrow ones whose cells have none. -/
theorem groupBars_lt {k : Nat} {g g' : Rows String} (hk : 0 < k) (hg : Wide k g)
    (hcells : ∀ c ∈ g.1 ++ g.2, bars c = 0) (hupper : k + 1 ≤ g'.1.length)
    (hlower : k ≤ g'.2.length) : groupBars g < groupBars g' := by
  have hsum : ∀ row : List String, (∀ c ∈ row, bars c = 0) → (row.map bars).sum = 0 := by
    intro row hrow
    refine List.sum_eq_zero_iff_forall_eq_nat.mpr ?_
    intro n hmem
    obtain ⟨c, hc, rfl⟩ := List.mem_map.mp hmem
    exact hrow c hc
  have h1 := hsum g.1 (fun c hc => hcells c (List.mem_append_left _ hc))
  have h2 := hsum g.2 (fun c hc => hcells c (List.mem_append_right _ hc))
  obtain ⟨hw1, hw2⟩ := hg
  unfold groupBars
  rw [bars_barred, bars_barred, bars_barred, bars_barred, h1, h2, hw1, hw2]
  omega

theorem bars_lines (gs : List (Rows String)) :
    ((lines gs).map bars).sum = (gs.map groupBars).sum + 2 * (gs.length - 1) := by
  induction gs with
  | nil => rfl
  | cons g gs ih =>
    unfold lines
    rw [List.map_cons, List.map_cons, List.sum_cons, List.sum_cons, List.map_append,
      List.sum_append, ih, List.map_cons, List.sum_cons]
    unfold groupBars
    cases gs with
    | nil => simp
    | cons g' gs =>
      rw [if_neg (by simp), List.map_cons, List.map_nil, List.sum_cons, List.sum_nil, bars_rule]
      simp only [List.length_cons]
      omega

theorem bars_sideBySide {blank : String} (hblank : bars blank = 0) :
    ∀ ls es : List String,
      ((sideBySide blank ls es).map bars).sum = (ls.map bars).sum + (es.map bars).sum
  | ls, [] => by rw [sideBySide, List.map_nil, List.sum_nil, Nat.add_zero]
  | [], e :: es => by
      have hgap : bars "   " = 0 := rfl
      have ih := bars_sideBySide hblank [] es
      rw [sideBySide, List.map_cons, List.sum_cons, ih, bars_append, bars_append, hblank, hgap]
      simp
  | l :: ls, e :: es => by
      have hgap : bars "   " = 0 := rfl
      have ih := bars_sideBySide hblank ls es
      rw [sideBySide, List.map_cons, List.sum_cons, ih, bars_append, bars_append, hgap]
      simp only [List.map_cons, List.sum_cons]
      omega

/-- **The bars of a drawing** are those of its groups, of the rules and of the entries. -/
theorem bars_draw (gs : List (Rows String)) (es : List String) :
    bars (draw gs es)
      = (gs.map groupBars).sum + 2 * (gs.length - 1) + (es.map bars).sum := by
  have hend : bars "\n" = 0 := rfl
  have hlines : ∀ ls : List String,
      ((ls.map (fun l => l ++ "\n")).map bars).sum = (ls.map bars).sum := by
    intro ls
    rw [List.map_map]
    congr 1
    refine List.map_congr_left ?_
    intro l _
    show bars (l ++ "\n") = bars l
    rw [bars_append, hend, Nat.add_zero]
  unfold draw
  rw [bars_join, hlines, bars_sideBySide (bars_blanks _), bars_lines]

end TextTable
