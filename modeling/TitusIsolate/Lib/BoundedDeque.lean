/-!
# Queues of bounded length

A bounded queue has two ends. Pushing at one end of a full queue drops an element at the
other. So what a queue holds after many pushes at the right is the end of all that was
pushed, and after pushes at the left the beginning.
-/

/-- A queue with two ends that holds at most `cap` elements. -/
structure BoundedDeque (α : Type) (cap : Nat) where
  toList : List α
  le : toList.length ≤ cap

namespace BoundedDeque

variable {α : Type} {cap : Nat}

/-- `deque(maxlen=cap)` -/
def empty : BoundedDeque α cap := ⟨[], Nat.zero_le _⟩

/-- `d.append(x)` -/
def append (d : BoundedDeque α cap) (x : α) : BoundedDeque α cap where
  toList := (d.toList ++ [x]).drop (d.toList.length + 1 - cap)
  le := by
    rw [List.length_drop, List.length_append, List.length_singleton]
    omega

/-- `d.appendleft(x)` -/
def appendLeft (d : BoundedDeque α cap) (x : α) : BoundedDeque α cap where
  toList := (x :: d.toList).take cap
  le := List.length_take_le _ _

/-- `deque(xs, maxlen=cap)` -/
def ofList (cap : Nat) (xs : List α) : BoundedDeque α cap := xs.foldl append empty

/-- `d.extendleft(xs)` -/
def extendLeft (d : BoundedDeque α cap) (xs : List α) : BoundedDeque α cap :=
  xs.foldl appendLeft d

/-- Pushed at the right, the last elements stay. -/
theorem toList_foldl_append (xs : List α) (d : BoundedDeque α cap) :
    (xs.foldl append d).toList
      = (d.toList ++ xs).drop ((d.toList ++ xs).length - cap) := by
  induction xs generalizing d with
  | nil =>
    have := d.le
    rw [List.foldl_nil, List.append_nil, Nat.sub_eq_zero_of_le this, List.drop_zero]
  | cons x xs ih =>
    have hle := d.le
    rw [List.foldl_cons, ih]
    -- what the first push drops is dropped in the end anyway
    have hsplit : d.toList ++ x :: xs = (d.toList ++ [x]) ++ xs := by simp
    have hdrop : (d.append x).toList ++ xs
        = (d.toList ++ x :: xs).drop (d.toList.length + 1 - cap) := by
      have hlength : d.toList.length + 1 - cap ≤ (d.toList ++ [x]).length := by
        rw [List.length_append, List.length_singleton]
        omega
      rw [hsplit, List.drop_append_of_le_length hlength]
      rfl
    rw [hdrop, List.drop_drop, List.length_drop, List.length_append, List.length_cons]
    congr 1
    omega

theorem toList_ofList (cap : Nat) (xs : List α) :
    (ofList cap xs).toList = xs.drop (xs.length - cap) := toList_foldl_append xs empty

/-- Pushed at the left, the last ones pushed come first. -/
theorem toList_extendLeft (xs : List α) (d : BoundedDeque α cap) :
    (d.extendLeft xs).toList = (xs.reverse ++ d.toList).take cap := by
  unfold extendLeft
  induction xs generalizing d with
  | nil =>
    rw [List.foldl_nil, List.reverse_nil, List.nil_append, List.take_of_length_le d.le]
  | cons x xs ih =>
    rw [List.foldl_cons, ih, List.reverse_cons, List.append_assoc, List.singleton_append]
    show (xs.reverse ++ (x :: d.toList).take cap).take cap = _
    rw [List.take_append, List.take_append, List.take_take, Nat.min_eq_left (Nat.sub_le _ _)]

end BoundedDeque
