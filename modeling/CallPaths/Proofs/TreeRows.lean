import CallPaths.Graph.Layout

/-!
# Values of call trees in a row

`CallTree.build` makes a value of a tree by two loops: one lays the nodes out in a row with a stack
of pending trees, the other goes through the row backwards and takes the values of the nodes below
from their places.  `CallTree.fold` makes the same value by recursion.

In pre-order a tree takes as many places as it has nodes, so the place of every node can be told
from the sizes of the trees before it.  `rowAt` is the row of a tree by recursion, and the stack
loop makes it whatever else is pending (`layOut_cons`).  The backward loop comes to the root of a
tree with all values of its other nodes taken again: what it leaves in the stretch of the tree is
the value of the tree at the place of its root (`fill_tree`).

## Key results

- `layOut_root`: the stack loop lays a tree out as the recursion does
- `build_eq_fold`: the value by loops is the value by recursion
-/

namespace CallPaths.CallTree

mutual

/-- The value of a tree by recursion. -/
def fold {β : Type} (f : Option Signature → List β → β) : CallTree → β
  | node m cs => f m (foldAll f cs)

/-- The values of several trees by recursion. -/
def foldAll {β : Type} (f : Option Signature → List β → β) : List CallTree → List β
  | [] => []
  | t :: ts => fold f t :: foldAll f ts

end

/-- The places of the roots of several trees that are laid out one after another from a place on. -/
def places (n : Nat) : List CallTree → List Nat
  | [] => []
  | t :: ts => n :: places (n + t.size) ts

mutual

/-- The row of a tree whose root has a given place. -/
def rowAt (n : Nat) : CallTree → List Slot
  | node m cs => ⟨m, (places (n + 1) cs).toArray⟩ :: rowsAt (n + 1) cs

/-- The rows of several trees one after another, the first of which has a given place. -/
def rowsAt (n : Nat) : List CallTree → List Slot
  | [] => []
  | t :: ts => rowAt n t ++ rowsAt (n + t.size) ts

end

mutual

private theorem length_rowAt (t : CallTree) (n : Nat) : (rowAt n t).length = t.size := by
  cases t with
  | node m cs =>
    simp only [rowAt, size, List.length_cons, length_rowsAt]
    omega

private theorem length_rowsAt (ts : List CallTree) (n : Nat) :
    (rowsAt n ts).length = sizeAll ts := by
  cases ts with
  | nil => rfl
  | cons t ts => simp only [rowsAt, sizeAll, List.length_append, length_rowAt, length_rowsAt]

end

private theorem size_pos (t : CallTree) : 0 < t.size := by
  cases t with
  | node m cs => rw [size]; omega

/-! ### Laying out -/

/-- Notes several places one after another at a node. -/
def noteAll (p : Nat) (ps : List Nat) (row : Array Slot) : Array Slot :=
  row.modify p fun s => { s with below := s.below ++ ps.toArray }

@[simp] theorem size_note (parent : Option Nat) (place : Nat) (row : Array Slot) :
    (note parent place row).size = row.size := by
  cases parent <;> simp [note]

private theorem noteAll_nil (p : Nat) (row : Array Slot) : noteAll p [] row = row := by
  apply Array.ext_getElem?
  intro i
  simp only [noteAll, Array.getElem?_modify]
  split <;> simp

private theorem noteAll_append {p : Nat} {row : Array Slot} (h : p < row.size) (ps : List Nat)
    (more : Array Slot) : noteAll p ps (row ++ more) = noteAll p ps row ++ more := by
  apply Array.ext_getElem?
  intro i
  simp only [noteAll, Array.getElem?_modify, Array.getElem?_append]
  grind

private theorem noteAll_note (p q : Nat) (ps : List Nat) (row : Array Slot) :
    noteAll p ps (note (some p) q row) = noteAll p (q :: ps) row := by
  apply Array.ext_getElem?
  intro i
  simp only [noteAll, note, Array.getElem?_modify]
  split
  · cases row[i]? <;> simp
  · rfl

private theorem noteAll_push (row : Array Slot) (m : Option Signature) (ps : List Nat) :
    noteAll row.size ps (row.push { method := m }) = row.push ⟨m, ps.toArray⟩ := by
  apply Array.ext_getElem?
  intro i
  simp only [noteAll, Array.getElem?_modify, Array.getElem?_push]
  grind

mutual

/-- The tree on top of the stack goes to the end of the row, before anything else on the stack. -/
theorem layOut_cons (t : CallTree) {row : Array Slot} {parent : Option Nat}
    (rest : List (CallTree × Option Nat)) :
    layOut row ((t, parent) :: rest) =
      layOut (note parent row.size row ++ (rowAt row.size t).toArray) rest := by
  cases t with
  | node m cs =>
    -- the node stands at the end of the row, and the trees below it are laid out behind it
    have hp : row.size < ((note parent row.size row).push { method := m }).size := by simp
    have hpush := noteAll_push (note parent row.size row) m (places (row.size + 1) cs)
    rw [size_note] at hpush
    rw [layOut, layOut_children cs hp rest, Array.size_push, size_note, hpush, rowAt]
    congr 1
    apply Array.toList_inj.1
    simp

/-- Trees below one node go to the end of the row one after another, and are noted at the node. -/
private theorem layOut_children (ts : List CallTree) {row : Array Slot} {p : Nat}
    (hp : p < row.size) (rest : List (CallTree × Option Nat)) :
    layOut row (ts.map (·, some p) ++ rest) =
      layOut (noteAll p (places row.size ts) row ++ (rowsAt row.size ts).toArray) rest := by
  cases ts with
  | nil => simp [places, rowsAt, noteAll_nil]
  | cons t ts =>
    have hnoted : p < (note (some p) row.size row).size := by simpa using hp
    have hlonger : p < (note (some p) row.size row ++ (rowAt row.size t).toArray).size := by
      simp only [Array.size_append]
      omega
    -- the next tree starts behind the first one
    have hsize : (note (some p) row.size row ++ (rowAt row.size t).toArray).size =
        row.size + t.size := by
      simp [length_rowAt]
    rw [List.map_cons, List.cons_append, layOut_cons t, layOut_children ts hlonger rest, hsize,
      noteAll_append hnoted, noteAll_note, places, rowsAt, Array.append_assoc]
    simp

end

/-- The stack loop lays a tree out as the recursion does. -/
theorem layOut_root (t : CallTree) : layOut #[] [(t, none)] = (rowAt 0 t).toArray := by
  rw [layOut_cons, layOut, note]
  simp

/-! ### Values of rows -/

variable {β : Type} {f : Option Signature → List β → β}

/-- A row holds some slots from a place on. -/
def HoldsAt (row : Array Slot) (n : Nat) (slots : List Slot) : Prop :=
  ∀ i s, slots[i]? = some s → row[n + i]? = some s

theorem HoldsAt.left {row : Array Slot} {n : Nat} {l l' : List Slot}
    (h : HoldsAt row n (l ++ l')) : HoldsAt row n l := by
  intro i s hs
  apply h
  obtain ⟨hi, -⟩ := List.getElem?_eq_some_iff.1 hs
  rwa [List.getElem?_append_left hi]

theorem HoldsAt.right {row : Array Slot} {n : Nat} {l l' : List Slot}
    (h : HoldsAt row n (l ++ l')) : HoldsAt row (n + l.length) l' := by
  intro i s hs
  have hs' : (l ++ l')[l.length + i]? = some s := by
    rwa [List.getElem?_append_right (by omega), Nat.add_sub_cancel_left]
  rw [Nat.add_assoc]
  exact h (l.length + i) s hs'

/-- Puts the values of several trees to the places of their roots. -/
def put (f : Option Signature → List β → β) (n : Nat) (values : Array (Option β)) :
    List CallTree → Array (Option β)
  | [] => values
  | t :: ts => (put f (n + t.size) values ts).setIfInBounds n (some (fold f t))

@[simp] theorem size_put (n : Nat) (values : Array (Option β)) (ts : List CallTree) :
    (put f n values ts).size = values.size := by
  induction ts generalizing n with
  | nil => rfl
  | cons t ts ih => simp [put, ih]

private theorem getElem?_put_of_lt {n i : Nat} (h : i < n) (values : Array (Option β))
    (ts : List CallTree) : (put f n values ts)[i]? = values[i]? := by
  induction ts generalizing n with
  | nil => rfl
  | cons t ts ih =>
    rw [put, Array.getElem?_setIfInBounds_ne (by omega), ih (by omega)]

/-- There are no values from one place up to another. -/
def IsFree (values : Array (Option β)) (n k : Nat) : Prop :=
  n + k ≤ values.size ∧ ∀ i, n ≤ i → i < n + k → values[i]? = some none

/-- Taking the values of several trees out again leaves what was there before. -/
private theorem takeOut_put {n : Nat} {values : Array (Option β)} (ts : List CallTree)
    (h : IsFree values n (sizeAll ts)) :
    takeOut (put f n values ts) (places n ts) = (foldAll f ts, values) := by
  induction ts generalizing n with
  | nil => rfl
  | cons t ts ih =>
    have hpos := t.size_pos
    obtain ⟨hsize, hfree⟩ := h
    rw [sizeAll] at hsize hfree
    have hlater : IsFree values (n + t.size) (sizeAll ts) :=
      ⟨by omega, fun i hi hi' => hfree i (by omega) (by omega)⟩
    -- the place of the first root is free again once its value is taken
    have hback : (put f n values (t :: ts)).setIfInBounds n none =
        put f (n + t.size) values ts := by
      apply Array.ext_getElem?
      intro i
      rw [put, Array.setIfInBounds_setIfInBounds, Array.getElem?_setIfInBounds]
      split
      · next hi =>
        subst hi
        rw [getElem?_put_of_lt (by omega), hfree n (by omega) (by omega)]
        simp only [size_put]
        rw [if_pos (by omega)]
      · rfl
    have hvalue : (put f n values (t :: ts))[n]?.join = some (fold f t) := by
      rw [put, Array.getElem?_setIfInBounds_self_of_lt (by rw [size_put]; omega)]
      rfl
    simp only [places, takeOut, hback, hvalue, ih hlater, foldAll]
    rfl

mutual

/-- The backward loop leaves the value of a tree at the place of its root, and nothing else. -/
theorem fill_tree (t : CallTree) {row : Array Slot} {n : Nat} {values : Array (Option β)}
    (hrow : HoldsAt row n (rowAt n t)) (hfree : IsFree values n t.size) :
    fill f row (n + t.size) values = fill f row n (values.setIfInBounds n (some (fold f t))) := by
  cases t with
  | node m cs =>
    rw [rowAt] at hrow
    rw [size] at hfree ⊢
    obtain ⟨hsize, hfree⟩ := hfree
    have hbelow : IsFree values (n + 1) (sizeAll cs) :=
      ⟨by omega, fun i hi hi' => hfree i (by omega) (by omega)⟩
    have hslot : row[n]? = some ⟨m, (places (n + 1) cs).toArray⟩ := hrow 0 _ rfl
    have hrest : HoldsAt row (n + 1) (rowsAt (n + 1) cs) := hrow.right (l := [_])
    rw [show n + (1 + sizeAll cs) = (n + 1) + sizeAll cs by omega, fill_trees cs hrest hbelow, fill,
      hslot]
    simp only [Option.getD_some, takeOut_put cs hbelow, fold]

/-- The backward loop leaves the values of several trees at the places of their roots. -/
private theorem fill_trees (ts : List CallTree) {row : Array Slot} {n : Nat}
    {values : Array (Option β)}
    (hrow : HoldsAt row n (rowsAt n ts)) (hfree : IsFree values n (sizeAll ts)) :
    fill f row (n + sizeAll ts) values = fill f row n (put f n values ts) := by
  cases ts with
  | nil => rfl
  | cons t ts =>
    rw [rowsAt] at hrow
    rw [sizeAll] at hfree ⊢
    obtain ⟨hsize, hfree⟩ := hfree
    have hlater : IsFree values (n + t.size) (sizeAll ts) :=
      ⟨by omega, fun i hi hi' => hfree i (by omega) (by omega)⟩
    have hfirst : IsFree (put f (n + t.size) values ts) n t.size := by
      refine ⟨by rw [size_put]; omega, fun i hi hi' => ?_⟩
      rw [getElem?_put_of_lt (by omega)]
      exact hfree i (by omega) (by omega)
    have hright := hrow.right
    rw [length_rowAt] at hright
    rw [← Nat.add_assoc, fill_trees ts hright hlater, fill_tree t hrow.left hfirst, put]

end

/-- The value of a tree by loops is its value by recursion. -/
theorem build_eq_fold (f : Option Signature → List β → β) (t : CallTree) :
    t.build f = fold f t := by
  have hpos := t.size_pos
  have hrow : HoldsAt (rowAt 0 t).toArray 0 (rowAt 0 t) := by
    intro i s hs
    simpa using hs
  have hfree : IsFree (Array.replicate t.size (none : Option β)) 0 t.size := by
    refine ⟨by simp, fun i hi hi' => ?_⟩
    rw [Array.getElem?_replicate, if_pos (by omega)]
  have hfill := fill_tree (f := f) t hrow hfree
  rw [Nat.zero_add, fill] at hfill
  simp only [build, layOut_root, List.size_toArray, length_rowAt, hfill]
  rw [Array.getElem?_setIfInBounds_self_of_lt (by simpa using hpos)]
  rfl

end CallPaths.CallTree
