import CallPaths.Graph.Tree

/-!
# Call trees in a row

A call tree may be deep, and a function that goes into it by recursion is as deep.  `CallTree.build`
makes a value of a tree without that.  It first lays the nodes out in a row, in pre-order, each with
the places of the nodes below it; a stack holds the trees that are still to come.  Then it goes
through the row backwards: where it comes to a node, the values of the nodes below are ready, and it
takes them from their places.
-/

namespace CallPaths.CallTree

/-- A node in a row of nodes, with the places of the nodes below it. -/
structure Slot where
  method : Option Signature
  below : Array Nat := #[]
deriving Repr, Inhabited

/-- Notes a place at the node that it lies below. -/
def note (parent : Option Nat) (place : Nat) (row : Array Slot) : Array Slot :=
  match parent with
  | some p => row.modify p fun s => { s with below := s.below.push place }
  | none => row

/-- Lays out pending trees at the end of a row.  Each comes with the place of the node above it. -/
def layOut (row : Array Slot) : List (CallTree × Option Nat) → Array Slot
  | [] => row
  | (node m cs, parent) :: rest =>
    layOut ((note parent row.size row).push { method := m })
      (cs.map (·, some row.size) ++ rest)
termination_by pending => sizeAll (pending.map (·.1))
decreasing_by simp [sizeAll, size, Function.comp_def]

variable {β : Type}

/-- Takes the values at some places, and leaves nothing there. -/
def takeOut (values : Array (Option β)) : List Nat → List β × Array (Option β)
  | [] => ([], values)
  | p :: ps =>
    let value := values[p]?.join
    let (rest, left) := takeOut (values.setIfInBounds p none) ps
    (value.toList ++ rest, left)

/-- Makes the values of the first `n` nodes of a row, the last one first. -/
def fill (f : Option Signature → List β → β) (row : Array Slot) :
    Nat → Array (Option β) → Array (Option β)
  | 0, values => values
  | n + 1, values =>
    let slot := row[n]?.getD { method := none }
    let (below, left) := takeOut values slot.below.toList
    fill f row n (left.setIfInBounds n (some (f slot.method below)))

/-- The value of a tree, where a node has the value that `f` makes of its method and of the values
below it. -/
def build (f : Option Signature → List β → β) (t : CallTree) : β :=
  let row := layOut #[] [(t, none)]
  let values := fill f row row.size (Array.replicate row.size none)
  (values[0]?.join).getD (f t.method [])

end CallPaths.CallTree
