/-!
# Templates

A template is text with places that are filled in from a JSON value.  A place is an expression in a
pair of braces, a condition, or a loop over a list.  This file holds the parts of a template that
has been read.
-/

namespace CallPaths.Template

/-- A value that stands in an expression. -/
inductive Operand where
  /-- A variable, and the members or indices taken from it one after another. -/
  | path (name : String) (segments : List String)
  | str (s : String)
  | num (n : Nat)
  | bool (b : Bool)
deriving DecidableEq, Repr, Inhabited

/-- A filter with its named arguments. -/
structure Filter where
  name : String
  arguments : List (String × Operand) := []
deriving DecidableEq, Repr, Inhabited

/-- A value and the filters that it goes through. -/
structure Term where
  operand : Operand
  filters : List Filter := []
deriving DecidableEq, Repr, Inhabited

/-- The comparisons of two values. -/
inductive Comparison where
  | less
  | lessEqual
  | greater
  | greaterEqual
  | equal
  | notEqual
deriving DecidableEq, Repr, Inhabited

/-- An expression, as it stands in a condition or a place to fill in. -/
inductive Expr where
  | term (t : Term)
  | compare (op : Comparison) (lhs rhs : Term)
  | not (e : Expr)
  | and (lhs rhs : Expr)
  | or (lhs rhs : Expr)
deriving DecidableEq, Repr, Inhabited

/-- A part of a template. -/
inductive Part where
  | text (s : String)
  | output (e : Expr)
  /-- Parts that count if a condition holds, and parts that count otherwise. -/
  | cond (e : Expr) (body otherwise : List Part)
  /-- Parts that are repeated for each item of a list, and parts that count if there is none. -/
  | loop (name : String) (items : Term) (body otherwise : List Part)
deriving Repr, Inhabited

end CallPaths.Template
