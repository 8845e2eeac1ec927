import CallPaths.Json
import CallPaths.Template.Reader
import CallPaths.Text.LetterCase

/-!
# Filling in templates

A template is filled in from the members of a JSON object.  A variable that does not exist is an
error, except that a condition on it does not hold.
-/

namespace CallPaths.Template

open Text

/-- The variables in sight, the innermost one first. -/
abbrev Bindings := List (String × Json)

/-- The text of a value. -/
def valueText : Json → String
  | .null => ""
  | .bool b => if b then "true" else "false"
  | .num n => toString n
  | .str s => s
  | .arr items => "[" ++ joinWith ", " (itemTexts items) ++ "]"
  | .obj _ => "[object]"
where
  /-- The texts of the items of a list. -/
  itemTexts : List Json → List String
    | [] => []
    | v :: rest => valueText v :: itemTexts rest

/-- Whether a value counts as true: everything but `null`, `false`, zero and what is empty. -/
def isTruthy : Json → Bool
  | .null => false
  | .bool b => b
  | .num n => n ≠ 0
  | .str s => s ≠ ""
  | .arr items => !items.isEmpty
  | .obj members => !members.isEmpty

/-- The value of a variable or of a member. -/
def find? (members : List (String × Json)) (name : String) : Option Json :=
  (members.find? (·.1 = name)).map (·.2)

/-- A member of an object or an item of a list. -/
def member? (v : Json) (segment : String) : Option Json :=
  match v with
  | .obj members => find? members segment
  | .arr items => (digits? segment.toList).bind fun i => items[i]?
  | _ => none

/-- Takes members one after another. -/
def follow? : Json → List String → Option Json
  | v, [] => some v
  | v, s :: rest => (member? v s).bind fun v => follow? v rest

/-- The value of an operand. -/
def operandValue? (bindings : Bindings) : Operand → Option Json
  | .path name more => (find? bindings name).bind fun v => follow? v more
  | .str s => some (.str s)
  | .num n => some (.num n)
  | .bool b => some (.bool b)

/-- Puts a value through a filter. -/
def applyFilter? (bindings : Bindings) (f : Filter) (v : Json) : Option Json :=
  match f.name, v with
  | "length", .arr items => some (.num items.length)
  | "length", .obj members => some (.num members.length)
  | "length", .str s => some (.num s.length)
  | "upper", .str s => some (.str (upperCase s))
  | "lower", .str s => some (.str (lowerCase s))
  | "trim", .str s => some (.str (trim s))
  | "first", .arr items => some (items.head?.getD (.str ""))
  | "last", .arr items => some (items.getLast?.getD (.str ""))
  | "safe", v => some v
  | "join", .arr items =>
    match f.arguments.find? (·.1 = "sep") with
    | none => some (.str (String.join (items.map valueText)))
    | some (_, a) =>
      match operandValue? bindings a with
      | some (.str sep) => some (.str (joinWith sep (items.map valueText)))
      | _ => none
  | _, _ => none

/-- The value of a term. -/
def termValue? (bindings : Bindings) (t : Term) : Option Json :=
  t.filters.foldl (fun v f => v.bind (applyFilter? bindings f)) (operandValue? bindings t.operand)

/-- Whether two values are equal. -/
def sameValue : Json → Json → Bool
  | .null, .null => true
  | .bool a, .bool b => a = b
  | .num a, .num b => a = b
  | .str a, .str b => a = b
  | .arr as, .arr bs => sameValues as bs
  | .obj as, .obj bs => sameMembers as bs
  | _, _ => false
where
  /-- Whether two lists of values are equal. -/
  sameValues : List Json → List Json → Bool
    | [], [] => true
    | a :: as, b :: bs => sameValue a b && sameValues as bs
    | _, _ => false
  /-- Whether two lists of members are equal. -/
  sameMembers : List (String × Json) → List (String × Json) → Bool
    | [], [] => true
    | (k, a) :: as, (l, b) :: bs => k = l && sameValue a b && sameMembers as bs
    | _, _ => false

/-- The outcome of a comparison of two values; only numbers are larger or smaller. -/
def compareValues? (op : Comparison) (a b : Json) : Option Bool :=
  match op with
  | .equal => some (sameValue a b)
  | .notEqual => some (!sameValue a b)
  | op =>
    match a, b with
    | .num m, .num n =>
      match op with
      | .less => some (m < n)
      | .lessEqual => some (m ≤ n)
      | .greater => some (n < m)
      | _ => some (n ≤ m)
    | _, _ => none

/-- Whether an expression holds.  A term without a value does not hold. -/
def truth? (bindings : Bindings) : Expr → Option Bool
  | .term t =>
    match t.operand with
    | .path .. => some ((termValue? bindings t).elim false isTruthy)
    | _ => (termValue? bindings t).map isTruthy
  | .compare op lhs rhs =>
    (termValue? bindings lhs).bind fun a => (termValue? bindings rhs).bind (compareValues? op a)
  | .not e => (truth? bindings e).map (!·)
  | .and lhs rhs =>
    (truth? bindings lhs).bind fun b => if b then truth? bindings rhs else some false
  | .or lhs rhs =>
    (truth? bindings lhs).bind fun b => if b then some true else truth? bindings rhs

/-- The value of an expression. -/
def exprValue? (bindings : Bindings) : Expr → Option Json
  | .term t => termValue? bindings t
  | e => (truth? bindings e).map .bool

/-- The items that a loop goes through: those of a list, or the characters of a text. -/
def loopItems? : Json → Option (List Json)
  | .arr items => some items
  | .str s => some (s.toList.map fun c => .str (String.singleton c))
  | _ => none

/-- What a loop knows of its current round, of `total` rounds. -/
def loopState (index total : Nat) : Json :=
  .obj
    [("index", .num (index + 1)),
      ("index0", .num index),
      ("first", .bool (index = 0)),
      ("last", .bool (index + 1 = total))]

/-- The values of a list with their places. -/
def numbered : Nat → List Json → List (Nat × Json)
  | _, [] => []
  | n, v :: rest => (n, v) :: numbered (n + 1) rest

/-- The texts of several rounds one after another, none if one of them has none. -/
def joinAll? : List (Option String) → Option String
  | [] => some ""
  | none :: _ => none
  | some s :: rest => (joinAll? rest).map (s ++ ·)

mutual

/-- The text of a part. -/
def fillPart? (bindings : Bindings) : Part → Option String
  | .text s => some s
  | .output e => (exprValue? bindings e).map valueText
  | .cond e body otherwise =>
    match truth? bindings e with
    | some true => fillParts? bindings body
    | some false => fillParts? bindings otherwise
    | none => none
  | .loop v items body otherwise =>
    match (termValue? bindings items).bind loopItems? with
    | none => none
    | some [] => fillParts? bindings otherwise
    | some values =>
      joinAll? ((numbered 0 values).map fun (i, value) =>
        fillParts? ((v, value) :: ("loop", loopState i values.length) :: bindings) body)

/-- The text of several parts. -/
def fillParts? (bindings : Bindings) : List Part → Option String
  | [] => some ""
  | p :: ps => (fillPart? bindings p).bind fun s => (fillParts? bindings ps).map (s ++ ·)

end

/-- The text of a template with the members of an object filled in. -/
def render? (template : String) (members : List (String × Json)) : Option String :=
  (read? template).bind (fillParts? members)

/-- A way to fill in templates from members: it gives the text, or the reason why there is none. -/
abbrev Engine := String → List (String × Json) → Except String String

/-- The engine that fills in the templates of this library. -/
def engine : Engine := fun template members =>
  match render? template members with
  | some s => .ok s
  | none => .error "the template cannot be filled in"

end CallPaths.Template
