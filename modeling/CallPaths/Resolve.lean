import CallPaths.Naming

/-!
# Resolving calls

`Declarations.resolve?` finds the declared method that a call refers to.  The receiver of the call
gives the types to search; a type is searched before its superclass and interfaces, breadth first.
Among the methods of the right name in the first type that has one for the number of arguments, the
one whose parameter types fit the arguments best is taken, an earlier one before a later one.
-/

namespace CallPaths

open Text

/-- Wider primitive types that a value of a primitive type may be used as. -/
def widenings : List (String × List String) :=
  [("byte", ["short", "int", "long", "float", "double"]),
    ("short", ["int", "long", "float", "double"]),
    ("char", ["int", "long", "float", "double"]),
    ("int", ["long", "float", "double"]),
    ("long", ["float", "double"]),
    ("float", ["double"])]

/-- The primitive types and their classes. -/
def boxings : List (String × String) :=
  [("boolean", "java.lang.Boolean"), ("byte", "java.lang.Byte"),
    ("char", "java.lang.Character"), ("short", "java.lang.Short"),
    ("int", "java.lang.Integer"), ("long", "java.lang.Long"),
    ("float", "java.lang.Float"), ("double", "java.lang.Double")]

/-- Whether a value of one type may stand where another type is expected: every object is an
`Object`, and primitive types are widened, boxed and unboxed. -/
def isAssignable (actual expected : String) : Bool :=
  (expected = "java.lang.Object" && !isPrimitive actual) ||
    widenings.any (fun w => w.1 = actual && w.2.contains expected) ||
    boxings.any fun b => (b.1 = actual && b.2 = expected) || (b.2 = actual && b.1 = expected)

/-- The points for one argument, whose type may be unknown. -/
def argumentScore (actual : Option String) (expected : String) : Nat :=
  match actual with
  | none => 1
  | some a => if a = expected then 3 else if isAssignable a expected then 2 else 0

/-- The parameters that `n` arguments go to; the last parameter takes all arguments that are
left. -/
def spreadParameters (ps : List Parameter) (n : Nat) : List Parameter :=
  match ps.getLast? with
  | none => []
  | some p => ps.take n ++ List.replicate (n - ps.length) p

/-- The method that a call stands in. -/
structure CallContext where
  owner : Declared
  method : MethodDecl

namespace Declarations

/-- The qualified form of a type written in the declaration of a type. -/
def qualifyIn (d : Declarations) (owner : Declared) (written : String) : String :=
  d.qualify owner.file owner.type.name written

/-! ### Types of variables and paths -/

/-- What a round of the search for a field comes to. -/
inductive FieldRound
  /-- The search is over. -/
  | answer (type : Option String)
  /-- The search goes on with a superclass; the names of the classes before it are kept. -/
  | goOn (visited : List String) (name : String)
deriving DecidableEq, Repr

/-- A round of the search for a field, which looks at one class.  A name that was visited before
ends the search. -/
def fieldRound (d : Declarations) (field : String) (visited : List String) (name : String) :
    FieldRound :=
  if visited.contains name then .answer none
  else
    match d.lookup? name with
    | none => .answer none
    | some owner =>
      match owner.type.fieldType? field with
      | some written => .answer (some (d.qualifyIn owner written))
      | none =>
        match owner.type.superclass with
        | none => .answer none
        | some written => .goOn (name :: visited) (d.qualifyIn owner written)

/-- The search for a field, round by round; none if it is not over after so many rounds. -/
def searchField? (d : Declarations) (field : String) :
    Nat → List String → String → Option (Option String)
  | 0, _, _ => none
  | rounds + 1, visited, name =>
    match d.fieldRound field visited name with
    | .answer type => some type
    | .goOn visited name => searchField? d field rounds visited name

/-- The type of a field of a type or else of its superclasses.  Each round but the last one visits
another declared type, so there are never more rounds than these and one. -/
def fieldType? (d : Declarations) (owner field : String) : Option String :=
  (d.searchField? field (d.size + 1) [] owner).join

/-- The type after following fields one after another. -/
def followFields? (d : Declarations) : String → List String → Option String
  | start, [] => some start
  | start, f :: fs =>
    match d.fieldType? start f with
    | some t => followFields? d t fs
    | none => none

/-- The type of a variable: a local variable, a parameter, or a field of the type or of the declared
types around it. -/
def variableType? (d : Declarations) (c : CallContext) (name : String) : Option String :=
  match c.method.localType? name with
  | some written => some (d.qualifyIn c.owner written)
  | none =>
    let q := c.owner.qualifiedName
    (q :: (outerNames q).takeWhile d.isDeclared).findSome? (d.fieldType? · name)

/-- The longest beginning of a path that names a declared type, with the rest of the path; at most
the first `n` segments are taken. -/
def declaredStart? (d : Declarations) (c : CallContext) (segments : List String) :
    Nat → Option (String × List String)
  | 0 => none
  | n + 1 =>
    let candidate := d.qualifyIn c.owner (joinWith "." (segments.take (n + 1)))
    if d.isDeclared candidate then some (candidate, segments.drop (n + 1))
    else declaredStart? d c segments n

/-- The type of a path: a variable followed by fields, or else a type name followed by fields. -/
def pathType? (d : Declarations) (c : CallContext) (segments : List String) : Option String :=
  match segments with
  | [] => none
  | first :: rest =>
    match d.variableType? c first with
    | some start => d.followFields? start rest
    | none =>
      match d.declaredStart? c segments segments.length with
      | some (start, fields) => d.followFields? start fields
      | none => none

/-- The type of an argument, if it is known. -/
def hintType? (d : Declarations) (c : CallContext) : ArgumentHint → Option String
  | .literal t => some t
  | .variable name => d.variableType? c name
  | .typed written => some (d.qualifyIn c.owner written)
  | .unknown => none

/-- The types to search for the method of a call, in order. -/
def receiverTypes (d : Declarations) (c : CallContext) : Receiver → List String
  | .implicit =>
    c.owner.qualifiedName ::
      (outerNames c.owner.type.name).map (Signature.inPackage c.owner.file.packageName)
  | .self => [c.owner.qualifiedName]
  | .parent => (c.owner.type.superclass.map (d.qualifyIn c.owner)).toList
  | .selfField name => (d.fieldType? c.owner.qualifiedName name).toList
  | .path segments => (d.pathType? c segments).toList
  | .typed written => [d.qualifyIn c.owner written]
  | .unresolvable => []

/-! ### Methods -/

/-- How well a method fits the argument types; none if it cannot take that many arguments.  The
exact number of arguments counts one point. -/
def fit? (d : Declarations) (owner : Declared) (m : MethodDecl) (hints : List (Option String)) :
    Option Nat :=
  let exact := m.parameters.length = hints.length
  if exact || (m.isVarargs && m.parameters.length ≤ hints.length + 1) then
    let expected := (spreadParameters m.parameters hints.length).map fun p =>
      d.qualifyIn owner p.typeName
    some ((hints.zipWith argumentScore expected).foldl (· + ·) (if exact then 1 else 0))
  else none

/-- The first of the pairs with the most points. -/
def bestOf : List (Nat × MethodDecl) → Option (Nat × MethodDecl)
  | [] => none
  | c :: cs =>
    match bestOf cs with
    | some b => if c.1 < b.1 then some b else some c
    | none => some c

/-- The method of a type that fits a call best. -/
def bestMethod? (d : Declarations) (owner : Declared) (name : String)
    (hints : List (Option String)) : Option MethodDecl :=
  let candidates := (owner.type.methods.filter (·.name = name)).filterMap fun m =>
    (d.fit? owner m hints).map fun points => (points, m)
  (bestOf candidates).map (·.2)

/-- The superclass and the interfaces of a type, qualified where they are written. -/
def supertypes (d : Declarations) (owner : Declared) : List String :=
  (owner.type.superclass.toList ++ owner.type.interfaces).map (d.qualifyIn owner)

/-- Searches the types of a queue and their supertypes, breadth first, expanding at most `rounds`
types. -/
def searchMethod? (d : Declarations) (name : String) (hints : List (Option String)) :
    Nat → List String → List String → Option Signature
  | 0, _, _ => none
  | rounds + 1, visited, queue =>
    match queue.dropWhile fun t => visited.contains t || !d.isDeclared t with
    | [] => none
    | t :: rest =>
      match d.lookup? t with
      | none => none
      | some owner =>
        match d.bestMethod? owner name hints with
        | some m => d.signatureOf? owner m
        | none => searchMethod? d name hints rounds (t :: visited) (rest ++ d.supertypes owner)

/-- The method of a type or of its supertypes that a call refers to.  Every round expands a declared
type that was not expanded before, so there are never more rounds than declared types. -/
def findMethod? (d : Declarations) (owner name : String) (hints : List (Option String)) :
    Option Signature :=
  d.searchMethod? name hints d.size [] [owner]

/-- The declared method that a call refers to. -/
def resolve? (d : Declarations) (c : CallContext) (call : CallSite) : Option Signature :=
  let hints := call.arguments.map (d.hintType? c)
  (d.receiverTypes c call.receiver).findSome? (d.findMethod? · call.name hints)

end Declarations

end CallPaths
