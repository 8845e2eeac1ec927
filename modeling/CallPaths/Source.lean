import CallPaths.Signature

/-!
# Declarations of a source file

What an analysis needs to know of a Java source file: its package and imports, its type
declarations, and for each method the local variables and the calls of its body.  Names are kept as
they are written; giving them their qualified meaning is the work of `CallPaths.Naming`.
-/

namespace CallPaths

/-- A range of line numbers, counted from one, with both ends included. -/
structure LineRange where
  first : Nat
  last : Nat
deriving DecidableEq, Repr, Inhabited

/-- Whether a line lies in the range. -/
def LineRange.contains (r : LineRange) (line : Nat) : Bool :=
  r.first ≤ line && line ≤ r.last

/-- An import declaration. -/
structure Import where
  /-- The imported name, without a final asterisk. -/
  path : String
  isStatic : Bool
  /-- Whether all members of the name are imported on demand. -/
  onDemand : Bool
deriving DecidableEq, Repr, Inhabited

/-- The kinds of type declarations; a record is a class. -/
inductive TypeKind where
  | classDecl
  | interfaceDecl
  | enumDecl
deriving DecidableEq, Repr, Inhabited

/-- A variable with its declared type: a field or a local variable. -/
structure Variable where
  name : String
  typeName : String
deriving DecidableEq, Repr, Inhabited

/-- A parameter of a method; the type is empty when the declaration gives none. -/
structure Parameter where
  name : String
  typeName : String
  varargs : Bool
deriving DecidableEq, Repr, Inhabited

/-- The shape of the expression that a method is called on. -/
inductive Receiver where
  /-- No expression. -/
  | implicit
  /-- The object itself. -/
  | self
  /-- The object itself, seen as an object of its superclass. -/
  | parent
  /-- A dotted name: a variable, fields of it, or a type name. -/
  | path (segments : List String)
  /-- A field of the object itself. -/
  | selfField (name : String)
  /-- An expression that names its own type: an object creation or a cast. -/
  | typed (typeName : String)
  /-- Any other expression. -/
  | unresolvable
deriving DecidableEq, Repr, Inhabited

/-- What is known of the type of an argument without typing expressions. -/
inductive ArgumentHint where
  /-- A literal of a known type. -/
  | literal (typeName : String)
  /-- A variable. -/
  | variable (name : String)
  /-- An object creation or a cast. -/
  | typed (typeName : String)
  | unknown
deriving DecidableEq, Repr, Inhabited

/-- A method call in a method body. -/
structure CallSite where
  receiver : Receiver
  name : String
  arguments : List ArgumentHint
  line : Nat
deriving DecidableEq, Repr, Inhabited

/-- A method declaration. -/
structure MethodDecl where
  name : String
  parameters : List Parameter
  /-- The lines of the whole declaration. -/
  lineRange : LineRange
  /-- The text of these lines. -/
  source : String
  /-- The text of the lines of the body, if there is one. -/
  body : Option String
  /-- The comments right before the declaration. -/
  comments : Option String
  locals : List Variable
  calls : List CallSite
deriving DecidableEq, Repr, Inhabited

namespace MethodDecl

/-- Whether the last parameter takes any number of arguments. -/
def isVarargs (m : MethodDecl) : Bool :=
  match m.parameters.getLast? with
  | some p => p.varargs
  | none => false

/-- The declared type of a local variable or else of a parameter. -/
def localType? (m : MethodDecl) (name : String) : Option String :=
  match m.locals.find? (·.name = name) with
  | some v => some v.typeName
  | none => (m.parameters.find? (·.name = name)).map (·.typeName)

end MethodDecl

/-- The part of a dotted name before its last dot. -/
def outerName? (name : String) : Option String :=
  match (Text.splitOn '.' name).reverse with
  | _ :: outer@(_ :: _) => some (Text.joinWith "." outer.reverse)
  | _ => none

/-- The part of a dotted name after its last dot. -/
def simpleName (name : String) : String :=
  ((Text.splitOn '.' name).getLast?).getD name

/-- A class, interface or enum declaration. -/
structure TypeDecl where
  /-- The name in the package; a nested type is `Outer.Inner`. -/
  name : String
  kind : TypeKind
  /-- The superclass as written. -/
  superclass : Option String
  /-- The interfaces as written: implemented ones, or those that an interface extends. -/
  interfaces : List String
  fields : List Variable
  methods : List MethodDecl
  lineRange : LineRange
deriving DecidableEq, Repr, Inhabited

namespace TypeDecl

/-- The declared type of a field. -/
def fieldType? (t : TypeDecl) (name : String) : Option String :=
  (t.fields.find? (·.name = name)).map (·.typeName)

end TypeDecl

/-- The declarations of a compilation unit. -/
structure CompilationUnit where
  package : Option String := none
  imports : List Import := []
  /-- All type declarations, an outer one before those nested in it. -/
  types : List TypeDecl := []
deriving DecidableEq, Repr, Inhabited

/-- A compilation unit together with the file that it stands in. -/
structure SourceFile extends CompilationUnit where
  path : String
  /-- The text of the file. -/
  text : String
deriving DecidableEq, Repr, Inhabited

namespace SourceFile

/-- The package, empty for the default package. -/
def packageName (f : SourceFile) : String :=
  f.package.getD ""

/-- The fully qualified name of a type of this file. -/
def qualifiedName (f : SourceFile) (t : TypeDecl) : String :=
  Signature.inPackage f.packageName t.name

end SourceFile

end CallPaths
