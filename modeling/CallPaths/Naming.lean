import CallPaths.Sorted.Map
import CallPaths.Source

/-!
# Declared types and qualified names

`Declarations` indexes the declared types of a list of files by qualified name.  On top of it,
`Declarations.qualify` gives a type name written somewhere in a file its qualified form, by the
scoping rules of the language: member types of the enclosing types from the inside out, the package,
single imports, imports on demand, and the types that every file imports.
-/

namespace CallPaths

open Text

/-! ### Written type names -/

/-- The names of the primitive types, and the name of no type. -/
def primitives : List String :=
  ["boolean", "byte", "char", "short", "int", "long", "float", "double", "void"]

/-- Whether a name is that of a primitive type. -/
def isPrimitive (name : String) : Bool :=
  primitives.contains name

/-- The types of `java.lang`, which every file imports. -/
def universalTypes : List String :=
  ["AutoCloseable", "Boolean", "Byte", "Character", "CharSequence", "Class",
    "ClassCastException", "Cloneable", "Comparable", "Double", "Enum", "Error",
    "Exception", "Float", "IllegalArgumentException", "IllegalStateException",
    "IndexOutOfBoundsException", "Integer", "InterruptedException", "Iterable", "Long",
    "Math", "NullPointerException", "Number", "Object", "Runnable", "RuntimeException",
    "Short", "String", "StringBuffer", "StringBuilder", "System", "Thread", "Throwable",
    "UnsupportedOperationException", "Void"]

/-- Drops blanks and everything between angle brackets, inside `depth` open brackets.  A closing
bracket without an opening one is dropped too. -/
def eraseFrom : Nat → List Char → List Char
  | _, [] => []
  | depth, '<' :: cs => eraseFrom (depth + 1) cs
  | depth, '>' :: cs => eraseFrom (depth - 1) cs
  | 0, c :: cs => if isBlank c then eraseFrom 0 cs else c :: eraseFrom 0 cs
  | depth + 1, _ :: cs => eraseFrom (depth + 1) cs

/-- A written type without type arguments and blanks. -/
def eraseGenerics (written : String) : String :=
  String.ofList (eraseFrom 0 written.toList)

/-- Splits an erased type into the element type and the marks of arrays or of varargs after it. -/
def splitMarks : List Char → List Char × List Char
  | [] => ([], [])
  | '[' :: cs => ([], '[' :: cs)
  | '.' :: '.' :: '.' :: cs => ([], '.' :: '.' :: '.' :: cs)
  | c :: cs =>
    let (base, marks) := splitMarks cs
    (c :: base, marks)

/-- The dotted names made of the segments of a reversed list: all of them, all but the last one, and
so on down to the first one alone. -/
def outwards : List String → List String
  | [] => []
  | s :: rest => joinWith "." (s :: rest).reverse :: outwards rest

/-- A dotted name and the names around it, from the inside out. -/
def nesting (name : String) : List String :=
  outwards (splitOn '.' name).reverse

/-- The names around a dotted name, from the inside out. -/
def outerNames (name : String) : List String :=
  (nesting name).drop 1

/-! ### Declared types -/

/-- A type declaration together with the file that it stands in. -/
structure Declared where
  file : SourceFile
  type : TypeDecl
deriving DecidableEq, Repr, Inhabited

namespace Declared

/-- The qualified name. -/
def qualifiedName (d : Declared) : String :=
  d.file.qualifiedName d.type

end Declared

/-- The type declarations of a list of files, in order. -/
def declaredTypes (files : List SourceFile) : List Declared :=
  files.flatMap fun f => f.types.map fun t => ⟨f, t⟩

/-- The declared types by qualified name. -/
structure Declarations where
  index : SortedMap String Declared := ∅

namespace Declarations

instance : Inhabited Declarations := ⟨⟨∅⟩⟩

/-- The index of a list of files; of several declarations of one name the first one counts. -/
def ofFiles (files : List SourceFile) : Declarations where
  index := (declaredTypes files).foldl (fun m d => m.insertIfNew d.qualifiedName d) ∅

/-- The declaration of a qualified name. -/
def lookup? (d : Declarations) (name : String) : Option Declared :=
  d.index.get? name

/-- Whether a qualified name is declared. -/
def isDeclared (d : Declarations) (name : String) : Bool :=
  d.index.contains name

/-- The number of declared types. -/
def size (d : Declarations) : Nat :=
  d.index.size

/-- What a simple name means as a member type of an enclosing type, or as the name of that type
itself. -/
def memberOf? (d : Declarations) (package name enclosing : String) : Option String :=
  let member := Signature.inPackage package (enclosing ++ "." ++ name)
  if d.isDeclared member then some member
  else if simpleName enclosing = name then some (Signature.inPackage package enclosing)
  else none

/-- What a simple name means in the types around it. -/
def enclosed? (d : Declarations) (package enclosing name : String) : Option String :=
  if enclosing = "" then none
  else (nesting enclosing).findSome? (d.memberOf? package name)

/-- What a simple name means in its package. -/
def inSamePackage? (d : Declarations) (package name : String) : Option String :=
  let candidate := Signature.inPackage package name
  if d.isDeclared candidate then some candidate else none

/-- What a simple name means by a single import. -/
def imported? (imports : List Import) (name : String) : Option String :=
  (imports.find? fun i => !i.isStatic && !i.onDemand && simpleName i.path = name).map (·.path)

/-- What a simple name means by an import on demand. -/
def importedOnDemand? (d : Declarations) (imports : List Import) (name : String) :
    Option String :=
  ((imports.filter fun i => !i.isStatic && i.onDemand).map fun i => i.path ++ "." ++ name).find?
    d.isDeclared

/-- What a simple name means as one of the types that every file imports. -/
def universal? (name : String) : Option String :=
  if universalTypes.contains name then some ("java.lang." ++ name) else none

/-- What a simple name means inside an enclosing type of a file. -/
def qualifySimple? (d : Declarations) (file : SourceFile) (enclosing name : String) :
    Option String :=
  (d.enclosed? file.packageName enclosing name).or <|
    (d.inSamePackage? file.packageName name).or <|
      (imported? file.imports name).or <|
        (d.importedOnDemand? file.imports name).or (universal? name)

/-- What a dotted name means inside an enclosing type of a file: its first segment is qualified if
that is possible, otherwise the whole name may be a declared one. -/
def qualifyBase? (d : Declarations) (file : SourceFile) (enclosing base : String) :
    Option String :=
  if isPrimitive base then some base
  else
    let head := base.toList.takeWhile (· != '.')
    let rest := base.toList.dropWhile (· != '.')
    match d.qualifySimple? file enclosing (String.ofList head) with
    | some q => some (q ++ String.ofList rest)
    | none => if d.isDeclared base then some base else none

/-- The qualified form of a type written inside an enclosing type of a file.  A name that cannot be
qualified is erased and otherwise left as it is written. -/
def qualify (d : Declarations) (file : SourceFile) (enclosing written : String) : String :=
  let erased := eraseFrom 0 written.toList
  let (base, marks) := splitMarks erased
  if base.isEmpty then String.ofList erased
  else
    match d.qualifyBase? file enclosing (String.ofList base) with
    | some q => q ++ String.ofList marks
    | none => String.ofList erased

/-- The qualified type of a parameter, none if the declaration gives no type. -/
def parameterType? (d : Declarations) (owner : Declared) (p : Parameter) : Option String :=
  if p.typeName = "" then none
  else
    let q := d.qualify owner.file owner.type.name p.typeName
    some (if p.varargs then q ++ "..." else q)

/-- The signature of a declared method, none if a parameter has no type. -/
def signatureOf? (d : Declarations) (owner : Declared) (m : MethodDecl) : Option Signature :=
  (m.parameters.mapM (d.parameterType? owner)).map fun ps =>
    { package := owner.file.packageName
      typeName := owner.type.name
      method := m.name
      parameters := ps }

end Declarations

end CallPaths
