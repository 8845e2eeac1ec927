import CallPaths.Snapshot

/-!
# Finding the method at a line

A target is given by a class name and a line.  A nested type may be named with or without the types
around it: `pkg.Outer.Inner` or `pkg.Inner`.
-/

namespace CallPaths

/-- The method declaration that a class name and a line point at. -/
structure Target where
  signature : Signature
  /-- The path of the file. -/
  file : String
  lineRange : LineRange
deriving DecidableEq, Repr, Inhabited

/-- Whether a class name denotes a declared type. -/
def Declared.isNamed (d : Declared) (className : String) : Bool :=
  d.qualifiedName = className ||
    ((outerName? d.type.name).isSome &&
      Signature.inPackage d.file.packageName (simpleName d.type.name) = className)

/-- The first method that a type declares over a line, with the type. -/
def Declared.methodAt? (line : Nat) (d : Declared) : Option (Declared × MethodDecl) :=
  (d.type.methods.find? (·.lineRange.contains line)).map fun m => (d, m)

namespace Snapshot

/-- The first method of a type of the given name over the line, in order of files, types and
methods. -/
def methodAt? (s : Snapshot) (className : String) (line : Nat) :
    Option (Declared × MethodDecl) :=
  ((declaredTypes s.files).filter (·.isNamed className)).findSome? (Declared.methodAt? line)

/-- The target at a line of a class. -/
def locate (s : Snapshot) (className : String) (line : Nat) : Except Failure Target :=
  match s.methodAt? className line with
  | none => .error (.noMethodAt className line)
  | some (owner, m) =>
    match s.declarations.signatureOf? owner m with
    | some signature => .ok ⟨signature, owner.file.path, m.lineRange⟩
    | none =>
      .error (.unresolvedMethod owner.qualifiedName m.name owner.file.path m.lineRange.first)

end Snapshot

end CallPaths
