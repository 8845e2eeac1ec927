import CallPaths.Signature

/-!
# Scopes

A scope limits an analysis to the types whose qualified name starts with a given text.
-/

namespace CallPaths

/-- A limit on qualified type names. -/
structure Scope where
  /-- The text that qualified type names have to start with. -/
  root : String
deriving DecidableEq, Repr, Inhabited

namespace Scope

/-- The scope of a written limit; blanks around it do not count. -/
def ofText (s : String) : Scope := ⟨Text.trim s⟩

/-- Whether a qualified type name lies inside the scope. -/
def containsType (scope : Scope) (qualifiedType : String) : Bool :=
  scope.root.toList.isPrefixOf qualifiedType.toList

/-- Whether a method's type lies inside the scope. -/
def contains (scope : Scope) (s : Signature) : Bool :=
  scope.containsType s.qualifiedType

end Scope

end CallPaths
