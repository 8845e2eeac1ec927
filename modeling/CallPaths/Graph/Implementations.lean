import CallPaths.Scope
import CallPaths.Sorted.Map
import CallPaths.Source

/-!
# Interface methods and their implementations

Which methods of classes implement which methods of interfaces, in both directions.  A method of a
class implements a method of an interface that the class lists when the names and the parameter
types agree exactly.
-/

namespace CallPaths

/-- A declared type with its names resolved. -/
structure ResolvedType where
  qualifiedName : String
  kind : TypeKind
  /-- The qualified names of the listed interfaces. -/
  interfaces : List String
  /-- The qualified name of the superclass. -/
  superclass : Option String
  /-- The signatures of the declared methods, in order of declaration. -/
  methods : List Signature
deriving DecidableEq, Repr, Inhabited

/-- The relation between interface methods and their implementations, in both directions. -/
structure Implementations where
  /-- The implementations of an interface method. -/
  implementations : SortedMap Signature (SortedSet Signature) := ∅
  /-- The interface methods that a method implements. -/
  interfaces : SortedMap Signature (SortedSet Signature) := ∅

/-- Adds a member to the set at a key. -/
def SortedMap.addTo (m : SortedMap Signature (SortedSet Signature)) (k a : Signature) :
    SortedMap Signature (SortedSet Signature) :=
  m.alter k fun old => (old.getD ∅).insert a

namespace Implementations

instance : EmptyCollection Implementations := ⟨⟨∅, ∅⟩⟩

instance : Inhabited Implementations := ⟨∅⟩

/-- Relates an interface method to an implementation of it. -/
def insert (m : Implementations) (interfaceMethod implementation : Signature) :
    Implementations where
  implementations := m.implementations.addTo interfaceMethod implementation
  interfaces := m.interfaces.addTo implementation interfaceMethod

/-- The interface with a given name, if one is declared inside the scope. -/
def interfaceNamed? (types : SortedMap String ResolvedType) (scope : Scope) (name : String) :
    Option ResolvedType :=
  match types.get? name with
  | some t => if t.kind = .interfaceDecl && scope.containsType name then some t else none
  | none => none

/-- The pairs of interface method and implementation that one type contributes. -/
def pairsOf (types : SortedMap String ResolvedType) (scope : Scope) (t : ResolvedType) :
    List (Signature × Signature) :=
  if t.kind = .interfaceDecl || !scope.containsType t.qualifiedName then []
  else
    (t.interfaces.filterMap (interfaceNamed? types scope)).flatMap fun i =>
      t.methods.flatMap fun m =>
        (i.methods.filter (·.sameShape m)).map fun declared => (declared, m)

/-- The relation that the declared types give inside a scope. -/
def build (types : SortedMap String ResolvedType) (scope : Scope) : Implementations :=
  (types.values.flatMap (pairsOf types scope)).foldl (fun m p => m.insert p.1 p.2) ∅

/-- The implementations of an interface method. -/
def implementationsOf? (m : Implementations) (s : Signature) : Option (SortedSet Signature) :=
  m.implementations.get? s

/-- The least implementation of an interface method. -/
def firstImplementation? (m : Implementations) (s : Signature) : Option Signature :=
  (m.implementationsOf? s).bind (·.min?)

/-- The interface methods that a method implements. -/
def interfacesOf? (m : Implementations) (s : Signature) : Option (SortedSet Signature) :=
  m.interfaces.get? s

/-- The interface methods that a method belongs to: itself, if it has implementations, and those
that it implements. -/
def rootsOf (m : Implementations) (s : Signature) : List Signature :=
  (if m.implementations.contains s then [s] else []) ++
    ((m.interfacesOf? s).getD ∅).toList

/-- All methods related to a method: the interface methods it belongs to, with all their
implementations. -/
def siblings (m : Implementations) (s : Signature) : SortedSet Signature :=
  (m.rootsOf s).foldl
    (fun acc r => ((m.implementationsOf? r).getD ∅).union (acc.insert r)) ∅

/-- The number of interface methods with an implementation. -/
def size (m : Implementations) : Nat := m.implementations.size

/-- Whether no method implements another one. -/
def isEmpty (m : Implementations) : Bool := m.size = 0

end Implementations

end CallPaths
