import CallPaths.Failure
import CallPaths.Text.Blank
import CallPaths.Text.NameChars

/-!
# Method signatures

A signature names a method of the analysed sources: package, enclosing type (nested types joined
with dots), method name and parameter types.  It is the only key of the call graph.  Signatures are
ordered by these four parts, strings by their code points and parameter lists lexicographically.

`Signature.text` writes `package.Type.method(T1, T2)`, and `Signature.read?` reads that form.
-/

namespace CallPaths

open Text

/-- The identity of a method. -/
structure Signature where
  /-- The package, empty for the default package. -/
  package : String
  /-- The enclosing type; nested types are joined with dots. -/
  typeName : String
  /-- The name of the method. -/
  method : String
  /-- The qualified parameter types in order of declaration. -/
  parameters : List String
deriving DecidableEq, Repr, Inhabited

namespace Signature

/-- Comparison of the four parts one after another. -/
def comparison : Signature → Signature → Ordering :=
  compareLex (compareOn package)
    (compareLex (compareOn typeName) (compareLex (compareOn method) (compareOn parameters)))

instance : Ord Signature := ⟨comparison⟩

instance : Std.TransOrd Signature :=
  inferInstanceAs (Std.TransCmp (compareLex (compareOn package)
    (compareLex (compareOn typeName) (compareLex (compareOn method) (compareOn parameters)))))

instance : Std.LawfulEqOrd Signature where
  eq_of_compare {a b} h := by
    obtain ⟨p, t, m, ps⟩ := a
    obtain ⟨p', t', m', ps'⟩ := b
    replace h : comparison ⟨p, t, m, ps⟩ ⟨p', t', m', ps'⟩ = .eq := h
    simp only [comparison, compareLex, compareOn, Ordering.then_eq_eq] at h
    obtain ⟨h₁, h₂, h₃, h₄⟩ := h
    have e₁ := Std.LawfulEqOrd.eq_of_compare h₁
    have e₂ := Std.LawfulEqOrd.eq_of_compare h₂
    have e₃ := Std.LawfulEqOrd.eq_of_compare h₃
    have e₄ := Std.LawfulEqOrd.eq_of_compare h₄
    subst e₁ e₂ e₃ e₄
    rfl

/-- A dotted name made of a package, which may be empty, and a name in it. -/
def inPackage (package name : String) : String :=
  if package = "" then name else package ++ "." ++ name

/-- The fully qualified name of the enclosing type. -/
def qualifiedType (s : Signature) : String :=
  inPackage s.package s.typeName

/-- The short name shown in reports. -/
def displayName (s : Signature) : String :=
  s.typeName ++ "." ++ s.method

/-- The written form `package.Type.method(T1, T2)`. -/
def text (s : Signature) : String :=
  s.qualifiedType ++ "." ++ s.method ++ "(" ++ joinWith ", " s.parameters ++ ")"

/-- Whether two methods have the same name and the same parameter types, whatever their owners. -/
def sameShape (s t : Signature) : Bool :=
  s.method = t.method && s.parameters = t.parameters

/-! ### Reading -/

section Segments

variable (word : Char → Bool)

/-- The characters of the segments of a dotted name: word characters and dollar signs. -/
def isSegmentChar (c : Char) : Bool :=
  word c || c = '$'

/-- One segment of a dotted name: one or more segment characters. -/
def isSegment (cs : List Char) : Bool :=
  !cs.isEmpty && cs.all (isSegmentChar word)

end Segments

/-- Whether a segment starts with an upper-case letter of the ASCII range, as type names do. -/
def startsUpper : List Char → Bool
  | c :: _ => isAsciiUpper c
  | [] => false

/-- Splits the segments of a qualified type name into package and type name: the type name starts
at the first segment that starts with an upper-case letter, and is the last segment alone if there
is none. -/
def splitOwner (segments : List (List Char)) : List (List Char) × List (List Char) :=
  match segments.findIdx? startsUpper with
  | some i => (segments.take i, segments.drop i)
  | none => (segments.take (segments.length - 1), segments.drop (segments.length - 1))

/-- Segments as a dotted name. -/
def dotted (segments : List (List Char)) : String :=
  joinWith "." (segments.map String.ofList)

/-- Reads the text between the parentheses. -/
def readParameters (cs : List Char) : List String :=
  match trimChars cs with
  | [] => []
  | cs => (splitChars ',' cs).map fun p => String.ofList (trimChars p)

/-- Reads the written form from trimmed text.  What the word characters are is given by `word`. -/
def readChars? (word : Char → Bool) (cs : List Char) : Option Signature :=
  match cs.span (· != '(') with
  | (head, '(' :: tail) =>
    let inside := tail.dropLast
    if tail.getLast? = some ')' && inside.all (fun c => c != '(' && c != ')') then
      let segments := splitChars '.' head
      if segments.all (isSegment word) && 2 ≤ segments.length then
        let owner := splitOwner segments.dropLast
        some
          { package := dotted owner.1
            typeName := dotted owner.2
            method := String.ofList (segments.getLast?.getD [])
            parameters := readParameters inside }
      else none
    else none
  | _ => none

/-- Reads the written form with some word characters; blanks around it do not count. -/
def readWith? (word : Char → Bool) (s : String) : Except Failure Signature :=
  match readChars? word (trimChars s.toList) with
  | some sig => .ok sig
  | none => .error (.malformedSignature s)

/-- Reads the written form. -/
def read? (s : String) : Except Failure Signature :=
  readWith? isWord s

end Signature

end CallPaths
