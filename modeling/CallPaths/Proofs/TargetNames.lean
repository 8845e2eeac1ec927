import CallPaths.Proofs.Records
import CallPaths.Proofs.Targets

/-!
# Exact and short names of targets

A class name may be the qualified name of one type and the short name of another one: `pkg.Inner` is
the type `Inner` of the package, and it is also short for a type `Inner` nested in another type of
the package.  The search for a target does not prefer one meaning.  It comes to the first method
over the line in order of files, types and methods, by whichever of the two names its type is meant.

So a nested type that is meant by its short name only is answered with, although the type with
exactly this name has a method over the line too, if and only if it is declared earlier.

## Key results

- `Snapshot.answersWith_of_isFirstAt`: what the search for a target answers with
- `IsFirstAt.qualifiedName_ne_iff`: when the first method belongs to a type of another name
- `Snapshot.locate_name_order`: which of the two meanings of a class name counts
- `Snapshot.locate_short_name_first`: a short name that counts before the exact one
-/

namespace CallPaths

/-! ### Two meanings of a class name -/

/-- A class name is short for a nested type: it is the package with the part of the nested name
after its last dot. -/
def Declared.HasShortName (d : Declared) (className : String) : Prop :=
  ∃ outer inner, d.type.name = outer ++ "." ++ inner ∧ '.' ∉ inner.toList ∧
    Signature.inPackage d.file.packageName inner = className

/-- A method over a line belongs to a type whose qualified name is the class name. -/
def NamedExactly (className : String) (line : Nat) (c : Declared × MethodDecl) : Prop :=
  c.1.qualifiedName = className ∧ c.2.lineRange.first ≤ line ∧ line ≤ c.2.lineRange.last

instance (className : String) (line : Nat) (c : Declared × MethodDecl) :
    Decidable (NamedExactly className line c) :=
  inferInstanceAs (Decidable (c.1.qualifiedName = className ∧
    c.2.lineRange.first ≤ line ∧ line ≤ c.2.lineRange.last))

/-- A method over a line belongs to a type that the class name means by its short name only. -/
def NamedShortly (className : String) (line : Nat) (c : Declared × MethodDecl) : Prop :=
  c.1.qualifiedName ≠ className ∧ c.1.HasShortName className ∧
    c.2.lineRange.first ≤ line ∧ line ≤ c.2.lineRange.last

/-- A method that is named by a short name only stands before all those that are named exactly. -/
def ShortNameFirst (files : List SourceFile) (className : String) (line : Nat) : Prop :=
  ∃ before c after, writtenMethods files = before ++ c :: after ∧ NamedShortly className line c ∧
    ∀ b ∈ before, ¬ NamedExactly className line b

section Meanings

variable {files : List SourceFile} {className : String} {line : Nat} {c : Declared × MethodDecl}

private theorem NamedExactly.pointsAt (h : NamedExactly className line c) :
    PointsAt className line c :=
  ⟨.inl h.1, h.2⟩

private theorem NamedShortly.pointsAt (h : NamedShortly className line c) :
    PointsAt className line c :=
  ⟨.inr h.2.1, h.2.2⟩

/-- A class name that points at a method of a type with another name is short for this type. -/
private theorem PointsAt.namedShortly (h : PointsAt className line c)
    (hne : c.1.qualifiedName ≠ className) : NamedShortly className line c := by
  obtain ⟨hname | hshort, hspan⟩ := h
  · exact absurd hname hne
  · exact ⟨hne, hshort, hspan⟩

/-- The first method belongs to a type of another name exactly if a short name stands first. -/
theorem IsFirstAt.qualifiedName_ne_iff (h : IsFirstAt files className line c) :
    c.1.qualifiedName ≠ className ↔ ShortNameFirst files className line := by
  obtain ⟨hpoints, before, after, hfiles, hbefore⟩ := h
  constructor
  · intro hne
    refine ⟨before, c, after, hfiles, hpoints.namedShortly hne, ?_⟩
    intro b hb hexact
    exact hbefore b hb hexact.pointsAt
  · rintro ⟨before', c', after', hfiles', hshort, hbefore'⟩ hname
    -- one of the two methods stands before the other one, or they are the same
    rw [hfiles'] at hfiles
    rcases List.append_eq_append_iff.1 hfiles with ⟨between, rfl, hrest⟩ | ⟨between, rfl, hrest⟩
    · cases between with
      | nil =>
        obtain rfl : c' = c := (List.cons.inj hrest).1
        exact hshort.1 hname
      | cons b between =>
        -- the method with the short name would be the first one
        obtain rfl : c' = b := (List.cons.inj hrest).1
        exact hbefore c' (by simp) hshort.pointsAt
    · cases between with
      | nil =>
        obtain rfl : c = c' := (List.cons.inj hrest).1
        exact hshort.1 hname
      | cons b between =>
        -- the method found is named exactly and stands before the one with the short name
        obtain rfl : c = b := (List.cons.inj hrest).1
        exact hbefore' c (by simp) ⟨hname, hpoints.2⟩

end Meanings

/-! ### Answers -/

namespace Snapshot

/-- The search for a target answers with a method of a type: with its signature and its place, or,
if one of its parameters has no type, with a failure that names the method. -/
def AnswersWith (s : Snapshot) (className : String) (line : Nat) (owner : Declared)
    (m : MethodDecl) : Prop :=
  (∃ signature, signature.qualifiedType = owner.qualifiedName ∧
      s.declarations.signatureOf? owner m = some signature ∧
      s.locate className line = .ok ⟨signature, owner.file.path, m.lineRange⟩) ∨
    ((∃ p ∈ m.parameters, p.typeName = "") ∧ s.locate className line =
      .error (.unresolvedMethod owner.qualifiedName m.name owner.file.path m.lineRange.first))

/-- The search for a target answers with the first method. -/
theorem answersWith_of_isFirstAt {s : Snapshot} {className : String} {line : Nat} {owner : Declared}
    {m : MethodDecl} (h : IsFirstAt s.files className line (owner, m)) :
    s.AnswersWith className line owner m := by
  cases hm : s.declarations.signatureOf? owner m with
  | none =>
    have huntyped := Declarations.signatureOf?_eq_none_iff.1 hm
    exact .inr ⟨huntyped, locate_of_untyped h huntyped⟩
  | some signature =>
    have htype := Declared.qualifiedType_of_signatureOf? hm
    exact .inl ⟨signature, htype, hm, locate_of_signature h hm⟩

/-- If the type with exactly the class name as its qualified name has a method over the line, the
search answers with the first method over the line among those of this type and those of nested
types with this short name, in order of files, types and methods.  It belongs to a type of another
name if and only if the class name is short for that type and one of its methods over the line
stands before all those of the type with the exact name. -/
theorem locate_name_order (files : List SourceFile) (scope : Scope) (className : String)
    (line : Nat) (h : ∃ e ∈ writtenMethods files, NamedExactly className line e) :
    ∃ owner m, IsFirstAt files className line (owner, m) ∧
      (build files scope).AnswersWith className line owner m ∧
      (owner.qualifiedName ≠ className ↔ ShortNameFirst files className line) := by
  obtain ⟨e, he, hexact⟩ := h
  have hsome : ¬ ∀ c ∈ writtenMethods files, ¬ PointsAt className line c := by
    intro hnone
    exact hnone e he hexact.pointsAt
  obtain ⟨owner, m, hfirst⟩ := exists_isFirstAt hsome
  exact ⟨owner, m, hfirst, answersWith_of_isFirstAt hfirst, hfirst.qualifiedName_ne_iff⟩

/-- A file with a nested type, and a file with a type whose qualified name is the short name of the
nested one, each with a method on the third line. -/
def sharedNameFiles : List SourceFile :=
  let method := fun name => (⟨name, [], ⟨3, 3⟩, "", none, none, [], []⟩ : MethodDecl)
  [{ package := some "p"
     types := [
       ⟨"Outer", .classDecl, none, [], [], [], ⟨2, 4⟩⟩,
       ⟨"Outer.Inner", .classDecl, none, [], [], [method "a"], ⟨2, 4⟩⟩]
     path := "p/Outer.java"
     text := "" },
    { package := some "p"
      types := [⟨"Inner", .classDecl, none, [], [], [method "b"], ⟨2, 4⟩⟩]
      path := "p/Inner.java"
      text := "" }]

/-- The type with the exact name has a method over the line, and the search answers with the first
one. -/
theorem locate_name_order_shared_name :
    (∃ e ∈ writtenMethods sharedNameFiles, NamedExactly "p.Inner" 3 e) ∧
      ∃ owner m, IsFirstAt sharedNameFiles "p.Inner" 3 (owner, m) ∧
        (build sharedNameFiles ⟨"p"⟩).AnswersWith "p.Inner" 3 owner m ∧
        (owner.qualifiedName ≠ "p.Inner" ↔ ShortNameFirst sharedNameFiles "p.Inner" 3) := by
  have hexact : ∃ e ∈ writtenMethods sharedNameFiles, NamedExactly "p.Inner" 3 e := by decide
  exact ⟨hexact, locate_name_order sharedNameFiles ⟨"p"⟩ "p.Inner" 3 hexact⟩

/-- A method over the line in the type with exactly the class name as its qualified name does not
keep the search from answering with a method of another type. -/
theorem locate_short_name_first :
    ¬ ∀ (files : List SourceFile) (scope : Scope) (className : String) (line : Nat),
      (∃ e ∈ writtenMethods files, NamedExactly className line e) →
        ∀ target, (build files scope).locate className line = .ok target →
          target.signature.qualifiedType = className := by
  intro hall
  have hexact : ∃ e ∈ writtenMethods sharedNameFiles, NamedExactly "p.Inner" 3 e := by decide
  have hlocate : (build sharedNameFiles ⟨"p"⟩).locate "p.Inner" 3 =
      .ok ⟨⟨"p", "Outer.Inner", "a", []⟩, "p/Outer.java", ⟨3, 3⟩⟩ := by rfl
  have htype := hall sharedNameFiles ⟨"p"⟩ "p.Inner" 3 hexact _ hlocate
  exact absurd htype (by decide)

end Snapshot

end CallPaths
