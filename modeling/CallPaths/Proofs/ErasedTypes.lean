import CallPaths.Proofs.Targets
import Mathlib.Data.List.Forall2
import Mathlib.Data.List.Infix
import Mathlib.Logic.Relation

/-!
# Erased types

A written type is erased by a scan that counts open angle brackets: what stands inside brackets is
dropped, and so are blanks.  A list of type arguments in balanced brackets adds nothing to what the
scan keeps and leaves its count as it was, wherever it stands (`eraseFrom_arguments`).

After the scan, the marks of arrays are split off before the name is qualified, and are put back
behind it.  So more marks of arrays behind a type are marks behind the qualified type, whether or
not the name can be qualified (`Declarations.qualify_of_marks`).

## Key results

- `eraseFrom_append`: the scan goes on with the count that it has reached
- `eraseFrom_eq_of_sameType`: types that differ in type arguments and blanks are erased alike
- `Declarations.qualify_erased`: qualified types and signatures do not depend on type arguments
-/

namespace CallPaths

open Text

/-! ### The count of open brackets -/

/-- The number of open brackets after a character; a closing bracket without an opening one does not
count. -/
def bracketStep (depth : Nat) (c : Char) : Nat :=
  if c = '<' then depth + 1 else if c = '>' then depth - 1 else depth

/-- The number of open brackets after a text. -/
def depthAfter (depth : Nat) (cs : List Char) : Nat :=
  cs.foldl bracketStep depth

/-- What erasure keeps of a character inside some open brackets. -/
def keptAt (depth : Nat) (c : Char) : List Char :=
  if depth = 0 ∧ c ≠ '<' ∧ c ≠ '>' ∧ isBlank c = false then [c] else []

private theorem eraseFrom_cons (depth : Nat) (c : Char) (cs : List Char) :
    eraseFrom depth (c :: cs) = keptAt depth c ++ eraseFrom (bracketStep depth c) cs := by
  rw [eraseFrom.eq_def]
  split
  · next heq => cases heq
  · next heq =>
    cases heq
    simp [keptAt, bracketStep]
  · next heq =>
    cases heq
    simp [keptAt, bracketStep]
  · -- outside of all brackets
    next hopen hclose heq =>
    cases heq
    have hother : c ≠ '<' ∧ c ≠ '>' := ⟨hopen, hclose⟩
    by_cases hblank : isBlank c = true <;> simp [keptAt, bracketStep, hother, hblank]
  · next hopen hclose heq =>
    cases heq
    have hother : c ≠ '<' ∧ c ≠ '>' := ⟨hopen, hclose⟩
    simp [keptAt, bracketStep, hother]

/-- The scan goes on with the count that it has reached. -/
theorem eraseFrom_append (depth : Nat) (as bs : List Char) :
    eraseFrom depth (as ++ bs) = eraseFrom depth as ++ eraseFrom (depthAfter depth as) bs := by
  induction as generalizing depth with
  | nil => rfl
  | cons c as ih =>
    rw [List.cons_append, eraseFrom_cons, eraseFrom_cons, ih, List.append_assoc]
    rfl

/-- A text without angle brackets and blanks is kept whole. -/
theorem eraseFrom_eq_self {cs : List Char}
    (h : ∀ c ∈ cs, c ≠ '<' ∧ c ≠ '>' ∧ isBlank c = false) : eraseFrom 0 cs = cs := by
  induction cs with
  | nil => rfl
  | cons c cs ih =>
    obtain ⟨hc, hcs⟩ := List.forall_mem_cons.1 h
    have hstep : bracketStep 0 c = 0 := by simp [bracketStep, hc.1, hc.2.1]
    have hkept : keptAt 0 c = [c] := if_pos ⟨rfl, hc⟩
    rw [eraseFrom_cons, hstep, hkept, ih hcs]
    rfl

/-! ### Balanced brackets -/

/-- Angle brackets are balanced: no beginning of the text closes more of them than it opens, and the
whole text closes all that it opens. -/
structure IsBalanced (cs : List Char) : Prop where
  nested : ∀ before, before <+: cs → before.count '>' ≤ before.count '<'
  closed : cs.count '>' = cs.count '<'

instance : DecidablePred IsBalanced := fun cs =>
  decidable_of_iff ((∀ before ∈ cs.inits, before.count '>' ≤ before.count '<') ∧
      cs.count '>' = cs.count '<')
    ⟨fun h => ⟨fun before hbefore => h.1 before ((List.mem_inits _ _).2 hbefore), h.2⟩,
      fun h => ⟨fun before hbefore => h.nested before ((List.mem_inits _ _).1 hbefore), h.closed⟩⟩

/-- Nothing is kept as long as a bracket is open. -/
private theorem eraseFrom_of_open {depth : Nat} {cs : List Char}
    (h : ∀ before, before <+: cs → before.count '>' < before.count '<' + depth)
    (after : List Char) :
    eraseFrom depth (cs ++ after) =
      eraseFrom (depth + cs.count '<' - cs.count '>') after := by
  induction cs generalizing depth with
  | nil => simp
  | cons c cs ih =>
    have hpos : 0 < depth := by simpa using h [] List.nil_prefix
    have hkept : keptAt depth c = [] := if_neg fun hzero => by omega
    have hrest : ∀ before, before <+: cs →
        before.count '>' < before.count '<' + bracketStep depth c := by
      intro before hbefore
      have hcons := h (c :: before) (List.cons_prefix_cons.2 ⟨rfl, hbefore⟩)
      simp only [List.count_cons, beq_iff_eq] at hcons
      unfold bracketStep
      grind
    rw [List.cons_append, eraseFrom_cons, hkept, List.nil_append, ih hrest]
    congr 1
    simp only [List.count_cons, beq_iff_eq, bracketStep]
    grind

/-- A list of type arguments is dropped, and the scan goes on as if it were not there. -/
theorem eraseFrom_arguments {g : List Char} (h : IsBalanced g) (depth : Nat) (after : List Char) :
    eraseFrom depth ('<' :: g ++ '>' :: after) = eraseFrom depth after := by
  have hopen : ∀ before, before <+: g → before.count '>' < before.count '<' + (depth + 1) := by
    intro before hbefore
    have := h.nested before hbefore
    omega
  have hclosed : depth + 1 + g.count '<' - g.count '>' = depth + 1 := by
    have := h.closed
    omega
  calc eraseFrom depth ('<' :: g ++ '>' :: after)
      = eraseFrom (depth + 1) (g ++ '>' :: after) := rfl
    _ = eraseFrom (depth + 1) ('>' :: after) := by rw [eraseFrom_of_open hopen, hclosed]
    _ = eraseFrom depth after := rfl

private theorem eraseFrom_blank {c : Char} (h : isBlank c = true) (depth : Nat)
    (after : List Char) : eraseFrom depth (c :: after) = eraseFrom depth after := by
  have hopen : c ≠ '<' := by rintro rfl; exact absurd h (by decide)
  have hclose : c ≠ '>' := by rintro rfl; exact absurd h (by decide)
  simp [eraseFrom_cons, keptAt, bracketStep, h, hopen, hclose]

/-- A text with type arguments or a blank put into it. -/
inductive Inserts : List Char → List Char → Prop
  | arguments (before : List Char) {g : List Char} (after : List Char) (balanced : IsBalanced g) :
      Inserts (before ++ after) (before ++ ('<' :: g ++ '>' :: after))
  | blank (before : List Char) {c : Char} (after : List Char) (blank : isBlank c = true) :
      Inserts (before ++ after) (before ++ c :: after)

/-- Two written types differ in type arguments and blanks only. -/
def SameType (a b : String) : Prop :=
  Relation.EqvGen Inserts a.toList b.toList

/-- Two parameters have types, and these differ in type arguments and blanks only. -/
structure SameParameter (p p' : Parameter) : Prop where
  varargs : p.varargs = p'.varargs
  typed : p.typeName ≠ ""
  typed' : p'.typeName ≠ ""
  types : SameType p.typeName p'.typeName

private theorem eraseFrom_eq_of_inserts {as bs : List Char} (h : Inserts as bs) :
    eraseFrom 0 as = eraseFrom 0 bs := by
  cases h with
  | arguments before after balanced =>
    rw [eraseFrom_append, eraseFrom_append, eraseFrom_arguments balanced]
  | blank before after blank => rw [eraseFrom_append, eraseFrom_append, eraseFrom_blank blank]

/-- Types that differ in type arguments and blanks only are erased alike. -/
theorem eraseFrom_eq_of_sameType {a b : String} (h : SameType a b) :
    eraseFrom 0 a.toList = eraseFrom 0 b.toList := by
  unfold SameType at h
  generalize a.toList = as, b.toList = bs at h
  induction h with
  | rel as bs h => exact eraseFrom_eq_of_inserts h
  | refl as => rfl
  | symm as bs h ih => exact ih.symm
  | trans as bs cs h h' ih ih' => exact ih.trans ih'

/-! ### Marks of arrays -/

/-- The marks of an array of some dimensions. -/
def arrayMarks (n : Nat) : List Char :=
  (List.replicate n ['[', ']']).flatten

/-- Marks of arrays are none or start with a bracket. -/
def StartsWithBracket (marks : List Char) : Prop :=
  marks = [] ∨ ∃ rest, marks = '[' :: rest

private theorem startsWithBracket_arrayMarks (n : Nat) : StartsWithBracket (arrayMarks n) := by
  cases n with
  | zero => exact .inl rfl
  | succ n => exact .inr ⟨']' :: arrayMarks n, by simp [arrayMarks, List.replicate_succ]⟩

private theorem eraseFrom_arrayMarks (n : Nat) : eraseFrom 0 (arrayMarks n) = arrayMarks n := by
  refine eraseFrom_eq_self fun c hc => ?_
  have hmark : c = '[' ∨ c = ']' := by
    obtain ⟨l, hl, hc⟩ := List.mem_flatten.1 hc
    simpa [List.eq_of_mem_replicate hl] using hc
  rcases hmark with rfl | rfl <;> decide

/-- Marks behind a type belong to its marks. -/
private theorem splitMarks_append (cs : List Char) {marks : List Char}
    (h : StartsWithBracket marks) :
    splitMarks (cs ++ marks) = ((splitMarks cs).1, (splitMarks cs).2 ++ marks) := by
  fun_induction splitMarks cs with
  | case1 => rcases h with rfl | ⟨rest, rfl⟩ <;> rfl
  | case2 cs => rfl
  | case3 cs => rfl
  | case4 c cs hopen hdots base rest hsplit ih =>
    rw [hsplit] at ih
    rw [List.cons_append, splitMarks, ih]
    · simpa using hopen
    · -- the marks start with no dot, so they do not complete three dots
      rintro after rfl heq
      rcases h with rfl | ⟨rest, rfl⟩
      · exact hdots after rfl (by simpa using heq)
      · match cs with
        | [] | [d] => simp at heq
        | d :: e :: cs => exact hdots cs rfl (by simp_all)

namespace Declarations

variable (d : Declarations) (file : SourceFile) (enclosing : String)

/-- A written type is qualified by what is left after erasure. -/
theorem qualify_eq (written : String) :
    d.qualify file enclosing written =
      if (splitMarks (eraseFrom 0 written.toList)).1.isEmpty then
        String.ofList (eraseFrom 0 written.toList)
      else
        match d.qualifyBase? file enclosing
            (String.ofList (splitMarks (eraseFrom 0 written.toList)).1) with
        | some q => q ++ String.ofList (splitMarks (eraseFrom 0 written.toList)).2
        | none => String.ofList (eraseFrom 0 written.toList) :=
  rfl

private theorem qualify_congr {a b : String} (h : eraseFrom 0 a.toList = eraseFrom 0 b.toList) :
    d.qualify file enclosing a = d.qualify file enclosing b := by
  rw [qualify_eq, qualify_eq, h]

/-- Marks of arrays that are left behind a type after erasure stand behind the qualified type. -/
theorem qualify_of_marks {a b : String} {marks : List Char} (hmarks : StartsWithBracket marks)
    (h : eraseFrom 0 b.toList = eraseFrom 0 a.toList ++ marks) :
    d.qualify file enclosing b = d.qualify file enclosing a ++ String.ofList marks := by
  rw [qualify_eq, qualify_eq, h, splitMarks_append _ hmarks]
  generalize splitMarks (eraseFrom 0 a.toList) = parts
  by_cases hempty : parts.1.isEmpty = true
  · rw [if_pos hempty, if_pos hempty, String.ofList_append]
  · rw [if_neg hempty, if_neg hempty]
    -- the name is qualified with the marks behind it, or all that is left is kept
    cases d.qualifyBase? file enclosing (String.ofList parts.1) with
    | none => exact String.ofList_append
    | some q => simp [String.append_assoc]

/-! ### Signatures -/

private theorem parameterType?_eq_of_sameParameter {owner : Declared} {p p' : Parameter}
    (h : SameParameter p p') : d.parameterType? owner p = d.parameterType? owner p' := by
  have htypes := d.qualify_congr owner.file owner.type.name (eraseFrom_eq_of_sameType h.types)
  simp only [parameterType?, if_neg h.typed, if_neg h.typed', h.varargs, htypes]

private theorem mapM_parameterType?_eq {owner : Declared} {ps ps' : List Parameter}
    (h : List.Forall₂ SameParameter ps ps') :
    ps.mapM (d.parameterType? owner) = ps'.mapM (d.parameterType? owner) := by
  induction h with
  | nil => rfl
  | cons hp hps ih =>
    rw [List.mapM_cons, List.mapM_cons, parameterType?_eq_of_sameParameter d hp, ih]

/-- Type arguments and marks of arrays.  A list of type arguments behind a type that leaves no
bracket open does not count, and marks of arrays behind it stay behind the qualified type.  Methods
of one type and name have the same signature if their parameters have types that differ in type
arguments and blanks only. -/
theorem qualify_erased (files : List SourceFile) (file : SourceFile) (enclosing : String) :
    let d := ofFiles files
    (∀ (a g : String) (n : Nat), depthAfter 0 a.toList = 0 → IsBalanced g.toList →
      let marks := String.ofList (arrayMarks n)
      d.qualify file enclosing (a ++ "<" ++ g ++ ">" ++ marks) =
          d.qualify file enclosing a ++ marks ∧
        d.qualify file enclosing (a ++ marks) = d.qualify file enclosing a ++ marks) ∧
      ∀ (owner : Declared) (m m' : MethodDecl), m.name = m'.name →
        List.Forall₂ SameParameter m.parameters m'.parameters →
          ∃ s, d.signatureOf? owner m = some s ∧ d.signatureOf? owner m' = some s := by
  intro d
  refine ⟨fun a g n hdepth hbalanced => ⟨?_, ?_⟩, fun owner m m' hname hparameters => ?_⟩
  · refine d.qualify_of_marks file enclosing (startsWithBracket_arrayMarks n) ?_
    have htext : (a ++ "<" ++ g ++ ">" ++ String.ofList (arrayMarks n)).toList =
        a.toList ++ ('<' :: g.toList ++ '>' :: arrayMarks n) := by simp
    rw [htext, eraseFrom_append, hdepth, eraseFrom_arguments hbalanced, eraseFrom_arrayMarks]
  · refine d.qualify_of_marks file enclosing (startsWithBracket_arrayMarks n) ?_
    rw [String.toList_append, String.toList_ofList, eraseFrom_append, hdepth, eraseFrom_arrayMarks]
  · have htyped : ∀ p ∈ m.parameters, p.typeName ≠ "" :=
      ((List.forall₂_and_left _ _).1 (hparameters.imp fun p p' h => ⟨h.typed, h⟩)).1
    obtain ⟨s, hs⟩ := exists_signatureOf? d owner htyped
    refine ⟨s, hs, ?_⟩
    rw [← hs, signatureOf?, signatureOf?, mapM_parameterType?_eq d hparameters, hname]

/-- A file that declares a generic class. -/
def genericFile : SourceFile where
  package := some "p"
  types := [⟨"Box", .classDecl, none, [], [], [], ⟨1, 1⟩⟩]
  path := "Box.java"
  text := ""

/-- A method with one parameter of a type. -/
def taking (type : String) : MethodDecl :=
  ⟨"put", [⟨"x", type, false⟩], ⟨1, 1⟩, "", none, none, [], []⟩

/-- Nested type arguments of a declared class. -/
theorem qualify_erased_nested :
    let d := ofFiles [genericFile]
    let owner : Declared := ⟨genericFile, ⟨"Box", .classDecl, none, [], [], [], ⟨1, 1⟩⟩⟩
    (depthAfter 0 "Box".toList = 0 ∧ IsBalanced "K,Box<V>".toList ∧
        d.qualify genericFile "Box" "Box" = "p.Box" ∧
        d.qualify genericFile "Box" "Box<K,Box<V>>[]" = "p.Box" ++ "[]") ∧
      SameType "Box<K>" "Box" ∧
      ∃ s, d.signatureOf? owner (taking "Box<K>") = some s ∧
        d.signatureOf? owner (taking "Box") = some s ∧ s.parameters = ["p.Box"] := by
  intro d owner
  have hall := qualify_erased [genericFile] genericFile "Box"
  have hdepth : depthAfter 0 "Box".toList = 0 := by decide
  have hbalanced : IsBalanced "K,Box<V>".toList := by decide
  have hname : d.qualify genericFile "Box" "Box" = "p.Box" := by decide +zetaReduce
  have hsame : SameType "Box<K>" "Box" :=
    .symm _ _ (.rel _ _ (.arguments "Box".toList [] (by decide : IsBalanced ['K'])))
  refine ⟨⟨hdepth, hbalanced, hname, ?_⟩, hsame, ?_⟩
  · rw [← hname]
    exact (hall.1 "Box" "K,Box<V>" 1 hdepth hbalanced).1
  · obtain ⟨s, hs, hs'⟩ := hall.2 owner (taking "Box<K>") (taking "Box") rfl
      (.cons ⟨rfl, by decide, by decide, hsame⟩ .nil)
    refine ⟨s, hs, hs', ?_⟩
    have heval : (d.signatureOf? owner (taking "Box")).map (·.parameters) = some ["p.Box"] := by
      decide +zetaReduce
    rw [hs'] at heval
    exact Option.some.inj heval

end Declarations

end CallPaths
