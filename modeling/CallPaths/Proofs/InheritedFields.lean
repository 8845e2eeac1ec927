import CallPaths.Proofs.SnapshotIndexes
import Mathlib.Data.Nat.Find

/-!
# Fields of superclasses

The type of a field is searched for along the chain of superclasses.  Each superclass is a written
name that is qualified where it stands, so the chain may leave the declared types, and it may come
back to a class.  `Declarations.classAt?` is the class some steps up the chain, however long that
is.

The search keeps the names of the classes that it has been to.  While it goes on, they are names on
the chain before the present one, and no class before it has the field (`Declarations.Searching`).
So where the search comes to one of them again, the rest of the chain only repeats classes without
the field.  Each round that does not end the search visits a declared type for the first time, and
there are finitely many of them.

## Key results

- `Declarations.Searching.round`: what a round of the search does
- `Declarations.Searching.searchField?`: the search ends by itself, with the right answer
- `Declarations.fieldType?_chain`: the type of a field is that in the first class of the chain with
  it
-/

namespace CallPaths

namespace TypeDecl

variable {t : TypeDecl} {field : String}

private theorem fieldType?_eq_some_iff {written : String} :
    t.fieldType? field = some written ↔
      ∃ v, IsFirstOf t.fields (·.name = field) v ∧ written = v.typeName :=
  map_find?_eq_some_iff (fun v => by simp) written

private theorem fieldType?_eq_none_iff :
    t.fieldType? field = none ↔ ∀ v ∈ t.fields, v.name ≠ field := by
  simp [fieldType?]

end TypeDecl

namespace Declarations

open TypeDecl

variable (files : List SourceFile)

/-! ### The chain of superclasses -/

/-- The first declared type of a name. -/
def declared? (name : String) : Option Declared :=
  (declaredTypes files).find? (·.qualifiedName = name)

/-- The superclass of a type, if it is declared. -/
def superclass? (owner : Declared) : Option Declared :=
  owner.type.superclass.bind fun written =>
    declared? files ((ofFiles files).qualifyIn owner written)

/-- The class some steps up the chain of superclasses from a name; none if the chain ends before or
leaves the declared types. -/
def classAt? (name : String) : Nat → Option Declared
  | 0 => declared? files name
  | k + 1 => (classAt? name k).bind (superclass? files)

/-- A class some steps up the chain has the field, and no class before it has. -/
structure HasFirstField (name field : String) (k : Nat) (owner : Declared) (v : Variable) :
    Prop where
  reached : classAt? files name k = some owner
  first : IsFirstOf owner.type.fields (·.name = field) v
  nearer : ∀ j o, j < k → classAt? files name j = some o → ∀ v ∈ o.type.fields, v.name ≠ field

variable {files} {name field : String} {owner top : Declared} {k : Nat} {v : Variable}

/-- The chain goes on from the superclass of its first class. -/
private theorem classAt?_succ_of_declared (h : declared? files name = some owner) (k : Nat) :
    classAt? files name (k + 1) = owner.type.superclass.bind fun written =>
      classAt? files ((ofFiles files).qualifyIn owner written) k := by
  induction k with
  | zero =>
    rw [classAt?, classAt?, h]
    rfl
  | succ k ih =>
    rw [classAt?, ih]
    cases owner.type.superclass with
    | none => rfl
    | some written => rfl

private theorem classAt?_of_not_declared (h : declared? files name = none) (k : Nat) :
    classAt? files name k = none := by
  induction k with
  | zero => exact h
  | succ k ih =>
    rw [classAt?, ih]
    rfl

/-- If any class of the chain has the field, there is a first one. -/
private theorem exists_hasFirstField (h : classAt? files name k = some owner)
    (hv : v ∈ owner.type.fields) (hname : v.name = field) :
    ∃ j o w, HasFirstField files name field j o w := by
  classical
  have hex : ∃ k, ∃ o, classAt? files name k = some o ∧ ∃ v ∈ o.type.fields, v.name = field :=
    ⟨k, owner, h, v, hv, hname⟩
  obtain ⟨o, ho, hfield⟩ := Nat.find_spec hex
  have hsome : (o.type.fieldType? field).isSome := by
    rw [Option.isSome_iff_ne_none, ne_eq, fieldType?_eq_none_iff]
    obtain ⟨v, hv, hname⟩ := hfield
    exact fun hbarren => hbarren v hv hname
  obtain ⟨written, hwritten⟩ := Option.isSome_iff_exists.1 hsome
  obtain ⟨w, hw, -⟩ := fieldType?_eq_some_iff.1 hwritten
  refine ⟨Nat.find hex, o, w, ho, hw, fun j o' hj ho' v hv hname => ?_⟩
  exact Nat.find_min hex hj ⟨o', ho', v, hv, hname⟩

namespace HasFirstField

variable {k' : Nat} {top : Declared} {w : Variable}

/-- There is one first class with a field. -/
private theorem le (h : HasFirstField files name field k owner v)
    (h' : HasFirstField files name field k' top w) : k ≤ k' := by
  refine Nat.le_of_not_lt fun hlt => ?_
  exact h.nearer k' top hlt h'.reached w h'.first.mem h'.first.1

theorem unique (h : HasFirstField files name field k owner v)
    (h' : HasFirstField files name field k' top w) : owner = top ∧ v.typeName = w.typeName := by
  obtain rfl : k = k' := Nat.le_antisymm (h.le h') (h'.le h)
  obtain rfl : owner = top := Option.some.inj (h.reached.symm.trans h'.reached)
  have hv := fieldType?_eq_some_iff.2 ⟨v, h.first, rfl⟩
  have hw := fieldType?_eq_some_iff.2 ⟨w, h'.first, rfl⟩
  exact ⟨rfl, Option.some.inj (hv.symm.trans hw)⟩

end HasFirstField

/-! ### Rounds of the search -/

section Round

variable {d : Declarations} {visited : List String} {written : String}

private theorem fieldRound_visited (h : name ∈ visited) :
    d.fieldRound field visited name = .answer none := by
  simp [fieldRound, h]

private theorem fieldRound_undeclared (h : d.lookup? name = none) :
    d.fieldRound field visited name = .answer none := by
  simp [fieldRound, h]

variable (hnew : name ∉ visited) (hname : d.lookup? name = some owner)
include hnew hname

/-- A class with the field ends the search. -/
private theorem fieldRound_found (h : owner.type.fieldType? field = some written) :
    d.fieldRound field visited name = .answer (some (d.qualifyIn owner written)) := by
  simp [fieldRound, hnew, hname, h]

private theorem fieldRound_top (h : owner.type.fieldType? field = none)
    (htop : owner.type.superclass = none) :
    d.fieldRound field visited name = .answer none := by
  simp [fieldRound, hnew, hname, h, htop]

/-- A class without the field leaves the search to its superclass. -/
private theorem fieldRound_up (h : owner.type.fieldType? field = none)
    (hup : owner.type.superclass = some written) :
    d.fieldRound field visited name = .goOn (name :: visited) (d.qualifyIn owner written) := by
  simp [fieldRound, hnew, hname, h, hup]

end Round

variable (files) in
/-- An answer is the type of the field in the first class of the chain that has it, or none if no
class has it. -/
def Answers (start field : String) (answer : Option String) : Prop :=
  ∀ t, answer = some t ↔ ∃ k top v, HasFirstField files start field k top v ∧
    t = (ofFiles files).qualifyIn top v.typeName

theorem Answers.unique {start : String} {answer answer' : Option String}
    (h : Answers files start field answer) (h' : Answers files start field answer') :
    answer = answer' :=
  Option.ext fun t => (h t).trans (h' t).symm

variable (files) in
/-- A search has gone so many steps up the chain from its start and comes to a name. -/
structure Searching (start field : String) (k : Nat) (visited : List String) (name : String) :
    Prop where
  /-- The name stands for the rest of the chain. -/
  here : ∀ m, classAt? files start (k + m) = classAt? files name m
  /-- The visited names stand on the chain before. -/
  before : ∀ q ∈ visited, ∃ j < k, ∀ m, classAt? files start (j + m) = classAt? files q m
  barren : ∀ j o, j < k → classAt? files start j = some o → ∀ v ∈ o.type.fields, v.name ≠ field

namespace Searching

variable {start : String} {visited : List String}

theorem initial (files : List SourceFile) (start field : String) :
    Searching files start field 0 [] start where
  here m := by rw [Nat.zero_add]
  before q hq := by simp at hq
  barren j o hj := by omega

/-- Where the rest of the chain does not have the field, no class has it. -/
private theorem answers_none (h : Searching files start field k visited name)
    (hrest : ∀ m o, classAt? files name m = some o → ∀ v ∈ o.type.fields, v.name ≠ field) :
    Answers files start field none := by
  intro t
  constructor
  · intro ht
    cases ht
  · rintro ⟨i, top, v, hfirst, -⟩
    refine absurd hfirst.first.1 ?_
    by_cases hi : i < k
    · exact h.barren i top hi hfirst.reached v hfirst.first.mem
    · have hreached := hfirst.reached
      rw [show i = k + (i - k) by omega, h.here] at hreached
      exact hrest (i - k) top hreached v hfirst.first.mem

/-- Where the search comes back to a name, the rest of the chain repeats classes without the
field. -/
private theorem barren_of_visited (h : Searching files start field k visited name)
    (hname : name ∈ visited) (m : Nat) {o : Declared} (ho : classAt? files name m = some o) :
    ∀ v ∈ o.type.fields, v.name ≠ field := by
  obtain ⟨j, hj, hrepeat⟩ := h.before name hname
  -- each class stands some steps earlier on the chain as well, and in the end before the name
  induction m using Nat.strongRecOn generalizing o with
  | ind m ih =>
    have hearlier := hrepeat m
    rw [ho] at hearlier
    by_cases hlt : j + m < k
    · exact h.barren (j + m) o hlt hearlier
    · rw [show j + m = k + (j + m - k) by omega, h.here] at hearlier
      exact ih (j + m - k) (by omega) hearlier

/-- A class with the field answers the search. -/
private theorem answers_found (h : Searching files start field k visited name) {written : String}
    (hname : declared? files name = some owner)
    (hfield : owner.type.fieldType? field = some written) :
    Answers files start field (some ((ofFiles files).qualifyIn owner written)) := by
  obtain ⟨v, hv, rfl⟩ := fieldType?_eq_some_iff.1 hfield
  have hfirst : HasFirstField files start field k owner v := by
    refine ⟨?_, hv, h.barren⟩
    rw [← hname]
    exact h.here 0
  intro t
  constructor
  · rintro ⟨⟩
    exact ⟨k, owner, v, hfirst, rfl⟩
  · rintro ⟨k', top, w, hfirst', rfl⟩
    obtain ⟨rfl, htype⟩ := hfirst.unique hfirst'
    rw [htype]

/-- Above a class without the field, the search goes on with the superclass. -/
theorem up (h : Searching files start field k visited name) {written : String}
    (hname : declared? files name = some owner)
    (hbarren : ∀ v ∈ owner.type.fields, v.name ≠ field)
    (hup : owner.type.superclass = some written) :
    Searching files start field (k + 1) (name :: visited)
      ((ofFiles files).qualifyIn owner written) where
  here m := by
    rw [Nat.add_assoc, h.here, Nat.add_comm 1, classAt?_succ_of_declared hname, hup]
    rfl
  before q hq := by
    rcases List.mem_cons.1 hq with rfl | hq
    · exact ⟨k, by omega, h.here⟩
    · obtain ⟨j, hj, hq⟩ := h.before q hq
      exact ⟨j, by omega, hq⟩
  barren j o hj ho := by
    by_cases hlast : j = k
    · have hhere := h.here 0
      rw [Nat.add_zero, ← hlast, ho] at hhere
      obtain rfl : o = owner := Option.some.inj (hhere.trans hname)
      exact hbarren
    · exact h.barren j o (by omega) ho

/-- A round of the search either ends it with the right answer or visits another declared type and
goes on. -/
theorem round (h : Searching files start field k visited name) :
    let d := ofFiles files
    (∃ answer, d.fieldRound field visited name = .answer answer ∧
        Answers files start field answer) ∨
      ∃ visited' name', d.fieldRound field visited name = .goOn visited' name' ∧
        Searching files start field (k + 1) visited' name' ∧
        d.pending visited' < d.pending visited := by
  intro d
  have hlookup : d.lookup? name = declared? files name := lookup?_ofFiles files name
  by_cases hvisited : name ∈ visited
  · exact .inl ⟨none, fieldRound_visited hvisited,
      h.answers_none fun m o ho => h.barren_of_visited hvisited m ho⟩
  cases hname : declared? files name with
  | none =>
    refine .inl ⟨none, fieldRound_undeclared (hlookup.trans hname), h.answers_none fun m o ho => ?_⟩
    rw [classAt?_of_not_declared hname] at ho
    cases ho
  | some owner =>
    have howner : d.lookup? name = some owner := hlookup.trans hname
    cases hfield : owner.type.fieldType? field with
    | some written =>
      exact .inl ⟨_, fieldRound_found hvisited howner hfield, h.answers_found hname hfield⟩
    | none =>
      have hbarren := fieldType?_eq_none_iff.1 hfield
      cases hup : owner.type.superclass with
      | none =>
        refine .inl ⟨none, fieldRound_top hvisited howner hfield hup,
          h.answers_none fun m o ho => ?_⟩
        cases m with
        | zero =>
          obtain rfl : owner = o := Option.some.inj (hname.symm.trans ho)
          exact hbarren
        | succ m =>
          rw [classAt?_succ_of_declared hname, hup] at ho
          cases ho
      | some written =>
        exact .inr ⟨_, _, fieldRound_up hvisited howner hfield hup, h.up hname hbarren hup,
          pending_cons_lt hvisited howner⟩

/-- With one round more than declared types are left, the search is over, and its answer is
right. -/
theorem searchField? {rounds : Nat} (h : Searching files start field k visited name)
    (hrounds : (ofFiles files).pending visited < rounds) :
    ∃ answer, (ofFiles files).searchField? field rounds visited name = some answer ∧
      Answers files start field answer := by
  induction rounds generalizing k visited name with
  | zero => omega
  | succ rounds ih =>
    rw [Declarations.searchField?]
    rcases h.round with ⟨answer, hround, hanswer⟩ | ⟨visited', name', hround, hnext, hlt⟩
    · exact ⟨answer, by rw [hround], hanswer⟩
    · rw [hround]
      exact ih hnext (by omega)

end Searching

/-- The search for a field comes to an answer, and so many rounds are enough. -/
private theorem searchField?_of_size_lt {rounds : Nat} (h : (ofFiles files).size < rounds)
    (owner field : String) :
    (ofFiles files).searchField? field rounds [] owner =
        some ((ofFiles files).fieldType? owner field) ∧
      Answers files owner field ((ofFiles files).fieldType? owner field) := by
  have hstart := Searching.initial files owner field
  have hsize := (ofFiles files).pending_nil
  obtain ⟨answer, hanswer, hright⟩ := hstart.searchField? (hsize ▸ h)
  obtain ⟨answer', hanswer', hright'⟩ := hstart.searchField? (Nat.lt_succ_self _)
  have htype : (ofFiles files).fieldType? owner field = answer' := by
    rw [fieldType?, ← hsize, hanswer']
    rfl
  rw [htype, hanswer, hright.unique hright']
  exact ⟨rfl, hright'⟩

/-- The search for a field ends by itself on every chain of superclasses, also where the chain comes
back to a class or leaves the declared types: one round more than there are declared types is
enough.  It finds a type if and only if some class on the chain of declared superclasses has a field
of that name, and then that of the first such field in the first such class, qualified in the file
and the type that declare it. -/
theorem fieldType?_chain (files : List SourceFile) (owner field : String) :
    let d := ofFiles files
    (∀ rounds, d.size < rounds →
      d.searchField? field rounds [] owner = some (d.fieldType? owner field)) ∧
    ((d.fieldType? owner field).isSome ↔
      ∃ k top v, classAt? files owner k = some top ∧ v ∈ top.type.fields ∧ v.name = field) ∧
    ∀ t, d.fieldType? owner field = some t ↔ ∃ k top v,
      HasFirstField files owner field k top v ∧
        t = d.qualify top.file top.type.name v.typeName := by
  intro d
  have hanswer := (searchField?_of_size_lt (Nat.lt_succ_self d.size) owner field).2
  refine ⟨fun rounds hrounds => (searchField?_of_size_lt hrounds owner field).1, ?_, hanswer⟩
  rw [Option.isSome_iff_exists]
  constructor
  · rintro ⟨t, ht⟩
    obtain ⟨k, top, v, hfirst, -⟩ := (hanswer t).1 ht
    exact ⟨k, top, v, hfirst.reached, hfirst.first.mem, hfirst.first.1⟩
  · rintro ⟨k, top, v, hreached, hv, hname⟩
    obtain ⟨j, o, w, hfirst⟩ := exists_hasFirstField hreached hv hname
    exact ⟨_, (hanswer _).2 ⟨j, o, w, hfirst, rfl⟩⟩

/-- Two classes that are each other's superclass, the second one with a field. -/
def cyclicFile : SourceFile where
  package := some "p"
  types := [⟨"A", .classDecl, some "B", [], [], [], ⟨1, 1⟩⟩,
    ⟨"B", .classDecl, some "A", [], [⟨"f", "int"⟩], [], ⟨1, 1⟩⟩]
  path := "A.java"
  text := ""

/-- On a cycle of two classes the search for a field that neither of them has is over in the third
round, and not before.  The field of the second class is found from the first one. -/
theorem fieldType?_chain_cycle :
    let d := ofFiles [cyclicFile]
    classAt? [cyclicFile] "p.A" 2 = classAt? [cyclicFile] "p.A" 0 ∧
      d.searchField? "g" 2 [] "p.A" = none ∧
      (∀ rounds, 2 < rounds → d.searchField? "g" rounds [] "p.A" = some none) ∧
      d.fieldType? "p.A" "f" = some "int" := by
  intro d
  have hsize : d.size = 2 := by decide +zetaReduce
  have hnone : d.fieldType? "p.A" "g" = none := by decide +zetaReduce
  refine ⟨by decide, by decide +zetaReduce, fun rounds hrounds => ?_, ?_⟩
  · rw [← hnone]
    exact (fieldType?_chain [cyclicFile] "p.A" "g").1 rounds (hsize ▸ hrounds)
  · -- the field is that of the class one step up
    refine ((fieldType?_chain [cyclicFile] "p.A" "f").2.2 "int").2
      ⟨1, ⟨cyclicFile, _⟩, ⟨"f", "int"⟩, ⟨rfl, ⟨rfl, [], [], rfl, by simp⟩, ?_⟩, by decide⟩
    intro j o hj ho
    obtain rfl : j = 0 := by omega
    cases ho
    simp

end Declarations

end CallPaths
