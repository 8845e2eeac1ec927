import CallPaths.Proofs.ErasedTypes
import CallPaths.Proofs.SnapshotIndexes

/-!
# What simple names mean

A simple name means a type by the scopes around it.  The enclosing types come first, from the inside
out: the name may be that of a member type or of the enclosing type itself.  The package, single
imports, imports on demand and the types that every file imports follow, and a name that means
nothing else stands for itself.  `meanings` lists these scopes, and `FirstMeaning` is what the first
of them that knows the name says.

The innermost enclosing type is found on dotted names, by cutting off one segment after another;
`Binds` speaks of the segments themselves.

## Key results

- `Declarations.enclosed?_eq_some_iff`: the innermost enclosing type that binds a name
- `Declarations.qualifySimple?_or_eq_some_iff`: the scopes one after another
- `Declarations.qualify_lexical`: the meaning of simple names and of the dotted names that start
  with them
-/

namespace CallPaths

open Text Signature

/-! ### Names -/

/-- Some file declares a type of this qualified name. -/
def DeclaresType (files : List SourceFile) (q : String) : Prop :=
  ∃ t ∈ declaredTypes files, t.qualifiedName = q

/-- Nothing of the text is dropped by erasure. -/
def IsPlain (s : String) : Prop :=
  ∀ c ∈ s.toList, c ≠ '<' ∧ c ≠ '>' ∧ isBlank c = false

/-- A segment of a dotted name. -/
def IsNameSegment (s : String) : Prop :=
  s ≠ "" ∧ '.' ∉ s.toList

/-- A simple name: one segment, and nothing but a name. -/
structure IsSimpleName (s : String) : Prop where
  segment : IsNameSegment s
  plain : IsPlain s
  noBracket : '[' ∉ s.toList

/-- A path ends with a simple name. -/
def EndsIn (name path : String) : Prop :=
  path = name ∨ ∃ outer, path = outer ++ "." ++ name

private theorem simpleName_of_not_mem {name : String} (h : '.' ∉ name.toList) :
    simpleName name = name := by
  simp [simpleName, splitOn, splitChars_of_not_mem h]

private theorem simpleName_eq_iff_endsIn {name path : String} (h : '.' ∉ name.toList) :
    simpleName path = name ↔ EndsIn name path := by
  constructor
  · rintro rfl
    by_cases hdot : '.' ∈ path.toList
    · obtain ⟨outer, inner, rfl, hinner⟩ := exists_dotted_of_mem hdot
      rw [(simpleName_of_dotted outer hinner).2]
      exact .inr ⟨outer, rfl⟩
    · exact .inl (simpleName_of_not_mem hdot).symm
  · rintro (rfl | ⟨outer, rfl⟩)
    · exact simpleName_of_not_mem h
    · exact (simpleName_of_dotted outer h).2

/-! ### Scopes -/

section

variable (files : List SourceFile) (file : SourceFile) (segments : List String) (name : String)

/-- The name of the type that the first `k` segments lead to, and of a member of it. -/
def memberName (k : Nat) : String :=
  inPackage file.packageName (joinWith "." (segments.take k ++ [name]))

/-- The enclosing type with the first `k` segments says what a name means: it has a member type of
this name, or the name is its own. -/
def Binds (k : Nat) : Prop :=
  1 ≤ k ∧ k ≤ segments.length ∧
    (DeclaresType files (memberName file segments name k) ∨ segments[k - 1]? = some name)

/-- What the innermost enclosing type that knows the name says; a member type hides the type
itself. -/
def EnclosedMeaning (q : String) : Prop :=
  ∃ k, Binds files file segments name k ∧ (∀ j, Binds files file segments name j → j ≤ k) ∧
    ((DeclaresType files (memberName file segments name k) ∧
        q = memberName file segments name k) ∨
      (¬ DeclaresType files (memberName file segments name k) ∧
        q = inPackage file.packageName (joinWith "." (segments.take k))))

/-- A type of the same package. -/
def PackageMeaning (q : String) : Prop :=
  DeclaresType files (inPackage file.packageName name) ∧ q = inPackage file.packageName name

/-- The path of the first single import that ends with the name. -/
def ImportedMeaning (q : String) : Prop :=
  ∃ i, IsFirstOf file.imports
      (fun i => i.isStatic = false ∧ i.onDemand = false ∧ EndsIn name i.path) i ∧ q = i.path

/-- The first declared type of the name that is imported on demand. -/
def OnDemandMeaning (q : String) : Prop :=
  ∃ i, IsFirstOf file.imports
      (fun i => i.isStatic = false ∧ i.onDemand = true ∧ DeclaresType files (i.path ++ "." ++ name))
      i ∧ q = i.path ++ "." ++ name

/-- A type that every file imports. -/
def UniversalMeaning (q : String) : Prop :=
  name ∈ universalTypes ∧ q = "java.lang." ++ name

/-- The scopes that may say what a name means, one that hides others before them.  A name that none
of them knows stands for itself. -/
def meanings : List (String → Prop) :=
  [EnclosedMeaning files file segments name, PackageMeaning files file name,
    ImportedMeaning file name, OnDemandMeaning files file name, UniversalMeaning name, (· = name)]

end

/-- What the first of some scopes that says anything says. -/
def FirstMeaning : List (String → Prop) → String → Prop
  | [], _ => False
  | m :: ms, q => m q ∨ ((∀ q', ¬ m q') ∧ FirstMeaning ms q)

private theorem firstMeaning_or {m : String → Prop} {ms : List (String → Prop)}
    {o o' : Option String}
    (h : ∀ q, o = some q ↔ m q) (h' : ∀ q, o' = some q ↔ FirstMeaning ms q) (q : String) :
    o.or o' = some q ↔ FirstMeaning (m :: ms) q := by
  simp only [FirstMeaning, ← h, ← h']
  cases o with
  | none => simp
  | some a => simp

/-! ### The innermost enclosing type -/

/-- The names around joined segments are searched from the longest beginning on. -/
private theorem findSome?_outwards {β : Type} (f : String → Option β) (segments : List String)
    (b : β) : (outwards segments.reverse).findSome? f = some b ↔
      ∃ k, 1 ≤ k ∧ k ≤ segments.length ∧ f (joinWith "." (segments.take k)) = some b ∧
        ∀ j, k < j → j ≤ segments.length → f (joinWith "." (segments.take j)) = none := by
  induction segments using List.reverseRecOn with
  | nil =>
    simp only [List.reverse_nil, outwards, List.findSome?_nil, List.length_nil]
    constructor
    · intro h
      cases h
    · rintro ⟨k, hone, hzero, -⟩
      omega
  | append_singleton segments s ih =>
    have htake : ∀ k, k ≤ segments.length → (segments ++ [s]).take k = segments.take k :=
      fun k hk => List.take_append_of_le_length hk
    have hall : (segments ++ [s]).take (segments.length + 1) = segments ++ [s] :=
      List.take_of_length_le (by simp)
    rw [List.reverse_append, List.reverse_singleton, List.singleton_append, outwards,
      List.findSome?_cons, List.reverse_cons, List.reverse_reverse, List.length_append,
      List.length_singleton]
    cases hf : f (joinWith "." (segments ++ [s])) with
    | some a =>
      -- all segments together are searched first
      simp only [Option.some.injEq]
      constructor
      · rintro rfl
        refine ⟨segments.length + 1, by omega, by omega, by rw [hall, hf], fun j hj hj' => ?_⟩
        omega
      · rintro ⟨k, -, hk, hb, hnone⟩
        by_cases hlast : k = segments.length + 1
        · rw [hlast, hall, hf] at hb
          exact Option.some.inj hb
        · have := hnone (segments.length + 1) (by omega) (by omega)
          rw [hall, hf] at this
          cases this
    | none =>
      simp only [ih]
      constructor
      · rintro ⟨k, hone, hk, hb, hnone⟩
        refine ⟨k, hone, by omega, by rwa [htake k hk], fun j hj hj' => ?_⟩
        by_cases hlast : j = segments.length + 1
        · rw [hlast, hall, hf]
        · rw [htake j (by omega)]
          exact hnone j hj (by omega)
      · rintro ⟨k, hone, hk, hb, hnone⟩
        by_cases hlast : k = segments.length + 1
        · rw [hlast, hall, hf] at hb
          cases hb
        · refine ⟨k, hone, by omega, by rwa [htake k (by omega)] at hb, fun j hj hj' => ?_⟩
          rw [← htake j hj']
          exact hnone j hj (by omega)

namespace Declarations

variable (files : List SourceFile) (file : SourceFile)

private theorem isDeclared_ofFiles_iff {q : String} :
    (ofFiles files).isDeclared q = true ↔ DeclaresType files q := by
  rw [isDeclared_eq, lookup?_ofFiles, List.find?_isSome]
  simp [DeclaresType]

variable {segments : List String} {name : String}

/-- What an enclosing type says about a name. -/
private theorem memberOf?_eq_some_iff (hsegments : ∀ s ∈ segments, IsNameSegment s) {k : Nat}
    (hone : 1 ≤ k) (hk : k ≤ segments.length) (q : String) :
    (ofFiles files).memberOf? file.packageName name (joinWith "." (segments.take k)) = some q ↔
      (DeclaresType files (memberName file segments name k) ∧
          q = memberName file segments name k) ∨
        (¬ DeclaresType files (memberName file segments name k) ∧ segments[k - 1]? = some name ∧
          q = inPackage file.packageName (joinWith "." (segments.take k))) := by
  have hne : segments.take k ≠ [] := by
    intro hnil
    have := congrArg List.length hnil
    rw [List.length_take, List.length_nil] at this
    omega
  have hdots : ∀ s ∈ segments.take k, '.' ∉ s.toList :=
    fun s hs => (hsegments s (List.mem_of_mem_take hs)).2
  have hmember : inPackage file.packageName (joinWith "." (segments.take k) ++ "." ++ name) =
      memberName file segments name k := by
    rw [memberName, joinWith_append_singleton hne]
  -- the last segment of the enclosing type is its simple name
  have hsimple : simpleName (joinWith "." (segments.take k)) = name ↔
      segments[k - 1]? = some name := by
    obtain ⟨s, hs⟩ : ∃ s, segments[k - 1]? = some s :=
      ⟨_, List.getElem?_eq_getElem (by omega)⟩
    rw [simpleName, splitOn_joinWith hne hdots, List.getLast?_take, hs]
    simp [show k ≠ 0 by omega]
  simp only [memberOf?, hmember]
  by_cases hdeclared : DeclaresType files (memberName file segments name k)
  · simp [(isDeclared_ofFiles_iff files).2 hdeclared, hdeclared, eq_comm]
  · have hnot : ¬ (ofFiles files).isDeclared (memberName file segments name k) = true :=
      mt (isDeclared_ofFiles_iff files).1 hdeclared
    simp [hnot, hdeclared, hsimple, eq_comm]

private theorem memberOf?_eq_none_iff (hsegments : ∀ s ∈ segments, IsNameSegment s) {k : Nat}
    (hone : 1 ≤ k) (hk : k ≤ segments.length) :
    (ofFiles files).memberOf? file.packageName name (joinWith "." (segments.take k)) = none ↔
      ¬ Binds files file segments name k := by
  rw [Option.eq_none_iff_forall_ne_some]
  simp only [ne_eq, memberOf?_eq_some_iff files file hsegments hone hk]
  constructor
  · rintro h ⟨-, -, hbinds⟩
    by_cases hdeclared : DeclaresType files (memberName file segments name k)
    · exact h _ (.inl ⟨hdeclared, rfl⟩)
    · exact h _ (.inr ⟨hdeclared, hbinds.resolve_left hdeclared, rfl⟩)
  · rintro h q (⟨hdeclared, -⟩ | ⟨-, hname, -⟩)
    · exact h ⟨hone, hk, .inl hdeclared⟩
    · exact h ⟨hone, hk, .inr hname⟩

/-- The innermost enclosing type that knows a name says what it means. -/
theorem enclosed?_eq_some_iff (hsegments : ∀ s ∈ segments, IsNameSegment s) (q : String) :
    (ofFiles files).enclosed? file.packageName (joinWith "." segments) name = some q ↔
      EnclosedMeaning files file segments name q := by
  by_cases hnil : segments = []
  · -- there is no enclosing type
    subst hnil
    constructor
    · intro h
      cases h
    · rintro ⟨k, ⟨hone, hk, -⟩, -⟩
      rw [List.length_nil] at hk
      omega
  · have hcut : splitOn '.' (joinWith "." segments) = segments :=
      splitOn_joinWith hnil fun s hs => (hsegments s hs).2
    have hne : joinWith "." segments ≠ "" := by
      intro hempty
      rw [hempty] at hcut
      exact (hsegments "" (by simp [← hcut, splitOn, splitChars])).1 rfl
    rw [enclosed?, if_neg hne, nesting, hcut, findSome?_outwards]
    constructor
    · rintro ⟨k, hone, hk, hq, hinner⟩
      have hbinds : Binds files file segments name k := by
        by_contra hnot
        rw [(memberOf?_eq_none_iff files file hsegments hone hk).2 hnot] at hq
        cases hq
      refine ⟨k, hbinds, fun j hj => ?_, ?_⟩
      · by_contra hlt
        exact (memberOf?_eq_none_iff files file hsegments hj.1 hj.2.1).1
          (hinner j (by omega) hj.2.1) hj
      · rcases (memberOf?_eq_some_iff files file hsegments hone hk q).1 hq with h | ⟨h, -, rfl⟩
        · exact .inl h
        · exact .inr ⟨h, rfl⟩
    · rintro ⟨k, ⟨hone, hk, hbinds⟩, hinnermost, hq⟩
      refine ⟨k, hone, hk, ?_, fun j hj hj' => ?_⟩
      · refine (memberOf?_eq_some_iff files file hsegments hone hk q).2 (hq.imp_right ?_)
        rintro ⟨hnot, rfl⟩
        exact ⟨hnot, hbinds.resolve_left hnot, rfl⟩
      · refine (memberOf?_eq_none_iff files file hsegments (by omega) hj').2 fun hbinds' => ?_
        have := hinnermost j hbinds'
        omega

/-! ### The other scopes -/

private theorem inSamePackage?_eq_some_iff (q : String) :
    (ofFiles files).inSamePackage? file.packageName name = some q ↔
      PackageMeaning files file name q := by
  simp only [inSamePackage?, PackageMeaning, ← isDeclared_ofFiles_iff files]
  split <;> simp [*, eq_comm]

private theorem imported?_eq_some_iff (hname : '.' ∉ name.toList) (q : String) :
    imported? file.imports name = some q ↔ ImportedMeaning file name q := by
  refine map_find?_eq_some_iff (fun i => ?_) q
  rw [← simpleName_eq_iff_endsIn hname]
  simp [and_assoc]

private theorem importedOnDemand?_eq_some_iff (q : String) :
    (ofFiles files).importedOnDemand? file.imports name = some q ↔
      OnDemandMeaning files file name q := by
  rw [importedOnDemand?, List.find?_map, List.find?_filter]
  refine map_find?_eq_some_iff (fun i => ?_) q
  rw [← isDeclared_ofFiles_iff files]
  simp [and_assoc]

private theorem universal?_eq_some_iff (q : String) :
    universal? name = some q ↔ UniversalMeaning name q := by
  simp only [universal?, UniversalMeaning]
  split <;> simp_all [eq_comm]

/-- The scopes say one after another what a simple name means. -/
theorem qualifySimple?_or_eq_some_iff (hsegments : ∀ s ∈ segments, IsNameSegment s)
    (hname : '.' ∉ name.toList) (q : String) :
    ((ofFiles files).qualifySimple? file (joinWith "." segments) name).or (some name) = some q ↔
      FirstMeaning (meanings files file segments name) q := by
  have hself : ∀ q, some name = some q ↔ FirstMeaning [(· = name)] q := by
    simp [FirstMeaning, eq_comm]
  simp only [qualifySimple?, Option.or_assoc]
  refine firstMeaning_or (enclosed?_eq_some_iff files file hsegments) ?_ q
  refine firstMeaning_or (inSamePackage?_eq_some_iff files file) ?_
  refine firstMeaning_or (imported?_eq_some_iff file hname) ?_
  refine firstMeaning_or (importedOnDemand?_eq_some_iff files file) ?_
  exact firstMeaning_or universal?_eq_some_iff hself

/-! ### Dotted names -/

private theorem isPrimitive_eq_false_of_mem {base : String} (h : '.' ∈ base.toList) :
    isPrimitive base = false := by
  have hdots : ∀ p ∈ primitives, '.' ∉ p.toList := by simp [primitives]
  rw [isPrimitive, List.contains_eq_mem, decide_eq_false_iff_not]
  exact fun hmem => hdots base hmem h

/-- A dotted name is qualified by its first segment, unless it is declared as a whole. -/
private theorem qualifyBase?_getD (d : Declarations) (enclosing : String)
    (hname : '.' ∉ name.toList) (hprimitive : isPrimitive name = false) {tail : List Char}
    (htail : tail = [] ∨ ∃ rest, tail = '.' :: rest) :
    (d.qualifyBase? file enclosing (name ++ String.ofList tail)).getD (name ++ String.ofList tail) =
      (d.qualifySimple? file enclosing name).getD name ++ String.ofList tail := by
  have hbase : isPrimitive (name ++ String.ofList tail) = false := by
    rcases htail with rfl | ⟨rest, rfl⟩
    · simpa using hprimitive
    · exact isPrimitive_eq_false_of_mem (by simp)
  have hne : ∀ c ∈ name.toList, (c != '.') = true := by
    intro c hc
    rw [bne_iff_ne]
    rintro rfl
    exact hname hc
  have hhead : (name ++ String.ofList tail).toList.takeWhile (· != '.') = name.toList := by
    rw [String.toList_append, String.toList_ofList, List.takeWhile_append_of_pos hne]
    rcases htail with rfl | ⟨rest, rfl⟩ <;> simp
  have hrest : (name ++ String.ofList tail).toList.dropWhile (· != '.') = tail := by
    rw [String.toList_append, String.toList_ofList, List.dropWhile_append_of_pos hne]
    rcases htail with rfl | ⟨rest, rfl⟩ <;> simp
  rw [qualifyBase?, hbase]
  simp only [hhead, hrest, String.ofList_toList, Bool.false_eq_true, if_false]
  cases d.qualifySimple? file enclosing name with
  | some q => rfl
  | none =>
    dsimp only
    split <;> rfl

/-- Marks are split off behind a name. -/
private theorem splitMarks_append_left {as : List Char} (h : ∀ c ∈ as, c ≠ '[' ∧ c ≠ '.')
    (bs : List Char) :
    splitMarks (as ++ bs) = (as ++ (splitMarks bs).1, (splitMarks bs).2) := by
  induction as with
  | nil => rfl
  | cons c as ih =>
    obtain ⟨hc, has⟩ := List.forall_mem_cons.1 h
    rw [List.cons_append, splitMarks, ih has]
    · rfl
    · exact hc.1
    · exact fun _ hdot _ => hc.2 hdot

private theorem splitMarks_parts (cs : List Char) :
    (splitMarks cs).1 ++ (splitMarks cs).2 = cs := by
  fun_induction splitMarks cs with
  | case1 => rfl
  | case2 cs => rfl
  | case3 cs => rfl
  | case4 c cs hopen hdots base rest hsplit ih =>
    rw [hsplit] at ih
    rw [List.cons_append, ih]

/-- A name and what follows it after a dot: the name alone is qualified. -/
private theorem qualify_append (d : Declarations) (enclosing : String) (hname : IsSimpleName name)
    (hprimitive : isPrimitive name = false) {tail : List Char}
    (htail : tail = [] ∨ ∃ rest, tail = '.' :: rest) (hplain : IsPlain (String.ofList tail)) :
    d.qualify file enclosing (name ++ String.ofList tail) =
      (d.qualifySimple? file enclosing name).getD name ++ String.ofList tail := by
  have herase : eraseFrom 0 (name ++ String.ofList tail).toList = name.toList ++ tail := by
    rw [String.toList_append, String.toList_ofList]
    refine eraseFrom_eq_self (List.forall_mem_append.2 ⟨hname.plain, ?_⟩)
    simpa [IsPlain] using hplain
  have hsplit : splitMarks (name.toList ++ tail) =
      (name.toList ++ (splitMarks tail).1, (splitMarks tail).2) := by
    refine splitMarks_append_left (fun c hc => ⟨?_, ?_⟩) tail
    · rintro rfl
      exact hname.noBracket hc
    · rintro rfl
      exact hname.segment.2 hc
  have hparts := splitMarks_parts tail
  rw [qualify_eq, herase, hsplit]
  generalize splitMarks tail = parts at hparts
  obtain ⟨base, marks⟩ := parts
  subst hparts
  have hbase : base = [] ∨ ∃ rest, base = '.' :: rest := by
    cases base with
    | nil => exact .inl rfl
    | cons c base =>
      rcases htail with hnil | ⟨rest, hrest⟩
      · cases hnil
      · cases hrest
        exact .inr ⟨base, rfl⟩
  have hne : ¬ (name.toList ++ base).isEmpty = true := by
    intro hempty
    rw [List.isEmpty_iff, List.append_eq_nil_iff, String.toList_eq_nil_iff] at hempty
    exact hname.segment.1 hempty.1
  have htext : ∀ cs, String.ofList (name.toList ++ cs) = name ++ String.ofList cs := by simp
  have hqualified := qualifyBase?_getD file d enclosing hname.segment.2 hprimitive hbase
  rw [if_neg hne, htext, htext, String.ofList_append, ← String.append_assoc, ← String.append_assoc,
    ← hqualified]
  -- the marks follow the qualified name and the name as it is written alike
  cases d.qualifyBase? file enclosing (name ++ String.ofList base) with
  | some q => rfl
  | none => rfl

/-- A simple name in an enclosing type, whose segments are given, means what the first scope that
knows it says, and itself if there is none.  A dotted name that starts with it is qualified by
it. -/
theorem qualify_lexical (files : List SourceFile) (file : SourceFile) (segments : List String)
    (name : String) (hsegments : ∀ s ∈ segments, IsNameSegment s) (hname : IsSimpleName name)
    (hprimitive : isPrimitive name = false) :
    let d := ofFiles files
    let enclosing := joinWith "." segments
    (∀ q, d.qualify file enclosing name = q ↔
        FirstMeaning (meanings files file segments name) q) ∧
      ∀ q rest, FirstMeaning (meanings files file segments name) q → IsPlain rest →
        d.qualify file enclosing (name ++ "." ++ rest) = q ++ "." ++ rest := by
  intro d enclosing
  have hself : d.qualify file enclosing name =
      (d.qualifySimple? file enclosing name).getD name := by
    simpa using qualify_append file d enclosing hname hprimitive (.inl rfl) (by simp [IsPlain])
  have hmeaning : ∀ q, d.qualify file enclosing name = q ↔
      FirstMeaning (meanings files file segments name) q := by
    intro q
    rw [hself, ← qualifySimple?_or_eq_some_iff files file hsegments hname.segment.2 q,
      Option.or_some, Option.some.injEq]
  refine ⟨hmeaning, fun q rest hq hrest => ?_⟩
  have hplain : IsPlain (String.ofList ('.' :: rest.toList)) := by
    simp only [IsPlain, String.toList_ofList, List.forall_mem_cons]
    exact ⟨by decide, hrest⟩
  have htext : ∀ s : String, s ++ String.ofList ('.' :: rest.toList) = s ++ "." ++ rest := by
    intro s
    apply String.toList_inj.1
    simp
  have htail := qualify_append file d enclosing hname hprimitive (.inr ⟨rest.toList, rfl⟩) hplain
  rw [htext, htext, ← hself, (hmeaning q).2 hq] at htail
  exact htail

/-- A class with two nested ones, in a package. -/
def nestedFile : SourceFile where
  package := some "p"
  imports := [⟨"q.Inner", false, false⟩]
  types := ["Outer", "Outer.Inner", "Outer.Mid"].map fun name =>
    ⟨name, .classDecl, none, [], [], [], ⟨1, 1⟩⟩
  path := "Outer.java"
  text := ""

/-- A nested class is known in another one next to it, and hides an imported class. -/
theorem qualify_lexical_nested :
    let d := ofFiles [nestedFile]
    (IsNameSegment "Outer" ∧ IsNameSegment "Mid" ∧ IsSimpleName "Inner" ∧ IsPlain "Deep" ∧
        isPrimitive "Inner" = false) ∧
      FirstMeaning (meanings [nestedFile] nestedFile ["Outer", "Mid"] "Inner") "p.Outer.Inner" ∧
      d.qualify nestedFile "Outer.Mid" "Inner" = "p.Outer.Inner" ∧
      d.qualify nestedFile "Outer.Mid" "Inner.Deep" = "p.Outer.Inner.Deep" := by
  intro d
  have hplain : ∀ s ∈ ["Inner", "Deep"], IsPlain s := by simp [IsPlain, isBlank]
  have houter : IsNameSegment "Outer" := ⟨by decide, by simp⟩
  have hmid : IsNameSegment "Mid" := ⟨by decide, by simp⟩
  have hname : IsSimpleName "Inner" :=
    ⟨⟨by decide, by simp⟩, hplain "Inner" (by simp), by simp⟩
  have hall := qualify_lexical [nestedFile] nestedFile ["Outer", "Mid"] "Inner"
    (by simp [houter, hmid]) hname rfl
  have hvalue : d.qualify nestedFile "Outer.Mid" "Inner" = "p.Outer.Inner" := by
    decide +zetaReduce
  have hmeaning := (hall.1 "p.Outer.Inner").1 hvalue
  exact ⟨⟨houter, hmid, hname, hplain "Deep" (by simp), rfl⟩, hmeaning, hvalue,
    hall.2 "p.Outer.Inner" "Deep" hmeaning (hplain "Deep" (by simp))⟩

end Declarations

end CallPaths
