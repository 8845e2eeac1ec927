import CallPaths.Proofs.Lists
import CallPaths.Proofs.SearchOrder

/-!
# Overloads with the types of the arguments

Among the methods of one name in a type, the one with the most points for a call is taken, the first
one of several.  If the types of all arguments are known, an argument gives three points for a
parameter of its own type and fewer for any other one, and the right number of parameters gives one
point more.  So the methods with exactly the types of the arguments have the most points of all, and
the first of them is taken.

Points do not tell a parameter for any number of arguments from one for a single argument.  A method
`f(int...)` has as many points for one `int` as a method `f(int)`, and the order of declaration
decides between them.

## Key results

- `Declarations.fit?_of_parameterTypes`, `Declarations.fit?_lt_of_ne`: the points of a method with
  the types of the arguments, and of any other one
- `Declarations.bestMethod?_of_parameterTypes`: the first method with these types is the best one
- `Declarations.signatureOf?_eq_iff_fixedArity`: methods whose signature has just these types
- `Declarations.findMethod?_exact_types`: the method that a search finds for arguments of known
  types
- `Declarations.findMethod?_varargs_first`: a method for any number of arguments that is found first
-/

namespace CallPaths

/-! ### Points -/

/-- An argument gives three points at most. -/
private theorem argumentScore_le (actual : Option String) (expected : String) :
    argumentScore actual expected ≤ 3 := by
  unfold argumentScore
  split
  · omega
  · split
    · omega
    · split <;> omega

/-- An argument of another known type gives fewer points. -/
private theorem argumentScore_of_ne {actual expected : String} (h : actual ≠ expected) :
    argumentScore (some actual) expected ≤ 2 := by
  simp only [argumentScore, if_neg h]
  split <;> omega

/-- Arguments give three points each at most. -/
private theorem sum_argumentScore_le (hints : List (Option String)) (expected : List String) :
    (hints.zipWith argumentScore expected).sum ≤ 3 * hints.length := by
  induction hints generalizing expected with
  | nil => simp
  | cons hint hints ih =>
    cases expected with
    | nil => simp
    | cons e expected =>
      have hhead := argumentScore_le hint e
      have htail := ih expected
      simp only [List.zipWith_cons_cons, List.sum_cons, List.length_cons]
      omega

/-- Arguments of the expected types give three points each. -/
private theorem sum_argumentScore_self (types : List String) :
    ((types.map some).zipWith argumentScore types).sum = 3 * types.length := by
  induction types with
  | nil => rfl
  | cons t types ih =>
    have hhead : argumentScore (some t) t = 3 := if_pos rfl
    simp only [List.map_cons, List.zipWith_cons_cons, List.sum_cons, List.length_cons, ih, hhead]
    omega

/-- As many arguments of other types give fewer points. -/
private theorem sum_argumentScore_lt {types expected : List String}
    (hlen : expected.length = types.length) (hne : expected ≠ types) :
    ((types.map some).zipWith argumentScore expected).sum < 3 * types.length := by
  induction types generalizing expected with
  | nil => exact absurd (List.length_eq_zero_iff.1 hlen) hne
  | cons t types ih =>
    cases expected with
    | nil => cases hlen
    | cons e expected =>
      simp only [List.map_cons, List.zipWith_cons_cons, List.sum_cons, List.length_cons]
      by_cases he : t = e
      · -- the first types agree, so the others do not
        subst he
        have hhead := argumentScore_le (some t) t
        have htail := ih (Nat.succ.inj hlen) fun heq => hne (heq ▸ rfl)
        omega
      · have hhead := argumentScore_of_ne he
        have htail := sum_argumentScore_le (types.map some) expected
        rw [List.length_map] at htail
        omega

/-- As many arguments as parameters go to one parameter each. -/
private theorem spreadParameters_length (ps : List Parameter) :
    spreadParameters ps ps.length = ps := by
  unfold spreadParameters
  split
  · next hlast => exact (List.getLast?_eq_none_iff.1 hlast).symm
  · simp

/-! ### Methods with given types -/

/-- Every parameter has a type and takes one argument. -/
def MethodDecl.FixedArity (m : MethodDecl) : Prop :=
  ∀ p ∈ m.parameters, p.varargs = false ∧ p.typeName ≠ ""

instance (m : MethodDecl) : Decidable m.FixedArity :=
  inferInstanceAs (Decidable (∀ p ∈ m.parameters, p.varargs = false ∧ p.typeName ≠ ""))

namespace Declarations

variable {d : Declarations} {o : Declared} {m : MethodDecl} {name : String} {types : List String}

/-- The qualified types of the parameters of a method. -/
def parameterTypes (d : Declarations) (o : Declared) (m : MethodDecl) : List String :=
  m.parameters.map fun p => d.qualifyIn o p.typeName

/-- A method has a name, and its parameters have given types. -/
def HasTypes (d : Declarations) (o : Declared) (name : String) (types : List String)
    (m : MethodDecl) : Prop :=
  m.name = name ∧ d.parameterTypes o m = types

instance (d : Declarations) (o : Declared) (name : String) (types : List String) (m : MethodDecl) :
    Decidable (d.HasTypes o name types m) :=
  inferInstanceAs (Decidable (m.name = name ∧ d.parameterTypes o m = types))

/-- The points of a method that can be called. -/
private theorem fit?_eq_some {hints : List (Option String)} {points : Nat}
    (h : d.fit? o m hints = some points) :
    points = (if m.parameters.length = hints.length then 1 else 0) +
      (hints.zipWith argumentScore ((spreadParameters m.parameters hints.length).map
        fun p => d.qualifyIn o p.typeName)).sum := by
  simp only [fit?] at h
  split at h
  · -- the points are added up from the one for the number of parameters on
    rw [← Option.some.inj h]
    exact foldl_add_eq _ _
  · cases h

/-- The points of a method with the types of the arguments. -/
theorem fit?_of_parameterTypes (h : d.parameterTypes o m = types) :
    d.fit? o m (types.map some) = some (1 + 3 * types.length) := by
  have hlen : m.parameters.length = (types.map some).length := by
    rw [← h, parameterTypes, List.length_map, List.length_map]
  obtain ⟨points, hpoints⟩ :=
    Option.isSome_iff_exists.1 ((d.fit?_isSome_iff o m (types.map some)).2 (.inl hlen))
  have hexpected : (spreadParameters m.parameters (types.map some).length).map
      (fun p => d.qualifyIn o p.typeName) = types := by
    rw [← hlen, spreadParameters_length]
    exact h
  rw [hpoints, fit?_eq_some hpoints, if_pos hlen, hexpected, sum_argumentScore_self]

/-- A method with other types has fewer points. -/
theorem fit?_lt_of_ne {points : Nat} (h : d.parameterTypes o m ≠ types)
    (hfit : d.fit? o m (types.map some) = some points) : points < 1 + 3 * types.length := by
  rw [fit?_eq_some hfit]
  by_cases hlen : m.parameters.length = (types.map some).length
  · -- as many parameters as arguments, but one of them has another type
    rw [if_pos hlen, ← hlen, spreadParameters_length]
    have hother : (d.parameterTypes o m).length = types.length := by
      rw [parameterTypes, List.length_map, hlen, List.length_map]
    have hlt := sum_argumentScore_lt hother h
    unfold parameterTypes at hlt
    omega
  · -- the point for the number of parameters is missing
    rw [if_neg hlen]
    have hle := sum_argumentScore_le (types.map some)
      ((spreadParameters m.parameters (types.map some).length).map fun p =>
        d.qualifyIn o p.typeName)
    have hhints : (types.map some).length = types.length := List.length_map some
    omega

/-- The best of some pairs has more points than those before it, and as many as those after it. -/
private theorem bestOf_append {c : Nat × MethodDecl} {before after : List (Nat × MethodDecl)}
    (hbefore : ∀ b ∈ before, b.1 < c.1) (hafter : ∀ a ∈ after, a.1 ≤ c.1) :
    bestOf (before ++ c :: after) = some c := by
  induction before with
  | nil =>
    rw [List.nil_append, bestOf]
    split
    · next b hb =>
      have hle := hafter b (mem_of_bestOf hb)
      rw [if_neg (by omega)]
    · rfl
  | cons b before ih =>
    have hrest := ih fun b' hb' => hbefore b' (List.mem_cons_of_mem b hb')
    have hlt := hbefore b List.mem_cons_self
    rw [List.cons_append, bestOf, hrest]
    exact if_pos hlt

/-- The first method with the types of the arguments fits best. -/
theorem bestMethod?_of_parameterTypes
    (h : o.type.methods.find? (d.HasTypes o name types ·) = some m) :
    d.bestMethod? o name (types.map some) = some m := by
  obtain ⟨hm, before, after, hmethods, hbefore⟩ := List.find?_eq_some_iff_append.1 h
  obtain ⟨hname, htypes⟩ : d.HasTypes o name types m := of_decide_eq_true hm
  have hfit := fit?_of_parameterTypes htypes
  simp only [bestMethod?, hmethods, List.filter_append, List.filterMap_append]
  rw [List.filter_cons_of_pos (by simpa using hname), List.filterMap_cons, hfit, Option.map_some]
  rw [bestOf_append]
  · rfl
  · -- methods before it have other types
    intro c hc
    obtain ⟨m', hm', hc⟩ := List.mem_filterMap.1 hc
    obtain ⟨points, hpoints, rfl⟩ := Option.map_eq_some_iff.1 hc
    obtain ⟨hmem, hname'⟩ := List.mem_filter.1 hm'
    refine fit?_lt_of_ne (fun heq => ?_) hpoints
    have hnot : ¬ d.HasTypes o name types m' := by simpa using hbefore m' hmem
    exact hnot ⟨of_decide_eq_true hname', heq⟩
  · -- methods after it have other types, or as many points
    intro c hc
    obtain ⟨m', -, hc⟩ := List.mem_filterMap.1 hc
    obtain ⟨points, hpoints, rfl⟩ := Option.map_eq_some_iff.1 hc
    by_cases heq : d.parameterTypes o m' = types
    · rw [fit?_of_parameterTypes heq] at hpoints
      exact Nat.le_of_eq (Option.some.inj hpoints).symm
    · exact Nat.le_of_lt (fit?_lt_of_ne heq hpoints)

/-! ### Signatures -/

/-- The written type of a parameter is its type in a signature exactly if the parameter has a type
and takes one argument. -/
private theorem parameterType?_eq_iff {p : Parameter} :
    d.parameterType? o p = some (d.qualifyIn o p.typeName) ↔
      p.varargs = false ∧ p.typeName ≠ "" := by
  unfold parameterType?
  by_cases hempty : p.typeName = ""
  · simp [hempty]
  · rw [if_neg hempty]
    cases p.varargs with
    | false => exact iff_of_true rfl ⟨rfl, hempty⟩
    | true =>
      -- the mark makes the type in the signature longer
      have hmark : d.qualifyIn o p.typeName ++ "..." ≠ d.qualifyIn o p.typeName := by
        intro heq
        have hlen := congrArg String.length heq
        rw [String.length_append] at hlen
        have hthree : "...".length = 3 := rfl
        omega
      exact iff_of_false (fun heq => hmark (Option.some.inj heq)) fun h => Bool.noConfusion h.1

/-- All written types are those of a signature exactly if this holds of each parameter. -/
private theorem mapM_parameterType?_eq_iff {ps : List Parameter} :
    ps.mapM (d.parameterType? o) = some (ps.map fun p => d.qualifyIn o p.typeName) ↔
      ∀ p ∈ ps, p.varargs = false ∧ p.typeName ≠ "" := by
  induction ps with
  | nil => simp
  | cons p ps ih =>
    rw [List.forall_mem_cons, ← ih, ← parameterType?_eq_iff (d := d) (o := o), List.mapM_cons]
    cases d.parameterType? o p with
    | none => simp
    | some q => cases ps.mapM (d.parameterType? o) <;> simp

/-- The signature of a method has just the written types exactly if all parameters have types and
take one argument each. -/
theorem signatureOf?_eq_iff_fixedArity :
    d.signatureOf? o m =
        some ⟨o.file.packageName, o.type.name, m.name, d.parameterTypes o m⟩ ↔
      m.FixedArity := by
  rw [signatureOf?, MethodDecl.FixedArity, ← mapM_parameterType?_eq_iff (d := d) (o := o)]
  cases m.parameters.mapM (d.parameterType? o) with
  | none => simp
  | some ps => simp [parameterTypes]

/-! ### The search -/

/-- If the types of all arguments are known, and the nearest type with a method to be called has a
method with exactly these types, then the search finds the first of its methods with these types,
whatever other methods of the name the type declares.  This is the signature of a given method of
fixed arity with these types exactly if the first method is of fixed arity too, and so it is if no
method with these types before the given one takes any number of arguments. -/
theorem findMethod?_exact_types (files : List SourceFile) (owner name : String)
    (types : List String) (t : String) (o : Declared) (m : MethodDecl)
    (before after : List MethodDecl)
    (hnearest : (ofFiles files).NearestOffering owner name types.length t o)
    (hmethods : o.type.methods = before ++ m :: after)
    (hm : (ofFiles files).HasTypes o name types m) (hfixed : m.FixedArity) :
    let d := ofFiles files
    let found := d.findMethod? owner name (types.map some)
    ∃ first, o.type.methods.find? (d.HasTypes o name types ·) = some first ∧
      found = d.signatureOf? o first ∧
      d.signatureOf? o m = some ⟨o.file.packageName, o.type.name, name, types⟩ ∧
      (found = d.signatureOf? o m ↔ first.FixedArity) ∧
      ((∀ m' ∈ before, d.HasTypes o name types m' → m'.FixedArity) →
        found = d.signatureOf? o m) := by
  intro d found
  -- the signature of a method of fixed arity with these types
  have hsignature : ∀ m' : MethodDecl, d.HasTypes o name types m' →
      (d.signatureOf? o m' = some ⟨o.file.packageName, o.type.name, name, types⟩ ↔
        m'.FixedArity) := by
    rintro m' ⟨rfl, rfl⟩
    exact signatureOf?_eq_iff_fixedArity
  have hexists : (o.type.methods.find? (d.HasTypes o name types ·)).isSome = true := by
    rw [List.find?_isSome, hmethods]
    exact ⟨m, by simp, decide_eq_true hm⟩
  obtain ⟨first, hfirst⟩ := Option.isSome_iff_exists.1 hexists
  have hfirstTypes : d.HasTypes o name types first := by simpa using List.find?_some hfirst
  have hfound : found = d.signatureOf? o first := by
    have hsearch := findMethod?_of_nearestOffering (types.map some) (by rwa [List.length_map])
    rwa [bestMethod?_of_parameterTypes hfirst] at hsearch
  have hthis := (hsignature m hm).2 hfixed
  have hsame : found = d.signatureOf? o m ↔ first.FixedArity := by
    rw [hfound, hthis]
    exact hsignature first hfirstTypes
  refine ⟨first, hfirst, hfound, hthis, hsame, fun hbefore => hsame.2 ?_⟩
  -- the first method with these types is the given one or stands before it
  rw [hmethods, List.find?_append] at hfirst
  cases hearlier : before.find? (d.HasTypes o name types ·) with
  | some m' =>
    rw [hearlier] at hfirst
    obtain rfl : m' = first := Option.some.inj hfirst
    exact hbefore m' (List.mem_of_find?_eq_some hearlier) hfirstTypes
  | none =>
    have hhead : (m :: after).find? (d.HasTypes o name types ·) = some m :=
      List.find?_cons_of_pos (by simpa using hm)
    rw [hearlier, Option.none_or, hhead] at hfirst
    obtain rfl : m = first := Option.some.inj hfirst
    exact hfixed

/-- A method `f` with one parameter. -/
def unary (type : String) (varargs : Bool) : MethodDecl :=
  ⟨"f", [⟨"x", type, varargs⟩], ⟨1, 1⟩, "", none, none, [], []⟩

/-- A class with some methods. -/
def baseClass (methods : List MethodDecl) : TypeDecl :=
  ⟨"B", .classDecl, none, [], [], methods, ⟨1, 1⟩⟩

/-- A file with a class that inherits some methods. -/
def inheritingFile (methods : List MethodDecl) : SourceFile where
  package := some "p"
  types := [⟨"A", .classDecl, some "B", [], [], [], ⟨1, 1⟩⟩, baseClass methods]
  path := "A.java"
  text := ""

/-- One `int` goes to the inherited method `f(int)` and neither to `f(long)` nor to `f(int...)`. -/
theorem findMethod?_exact_types_inherited :
    let methods := [unary "long" false, unary "int" false, unary "int" true]
    let d := ofFiles [inheritingFile methods]
    let o : Declared := ⟨inheritingFile methods, baseClass methods⟩
    (d.NearestOffering "p.A" "f" 1 "p.B" o ∧ d.HasTypes o "f" ["int"] (unary "int" false) ∧
        (unary "int" false).FixedArity) ∧
      d.findMethod? "p.A" "f" [some "int"] = d.signatureOf? o (unary "int" false) := by
  intro methods d o
  have hnearest : d.NearestOffering "p.A" "f" 1 "p.B" o := by
    refine ⟨?_, 1, ?_, ?_⟩ <;> decide +zetaReduce
  have hm : d.HasTypes o "f" ["int"] (unary "int" false) := by decide +zetaReduce
  have hfixed : (unary "int" false).FixedArity := by decide
  obtain ⟨first, -, -, -, -, hfound⟩ := findMethod?_exact_types [inheritingFile methods] "p.A" "f"
    ["int"] "p.B" o (unary "int" false) [unary "long" false] [unary "int" true] hnearest rfl hm
    hfixed
  refine ⟨⟨hnearest, hm, hfixed⟩, hfound ?_⟩
  decide +zetaReduce

/-- A method with exactly the types of the arguments and no parameter for any number of arguments is
not always found: `f(int...)` is, if it is declared before `f(int)`. -/
theorem findMethod?_varargs_first :
    ¬ ∀ (files : List SourceFile) (owner name : String) (types : List String) (t : String)
        (o : Declared) (m : MethodDecl),
      (ofFiles files).NearestOffering owner name types.length t o → m ∈ o.type.methods →
        (ofFiles files).HasTypes o name types m → m.isVarargs = false →
          (ofFiles files).findMethod? owner name (types.map some) =
            (ofFiles files).signatureOf? o m := by
  intro hall
  let methods := [unary "int" true, unary "int" false]
  let d := ofFiles [inheritingFile methods]
  let o : Declared := ⟨inheritingFile methods, baseClass methods⟩
  have hnearest : d.NearestOffering "p.A" "f" 1 "p.B" o := by
    refine ⟨?_, 1, ?_, ?_⟩ <;> decide +zetaReduce
  have hm : d.HasTypes o "f" ["int"] (unary "int" false) := by decide +zetaReduce
  have hfound := hall [inheritingFile methods] "p.A" "f" ["int"] "p.B" o (unary "int" false)
    hnearest (by decide +zetaReduce) hm rfl
  have hvarargs : d.findMethod? "p.A" "f" [some "int"] = some ⟨"p", "B", "f", ["int..."]⟩ := by
    decide +zetaReduce
  have hsingle : d.signatureOf? o (unary "int" false) = some ⟨"p", "B", "f", ["int"]⟩ := by
    decide +zetaReduce
  exact absurd (hvarargs.symm.trans (hfound.trans hsingle)) (by decide)

end Declarations

end CallPaths
