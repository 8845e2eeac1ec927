import CallPaths.Proofs.Lists
import CallPaths.Proofs.Records
import CallPaths.Source.OfTree

/-!
# Calls on fields of the object itself

The receiver of a call may be a chain of fields of the object itself, `this.f₁.….fₙ`.  A chain of
one field is read as a field of the object.  A longer chain is read as a path, and its first name is
then looked up like the name of any variable: local variables and parameters come first, fields of
the type and its superclasses next, fields of outer types and type names last.

So a chain of one field is always resolved by following fields from the enclosing type.  A longer
chain is resolved in this way as long as its first field is known and neither a local variable nor a
parameter has its name; otherwise the variable takes the place of the field.

## Key results

- `ParseTree.receiver_of_isSelfChain`: the receiver that a chain makes
- `Declarations.resolve?_selfField`, `Declarations.resolve?_path`: what a call on it is resolved to
- `Declarations.resolve?_self_chain`: what a call on a chain of fields depends on
- `Declarations.resolve?_self_chain_hidden`: a parameter that takes the place of a field
-/

namespace CallPaths

namespace ParseTree

/-! ### Chains of fields -/

/-- A tree is a chain of field accesses on the object itself, with the names of the fields. -/
inductive IsSelfChain : ParseTree → List String → Prop
  | self (role : Option Role) (cs : List ParseTree) : IsSelfChain (node .selfReference role cs) []
  | access {role : Option Role} {cs : List ParseTree} {object member : ParseTree}
      {fields : List String} (hobject : (node .fieldAccess role cs).child? .object = some object)
      (hmember : (node .fieldAccess role cs).child? .member = some member)
      (chain : IsSelfChain object fields) :
      IsSelfChain (node .fieldAccess role cs) (fields ++ [member.text])

/-- The names of the object of a field access are those of its first part with this role. -/
private theorem objectPath?_eq (cs : List ParseTree) :
    fieldPath?.objectPath? cs = (cs.find? fun c => c.role? = some .object).bind fieldPath? := by
  induction cs with
  | nil => rfl
  | cons c cs ih =>
    rw [fieldPath?.objectPath?, List.find?_cons]
    by_cases hrole : c.role? = some .object
    · simp [hrole]
    · simp [hrole, ih]

/-- The names of a chain, which starts at the object itself. -/
private theorem fieldPath?_of_isSelfChain {t : ParseTree} {fields : List String}
    (h : t.IsSelfChain fields) :
    fieldPath? t = some (true, fields) := by
  induction h with
  | self role cs => rfl
  | @access role cs object member fields hobject hmember chain ih =>
    have hpath : fieldPath?.objectPath? cs = some (true, fields) := by
      rw [objectPath?_eq]
      show ((node .fieldAccess role cs).child? .object).bind fieldPath? = some (true, fields)
      rw [hobject]
      exact ih
    -- the name that is accessed last stands last in the path
    have hlast : (cs.find? fun c => c.role? = some .member) = some member := hmember
    simp only [fieldPath?, hpath, hlast]

private theorem IsSelfChain.exists_fieldAccess {t : ParseTree} {f : String} {fs : List String}
    (h : t.IsSelfChain (f :: fs)) : ∃ role cs, t = node .fieldAccess role cs := by
  generalize hfields : f :: fs = fields at h
  cases h with
  | self role cs => cases hfields
  | access hobject hmember chain => exact ⟨_, _, rfl⟩

/-- The receiver that a chain of fields makes: a chain of one field is told apart, and a longer one
is a path that does not say where it starts. -/
theorem receiver_of_isSelfChain {t : ParseTree} {f : String} {fs : List String}
    (h : t.IsSelfChain (f :: fs)) :
    receiver t = if fs = [] then .selfField f else .path (f :: fs) := by
  have hpath := fieldPath?_of_isSelfChain h
  obtain ⟨role, cs, rfl⟩ := h.exists_fieldAccess
  rw [receiver, hpath]
  -- the flag for the object itself only counts for a single name
  cases fs with
  | nil => rfl
  | cons f' fs => rfl

/-- A call is made on a chain of fields of the object itself. -/
def CallsOnChain (call : CallSite) (fields : List String) : Prop :=
  ∃ site object, callSite? site = some call ∧ site.child? .object = some object ∧
    object.IsSelfChain fields

/-- The receiver of a call is the one that its object makes. -/
private theorem CallsOnChain.receiver_eq {call : CallSite} {f : String} {fs : List String}
    (h : CallsOnChain call (f :: fs)) :
    call.receiver = if fs = [] then .selfField f else .path (f :: fs) := by
  obtain ⟨site, object, hcall, hobject, hchain⟩ := h
  rw [← receiver_of_isSelfChain hchain]
  unfold callSite? at hcall
  split at hcall
  · obtain ⟨name, -, rfl⟩ := Option.map_eq_some_iff.1 hcall
    simp [hobject]
  · cases hcall

/-- A field of an object. -/
def fieldOf (object : ParseTree) (name : String) : ParseTree :=
  node .fieldAccess (some .object) [object, leaf ⟨.mark, ".", 0, 0, true⟩,
    node .identifier (some .member) [leaf ⟨.word, name, 0, 0, true⟩]]

/-- A chain of fields of the object itself. -/
def selfChain (fields : List String) : ParseTree :=
  fields.foldl fieldOf (node .selfReference (some .object) [leaf ⟨.word, "this", 0, 0, false⟩])

/-- A call without arguments on a chain of fields of the object itself. -/
def chainCall (fields : List String) (name : String) : ParseTree :=
  node .methodInvocation none [selfChain fields, leaf ⟨.mark, ".", 0, 0, true⟩,
    node .identifier (some .name) [leaf ⟨.word, name, 0, 0, true⟩],
    node .argumentList (some .arguments)
      [leaf ⟨.mark, "(", 0, 0, true⟩, leaf ⟨.mark, ")", 0, 0, true⟩]]

/-- Fields that are taken one after another make a chain longer. -/
private theorem isSelfChain_foldl_fieldOf {t : ParseTree} {fields : List String}
    (h : t.IsSelfChain fields) (hrole : t.role? = some .object) (names : List String) :
    (names.foldl fieldOf t).IsSelfChain (fields ++ names) ∧
      (names.foldl fieldOf t).role? = some .object := by
  induction names generalizing t fields with
  | nil => simpa using ⟨h, hrole⟩
  | cons name names ih =>
    let member := node .identifier (some .member) [leaf ⟨.word, name, 0, 0, true⟩]
    have hobject : (fieldOf t name).child? .object = some t := by
      simp [fieldOf, child?, children, hrole]
    have hmember : (fieldOf t name).child? .member = some member := by
      have hother : t.role? ≠ some .member := by simp [hrole]
      simp only [fieldOf, child?, children, List.find?_cons, decide_eq_false hother]
      rfl
    -- the name that the chain takes on is the text of the one token of its last part
    have htext : member.text = name := by simp [member, text, tokens, tokensAll]
    have hstep := IsSelfChain.access hobject hmember h
    rw [htext] at hstep
    have hrest := ih hstep rfl
    rwa [List.append_assoc] at hrest

/-- There are calls on every chain of fields. -/
private theorem callsOnChain_of_chainCall (fields : List String) (name : String) {call : CallSite}
    (h : (chainCall fields name).callSite? = some call) : CallsOnChain call fields := by
  obtain ⟨hchain, hrole⟩ := isSelfChain_foldl_fieldOf
    (.self (some .object) [leaf ⟨.word, "this", 0, 0, false⟩]) rfl fields
  refine ⟨chainCall fields name, selfChain fields, h, ?_, hchain⟩
  have hobject : (selfChain fields).role? = some .object := hrole
  simp [chainCall, child?, children, hobject]

end ParseTree

namespace Declarations

variable {d : Declarations} {owner : Declared} {m m' : MethodDecl} {f : String} {fs : List String}

/-! ### What a path depends on -/

/-- The method that is found by following fields from a type. -/
def methodAlong? (d : Declarations) (start : String) (fields : List String) (name : String)
    (hints : List (Option String)) : Option Signature :=
  (d.followFields? start fields).bind fun t => d.findMethod? t name hints

/-- A variable that is neither local nor a parameter is a field of the type, if the type has one. -/
private theorem variableType?_of_field {t : String} (hlocal : m.localType? f = none)
    (hfield : d.fieldType? owner.qualifiedName f = some t) :
    d.variableType? ⟨owner, m⟩ f = some t := by
  simp only [variableType?, hlocal, List.findSome?_cons, hfield]

private theorem variableType?_of_local {written : String} (hlocal : m.localType? f = some written) :
    d.variableType? ⟨owner, m⟩ f = some (d.qualifyIn owner written) := by
  simp only [variableType?, hlocal]

/-- Which beginning of a path is a type name does not depend on the method. -/
private theorem declaredStart?_congr (m m' : MethodDecl) (segments : List String) (n : Nat) :
    d.declaredStart? ⟨owner, m⟩ segments n = d.declaredStart? ⟨owner, m'⟩ segments n := by
  induction n with
  | zero => rfl
  | succ n ih => simp only [declaredStart?, ih]

/-- The type of a path depends on the method only by the declaration of its first name. -/
private theorem pathType?_congr (d : Declarations) (owner : Declared) (fs : List String)
    (h : m.localType? f = m'.localType? f) :
    d.pathType? ⟨owner, m⟩ (f :: fs) = d.pathType? ⟨owner, m'⟩ (f :: fs) := by
  have hvariable : d.variableType? ⟨owner, m⟩ f = d.variableType? ⟨owner, m'⟩ f := by
    simp only [variableType?, h]
  simp only [pathType?, hvariable, declaredStart?_congr m m']

private theorem pathType?_of_variable {c : CallContext} {t : String}
    (h : d.variableType? c f = some t) : d.pathType? c (f :: fs) = d.followFields? t fs := by
  simp only [pathType?, h]

private theorem followFields?_cons (start : String) :
    d.followFields? start (f :: fs) = (d.fieldType? start f).bind (d.followFields? · fs) := by
  rw [followFields?]
  cases d.fieldType? start f <;> rfl

/-! ### Calls -/

variable {call : CallSite}

/-- A call on a field of the object itself does not depend on variables. -/
theorem resolve?_selfField (d : Declarations) (owner : Declared) (m : MethodDecl)
    (h : call.receiver = .selfField f) :
    d.resolve? ⟨owner, m⟩ call = d.methodAlong? owner.qualifiedName [f] call.name
      (call.arguments.map (d.hintType? ⟨owner, m⟩)) := by
  have hfield : d.followFields? owner.qualifiedName [f] = d.fieldType? owner.qualifiedName f := by
    rw [followFields?_cons]
    exact Option.bind_fun_some _
  rw [resolve?, h, receiverTypes, findSome?_toList, methodAlong?, hfield]

/-- A call on a path searches the type of the path. -/
theorem resolve?_path {c : CallContext} {segments : List String}
    (h : call.receiver = .path segments) :
    d.resolve? c call = (d.pathType? c segments).bind fun t =>
      d.findMethod? t call.name (call.arguments.map (d.hintType? c)) := by
  rw [resolve?, h, receiverTypes, findSome?_toList]

/-- A call on a chain of fields of the object itself, `this.f₁.….fₙ`, in two methods of one type.
It is resolved by following the fields from the enclosing type if the chain has one field, or if its
first name is that of a field and neither of a local variable nor of a parameter.  In a longer chain
a local variable or a parameter with the first name takes the place of the field.  The two methods
resolve the call alike if the arguments have the same types and the chain has one field, or its
first name means the same local variable or parameter in both methods, or none. -/
theorem resolve?_self_chain (files : List SourceFile) (owner : Declared) (m m' : MethodDecl)
    (call call' : CallSite) (f : String) (fs : List String)
    (hchain : ParseTree.CallsOnChain call (f :: fs))
    (hchain' : ParseTree.CallsOnChain call' (f :: fs)) (hname : call.name = call'.name) :
    let d := ofFiles files
    let hints := call.arguments.map (d.hintType? ⟨owner, m⟩)
    let hints' := call'.arguments.map (d.hintType? ⟨owner, m'⟩)
    (fs = [] ∨ (m.localType? f = none ∧ (d.fieldType? owner.qualifiedName f).isSome) →
        d.resolve? ⟨owner, m⟩ call =
          d.methodAlong? owner.qualifiedName (f :: fs) call.name hints) ∧
      (∀ written, fs ≠ [] → m.localType? f = some written →
        d.resolve? ⟨owner, m⟩ call =
          d.methodAlong? (d.qualifyIn owner written) fs call.name hints) ∧
      (hints = hints' → fs = [] ∨ m.localType? f = m'.localType? f →
        d.resolve? ⟨owner, m⟩ call = d.resolve? ⟨owner, m'⟩ call') := by
  intro d hints hints'
  have hreceiver := hchain.receiver_eq
  have hreceiver' := hchain'.receiver_eq
  by_cases hfs : fs = []
  · -- one field: both calls are resolved from the enclosing type, so they only differ in the hints
    subst hfs
    have hsingle := resolve?_selfField d owner m hreceiver
    have hsingle' := resolve?_selfField d owner m' hreceiver'
    refine ⟨fun _ => hsingle, fun _ hne => absurd rfl hne, fun hsame _ => ?_⟩
    rw [hsingle, hsingle', ← hname]
    exact congrArg (d.methodAlong? owner.qualifiedName [f] call.name) hsame
  · -- several fields: the calls are on paths, whose first name is looked up like a variable
    rw [if_neg hfs] at hreceiver hreceiver'
    refine ⟨fun h => ?_, fun written _ hlocal => ?_, fun hsame h => ?_⟩
    · -- the first name is a field of the type, and the path goes on from there
      obtain ⟨hlocal, hfield⟩ := h.resolve_left hfs
      obtain ⟨t, ht⟩ := Option.isSome_iff_exists.1 hfield
      rw [resolve?_path hreceiver, pathType?_of_variable (variableType?_of_field hlocal ht),
        methodAlong?, followFields?_cons, ht]
      rfl
    · rw [resolve?_path hreceiver, pathType?_of_variable (variableType?_of_local hlocal)]
      rfl
    · -- nothing but the first name and the hints is looked up in the method
      have hpath := pathType?_congr d owner fs (h.resolve_left hfs)
      rw [resolve?_path hreceiver, resolve?_path hreceiver', hpath, ← hname]
      exact congrArg (fun hs => (d.pathType? ⟨owner, m'⟩ (f :: fs)).bind fun t =>
        d.findMethod? t call.name hs) hsame

/-- A class with nothing but fields and methods. -/
def plainClass (name : String) (fields : List Variable) (methods : List MethodDecl) : TypeDecl :=
  ⟨name, .classDecl, none, [], fields, methods, ⟨1, 1⟩⟩

/-- A class with a field `a`, two types with a field `b`, and the types of these fields. -/
def chainFile : SourceFile :=
  let run : MethodDecl := ⟨"run", [], ⟨1, 1⟩, "", none, none, [], []⟩
  { package := some "p"
    types := [plainClass "A" [⟨"a", "D"⟩] [], plainClass "B" [] [run], plainClass "C" [] [run],
      plainClass "D" [⟨"b", "B"⟩] [], plainClass "E" [⟨"b", "C"⟩] []]
    path := "A.java"
    text := "" }

/-- The call `this.a.b.run()` in the first of these classes is resolved over the two fields, also in
a method with another parameter. -/
theorem resolve?_self_chain_fields :
    let d := ofFiles [chainFile]
    let call : CallSite := ⟨.path ["a", "b"], "run", [], 1⟩
    let owner : Declared := ⟨chainFile, plainClass "A" [⟨"a", "D"⟩] []⟩
    let m : MethodDecl := ⟨"f", [], ⟨1, 1⟩, "", none, none, [], [call]⟩
    let m' : MethodDecl := { m with parameters := [⟨"x", "E", false⟩] }
    (ParseTree.CallsOnChain call ["a", "b"] ∧ m.localType? "a" = none ∧
        m'.localType? "a" = none ∧ d.fieldType? "p.A" "a" = some "p.D") ∧
      d.resolve? ⟨owner, m⟩ call = d.methodAlong? "p.A" ["a", "b"] "run" [] ∧
      d.methodAlong? "p.A" ["a", "b"] "run" [] = some ⟨"p", "B", "run", []⟩ ∧
      d.resolve? ⟨owner, m⟩ call = d.resolve? ⟨owner, m'⟩ call := by
  intro d call owner m m'
  have hchain : ParseTree.CallsOnChain call ["a", "b"] :=
    ParseTree.callsOnChain_of_chainCall ["a", "b"] "run" rfl
  have hfield : d.fieldType? "p.A" "a" = some "p.D" := by decide +zetaReduce
  have hall := resolve?_self_chain [chainFile] owner m m' call call "a" ["b"] hchain hchain rfl
  refine ⟨⟨hchain, rfl, rfl, hfield⟩, hall.1 (.inr ⟨rfl, ?_⟩), ?_, hall.2.2 rfl (.inr rfl)⟩
  · exact Option.isSome_iff_exists.2 ⟨_, hfield⟩
  · decide +zetaReduce

/-- A call on a chain of several fields is not always resolved by following the fields, and not
independently of variables: a parameter `a` takes the place of the field `a` in `this.a.b.run()`. -/
theorem resolve?_self_chain_hidden :
    ¬ ∀ (files : List SourceFile) (owner : Declared) (m m' : MethodDecl) (call : CallSite)
        (f : String) (fs : List String), ParseTree.CallsOnChain call (f :: fs) →
      let d := ofFiles files
      let hints := call.arguments.map (d.hintType? ⟨owner, m⟩)
      hints = call.arguments.map (d.hintType? ⟨owner, m'⟩) →
        d.resolve? ⟨owner, m⟩ call = d.resolve? ⟨owner, m'⟩ call := by
  intro hall
  let call : CallSite := ⟨.path ["a", "b"], "run", [], 1⟩
  let owner : Declared := ⟨chainFile, plainClass "A" [⟨"a", "D"⟩] []⟩
  let m : MethodDecl := ⟨"f", [], ⟨1, 1⟩, "", none, none, [], [call]⟩
  let m' : MethodDecl := { m with parameters := [⟨"a", "E", false⟩] }
  have hchain : ParseTree.CallsOnChain call ["a", "b"] :=
    ParseTree.callsOnChain_of_chainCall ["a", "b"] "run" rfl
  have hsame := hall [chainFile] owner m m' call "a" ["b"] hchain rfl
  have hfield : (ofFiles [chainFile]).resolve? ⟨owner, m⟩ call = some ⟨"p", "B", "run", []⟩ := by
    decide +zetaReduce
  have hparameter : (ofFiles [chainFile]).resolve? ⟨owner, m'⟩ call =
      some ⟨"p", "C", "run", []⟩ := by
    decide +zetaReduce
  rw [hfield, hparameter] at hsame
  exact absurd hsame (by decide)

end Declarations

end CallPaths
