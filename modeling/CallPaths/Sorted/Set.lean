/-!
# Sorted sets

A finite set as the strictly increasing list of its members.  The list is the view: membership,
size and order of iteration are read off it, and two sets with the same members are equal
(`SortedSet.ext_mem`).

Main statements: `SortedSet.mem_insert`, `SortedSet.mem_union`, `SortedSet.ext_mem`.
-/

namespace CallPaths

/-- The strict order that `compare` gives. -/
def Before {α : Type u} [Ord α] (a b : α) : Prop :=
  compare a b = .lt

instance {α : Type u} [Ord α] (a b : α) : Decidable (Before a b) :=
  inferInstanceAs (Decidable (compare a b = .lt))

/-- A finite set, kept as the strictly increasing list of its members. -/
structure SortedSet (α : Type u) [Ord α] where
  /-- The members in increasing order. -/
  toList : List α
  /-- The members increase strictly. -/
  sorted : toList.Pairwise Before

namespace SortedSet

variable {α : Type u} [Ord α]

/-- The set without members. -/
def empty : SortedSet α := ⟨[], .nil⟩

instance : EmptyCollection (SortedSet α) := ⟨empty⟩

instance : Inhabited (SortedSet α) := ⟨empty⟩

instance : Membership α (SortedSet α) := ⟨fun s a => a ∈ s.toList⟩

/-- Membership in a set is membership in its list. -/
theorem mem_def {a : α} {s : SortedSet α} : a ∈ s ↔ a ∈ s.toList := Iff.rfl

/-- Puts a member at its place in an increasing list; a member that is there already stays. -/
def place (a : α) : List α → List α
  | [] => [a]
  | b :: bs =>
    match compare a b with
    | .lt => a :: b :: bs
    | .eq => b :: bs
    | .gt => b :: place a bs

/-- After `place` the list has the old members and the new one. -/
theorem mem_place [Std.LawfulEqOrd α] {a x : α} {l : List α} : x ∈ place a l ↔ x = a ∨ x ∈ l := by
  induction l with
  | nil => simp [place]
  | cons b bs ih =>
    unfold place
    split
    · simp
    · next h => have := Std.LawfulEqOrd.eq_of_compare h; subst this; simp
    · simp only [List.mem_cons, ih]
      constructor
      · rintro (h | h | h) <;> simp [h]
      · rintro (h | h | h) <;> simp [h]

section Insertion

variable [Std.TransOrd α] [Std.LawfulEqOrd α]

/-- `place` keeps a list strictly increasing. -/
theorem pairwise_place {a : α} {l : List α} (h : l.Pairwise Before) :
    (place a l).Pairwise Before := by
  induction l with
  | nil => simp [place]
  | cons b bs ih =>
    have hb := List.pairwise_cons.1 h
    unfold place
    split
    · next hlt =>
      refine List.pairwise_cons.2 ⟨fun x hx => ?_, h⟩
      rcases List.mem_cons.1 hx with rfl | hx
      · exact hlt
      · exact Std.TransCmp.lt_trans hlt (hb.1 x hx)
    · exact h
    · next hgt =>
      refine List.pairwise_cons.2 ⟨fun x hx => ?_, ih hb.2⟩
      rcases mem_place.1 hx with rfl | hx
      · exact Std.OrientedCmp.lt_of_gt hgt
      · exact hb.1 x hx

/-- Adds a member. -/
def insert (a : α) (s : SortedSet α) : SortedSet α :=
  ⟨place a s.toList, pairwise_place s.sorted⟩

/-- The set of the members of a list. -/
def ofList (l : List α) : SortedSet α :=
  l.foldr insert empty

/-- The members of either set. -/
def union (s t : SortedSet α) : SortedSet α :=
  s.toList.foldr insert t

end Insertion

/-- A filtered increasing list increases. -/
theorem pairwise_filter {p : α → Bool} {l : List α} (h : l.Pairwise Before) :
    (l.filter p).Pairwise Before :=
  h.sublist List.filter_sublist

/-- The members with a property. -/
def filter (p : α → Bool) (s : SortedSet α) : SortedSet α :=
  ⟨s.toList.filter p, pairwise_filter s.sorted⟩

/-- Whether `a` is a member. -/
def contains (a : α) (s : SortedSet α) : Bool :=
  s.toList.any fun b => compare a b == .eq

/-- The number of members. -/
def size (s : SortedSet α) : Nat := s.toList.length

/-- Whether there is no member. -/
def isEmpty (s : SortedSet α) : Bool := s.toList.isEmpty

/-- The least member. -/
def min? (s : SortedSet α) : Option α := s.toList.head?

/-! ### Lemmas -/

/-- The empty set has no member. -/
@[simp] theorem not_mem_empty (a : α) : a ∉ (∅ : SortedSet α) := List.not_mem_nil

/-- `filter` keeps exactly the members with the property. -/
@[simp] theorem mem_filter {x : α} {p : α → Bool} {s : SortedSet α} :
    x ∈ s.filter p ↔ x ∈ s ∧ p x := List.mem_filter

/-- `contains` decides membership. -/
@[simp] theorem contains_iff [Std.LawfulEqOrd α] {a : α} {s : SortedSet α} :
    s.contains a ↔ a ∈ s := by
  unfold contains
  simp only [List.any_eq_true, beq_iff_eq]
  constructor
  · rintro ⟨b, hb, h⟩
    rw [Std.LawfulEqOrd.eq_of_compare h]
    exact hb
  · intro h
    exact ⟨a, h, Std.ReflCmp.compare_self⟩

instance [Std.LawfulEqOrd α] (a : α) (s : SortedSet α) : Decidable (a ∈ s) :=
  decidable_of_iff (s.contains a = true) contains_iff

variable [Std.TransOrd α] [Std.LawfulEqOrd α]

/-- `insert` adds exactly its argument. -/
@[simp] theorem mem_insert {a x : α} {s : SortedSet α} : x ∈ s.insert a ↔ x = a ∨ x ∈ s :=
  mem_place

/-- `union` has the members of both sides. -/
@[simp] theorem mem_union {x : α} {s t : SortedSet α} : x ∈ s.union t ↔ x ∈ s ∨ x ∈ t := by
  show x ∈ s.toList.foldr insert t ↔ x ∈ s.toList ∨ x ∈ t
  generalize s.toList = l
  induction l with
  | nil => simp
  | cons a l ih => simp [ih, or_assoc]

/-- `ofList` has the members of the list. -/
@[simp] theorem mem_ofList {x : α} {l : List α} : x ∈ ofList l ↔ x ∈ l := by
  induction l with
  | nil => exact iff_of_false (not_mem_empty x) List.not_mem_nil
  | cons a l ih =>
    show x ∈ (ofList l).insert a ↔ _
    simp [ih]

/-- Strictly increasing lists with the same members are equal. -/
theorem eq_of_pairwise {l₁ l₂ : List α} (h₁ : l₁.Pairwise Before) (h₂ : l₂.Pairwise Before)
    (h : ∀ x, x ∈ l₁ ↔ x ∈ l₂) : l₁ = l₂ := by
  induction l₁ generalizing l₂ with
  | nil =>
    cases l₂ with
    | nil => rfl
    | cons b bs => exact absurd ((h b).2 (by simp)) (by simp)
  | cons a as ih =>
    cases l₂ with
    | nil => exact absurd ((h a).1 (by simp)) (by simp)
    | cons b bs =>
      have ha := List.pairwise_cons.1 h₁
      have hb := List.pairwise_cons.1 h₂
      have irrefl : ∀ x : α, ¬ Before x x := fun x hx => by
        have : compare x x = .eq := Std.ReflCmp.compare_self
        rw [Before, this] at hx
        cases hx
      have hab : a = b := by
        rcases List.mem_cons.1 ((h a).1 (by simp)) with e | hmem
        · exact e
        · rcases List.mem_cons.1 ((h b).2 (by simp)) with e | hmem'
          · exact e.symm
          · exact absurd (Std.TransCmp.lt_trans (ha.1 b hmem') (hb.1 a hmem)) (irrefl a)
      subst hab
      congr 1
      refine ih ha.2 hb.2 fun x => ?_
      have hx := h x
      simp only [List.mem_cons] at hx
      constructor
      · intro m
        rcases hx.1 (.inr m) with rfl | m'
        · exact absurd (ha.1 x m) (irrefl x)
        · exact m'
      · intro m
        rcases hx.2 (.inr m) with rfl | m'
        · exact absurd (hb.1 x m) (irrefl x)
        · exact m'

/-- A set is fixed by its members. -/
theorem ext_mem {s t : SortedSet α} (h : ∀ x, x ∈ s ↔ x ∈ t) : s = t := by
  cases s with | mk l₁ h₁ =>
  cases t with | mk l₂ h₂ =>
  have : l₁ = l₂ := eq_of_pairwise h₁ h₂ h
  subst this
  rfl

end SortedSet

end CallPaths
