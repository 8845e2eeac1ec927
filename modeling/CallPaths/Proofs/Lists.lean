import Mathlib.Algebra.GroupWithZero.Nat
import Mathlib.Data.List.Basic
import Mathlib.Data.List.TakeWhile

/-!
# Lists

Facts about lists that do not concern programs: first members with a property, first values of a
function, and lists that are put together from pieces.
-/

namespace CallPaths

/-! ### First members -/

/-- The first member of a list that has a property. -/
def IsFirstOf {α : Type} (l : List α) (P : α → Prop) (a : α) : Prop :=
  P a ∧ ∃ before after, l = before ++ a :: after ∧ ∀ b ∈ before, ¬ P b

theorem IsFirstOf.mem {α : Type} {l : List α} {P : α → Prop} {a : α} (h : IsFirstOf l P a) :
    a ∈ l := by
  obtain ⟨-, before, after, rfl, -⟩ := h
  simp

theorem find?_eq_some_iff_isFirstOf {α : Type} {l : List α} {P : α → Prop} [DecidablePred P]
    {a : α} : l.find? (fun b => P b) = some a ↔ IsFirstOf l P a := by
  simp only [List.find?_eq_some_iff_append, IsFirstOf, decide_eq_true_eq, Bool.not_eq_true',
    decide_eq_false_iff_not]

/-- What is read off the first member of a list that has a property. -/
theorem map_find?_eq_some_iff {α β : Type} {l : List α} {p : α → Bool} {P : α → Prop} {g : α → β}
    (hp : ∀ a, p a = true ↔ P a) (b : β) :
    (l.find? p).map g = some b ↔ ∃ a, IsFirstOf l P a ∧ b = g a := by
  have hp' : ∀ a, p a = false ↔ ¬ P a := fun a => by rw [← hp, Bool.not_eq_true]
  simp only [Option.map_eq_some_iff, List.find?_eq_some_iff_append, IsFirstOf, Bool.not_eq_true',
    hp, hp', @eq_comm β b]

/-! ### First values -/

theorem findSome?_toList {α β : Type} (o : Option α) (g : α → Option β) :
    o.toList.findSome? g = o.bind g := by
  cases o with
  | none => rfl
  | some a => cases hg : g a <;> simp [hg]

/-- The first value that a function gives on a list does not depend on the order of the list, if the
function gives one value only. -/
theorem findSome?_perm {α : Type u} {β : Type v} {f : α → Option β} {l₁ l₂ : List α}
    (h : l₁.Perm l₂)
    (huniq : ∀ a ∈ l₁, ∀ b ∈ l₁, ∀ x ∈ f a, ∀ y ∈ f b, x = y) :
    l₁.findSome? f = l₂.findSome? f := by
  cases h₁ : l₁.findSome? f with
  | none =>
    rw [List.findSome?_eq_none_iff] at h₁
    exact (List.findSome?_eq_none_iff.2 fun a ha => h₁ a (h.mem_iff.2 ha)).symm
  | some x =>
    obtain ⟨a, ha, hx⟩ := List.exists_of_findSome?_eq_some h₁
    have hsome : (l₂.findSome? f).isSome :=
      List.findSome?_isSome_iff.2 ⟨a, h.mem_iff.1 ha, by rw [hx]; rfl⟩
    obtain ⟨y, h₂⟩ := Option.isSome_iff_exists.1 hsome
    obtain ⟨b, hb, hy⟩ := List.exists_of_findSome?_eq_some h₂
    rw [h₂, huniq a ha b (h.mem_iff.2 hb) x hx y hy]

/-- A function that gives a value for every element of a list gives all of them. -/
theorem mapM_eq_some_of_forall {α : Type u} {β : Type v} {f : α → Option β} {g : α → β} {l : List α}
    (h : ∀ x ∈ l, f x = some (g x)) : l.mapM f = some (l.map g) := by
  induction l with
  | nil => rfl
  | cons x l ih =>
    simp [List.mapM_cons, h x (by simp), ih fun y hy => h y (by simp [hy])]

/-! ### Members and pieces -/

theorem mem_dropWhile_of_not {α : Type} {p : α → Bool} {a : α} {l : List α} (ha : a ∈ l)
    (hp : p a = false) : a ∈ l.dropWhile p := by
  rw [← List.takeWhile_append_dropWhile (p := p) (l := l), List.mem_append] at ha
  rcases ha with ha | ha
  · exact absurd (List.mem_takeWhile_imp ha) (by simp [hp])
  · exact ha

private theorem length_flatMap_le {α β : Type} {f g : α → List β} {l : List α}
    (h : ∀ a ∈ l, (g a).length ≤ (f a).length) : (l.flatMap g).length ≤ (l.flatMap f).length := by
  induction l with
  | nil => exact Nat.le_refl 0
  | cons a l ih =>
    obtain ⟨ha, hl⟩ := List.forall_mem_cons.1 h
    have hle := ih hl
    simp only [List.flatMap_cons, List.length_append]
    omega

/-- Lists that are put together are equal only piece by piece, if no piece of one is shorter. -/
theorem flatMap_eq_flatMap_iff {α β : Type} {f g : α → List β} {l : List α}
    (h : ∀ a ∈ l, (g a).length ≤ (f a).length) :
    l.flatMap f = l.flatMap g ↔ ∀ a ∈ l, f a = g a := by
  refine ⟨fun heq => ?_, List.flatMap_congr⟩
  induction l with
  | nil => simp
  | cons a l ih =>
    obtain ⟨ha, hl⟩ := List.forall_mem_cons.1 h
    have hle := length_flatMap_le hl
    have hlength := congrArg List.length heq
    simp only [List.flatMap_cons, List.length_append] at hlength
    obtain ⟨hfirst, hrest⟩ := List.append_inj heq (by omega)
    exact List.forall_mem_cons.2 ⟨hfirst, ih hl hrest⟩

/-! ### Sums -/

theorem foldl_add_eq (init : Nat) (points : List Nat) :
    points.foldl (· + ·) init = init + points.sum := by
  rw [List.sum_eq_foldl]
  exact @List.foldl_assoc Nat (· + ·) _ points init 0

end CallPaths
