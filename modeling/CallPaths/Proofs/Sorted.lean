import CallPaths.Sorted.Map

/-!
# Lookups in sorted sets and maps

Facts on `SortedSet` and `SortedMap` that the theory of graphs and snapshots rests on: which keys
and values are listed, what a fold of insertions makes of a list, and which element a search through
an increasing list comes to.

## Key results

- `find?_eq_some_iff_isFirst`: a search through an increasing list finds the least element
- `SortedMap.mem_keyList`: the listed keys are those with a value
- `SortedMap.get?_foldl_insertIfNew`: of several values for one key the first one counts
-/

namespace CallPaths

/-- No element comes before itself. -/
theorem Before.irrefl {α : Type u} [Ord α] [Std.ReflOrd α] (a : α) : ¬ Before a a := by
  intro h
  have hself : compare a a = .eq := Std.ReflCmp.compare_self
  rw [Before, hself] at h
  cases h

/-- An element has a property and comes before all others that have it. -/
def IsFirst {α : Type u} [Ord α] (P : α → Prop) (a : α) : Prop :=
  P a ∧ ∀ b, P b → b ≠ a → Before a b

/-- A search through an increasing list comes to the least of the elements it looks for. -/
theorem find?_eq_some_iff_isFirst {α : Type u} [Ord α] [Std.TransOrd α] {p : α → Bool} {l : List α}
    (h : l.Pairwise Before) {a : α} :
    l.find? p = some a ↔ IsFirst (fun b => b ∈ l ∧ p b = true) a := by
  constructor
  · intro hfind
    obtain ⟨hpa, before, after, rfl, hbefore⟩ := List.find?_eq_some_iff_append.1 hfind
    refine ⟨⟨by simp, hpa⟩, fun b ⟨hb, hpb⟩ hne => ?_⟩
    rcases List.mem_append.1 hb with hb | hb
    · exact absurd hpb (by simpa using hbefore b hb)
    · rcases List.mem_cons.1 hb with rfl | hb
      · exact absurd rfl hne
      · exact (List.pairwise_cons.1 (List.pairwise_append.1 h).2.1).1 b hb
  · rintro ⟨⟨ha, hpa⟩, hfirst⟩
    obtain ⟨before, after, rfl⟩ := List.append_of_mem ha
    refine List.find?_eq_some_iff_append.2 ⟨hpa, before, after, rfl, fun b hb => ?_⟩
    have hba : Before b a := (List.pairwise_append.1 h).2.2 b hb a (by simp)
    -- an element that the search looks for cannot stand before the least one
    cases hpb : p b with
    | false => rfl
    | true =>
      have hne : b ≠ a := by
        rintro rfl
        exact Before.irrefl b hba
      have hab := hfirst b ⟨by simp [hb], hpb⟩ hne
      exact absurd (Std.TransCmp.lt_trans hab hba) (Before.irrefl a)

namespace SortedSet

variable {α : Type u} [Ord α] [Std.TransOrd α] [Std.LawfulEqOrd α]

omit [Std.TransOrd α] [Std.LawfulEqOrd α] in
/-- A set is empty exactly if it has no member. -/
theorem isEmpty_iff {s : SortedSet α} : s.isEmpty ↔ ∀ a, a ∉ s := by
  rw [isEmpty, List.isEmpty_iff, List.eq_nil_iff_forall_not_mem]
  rfl

/-- Inserting the elements of a list one after another adds exactly these. -/
theorem mem_foldl_insert {x : α} {l : List α} {s : SortedSet α} :
    x ∈ l.foldl (fun s a => s.insert a) s ↔ x ∈ l ∨ x ∈ s := by
  induction l generalizing s with
  | nil => simp
  | cons a l ih =>
    simp only [List.foldl_cons, ih, mem_insert, List.mem_cons]
    constructor
    · rintro (h | h | h) <;> simp [h]
    · rintro ((h | h) | h) <;> simp [h]

omit [Std.LawfulEqOrd α] in
/-- The least member comes before all others. -/
theorem min?_eq_some_iff {s : SortedSet α} {a : α} : s.min? = some a ↔ IsFirst (· ∈ s) a := by
  have hfind : s.min? = s.toList.find? fun _ => true := by
    rw [min?]
    cases s.toList <;> rfl
  rw [hfind, find?_eq_some_iff_isFirst s.sorted]
  simp only [and_true]
  rfl

omit [Std.TransOrd α] in
/-- An increasing list repeats nothing. -/
theorem nodup_of_pairwise {l : List α} (h : l.Pairwise Before) : l.Nodup := by
  refine h.imp fun hab heq => ?_
  rw [heq] at hab
  exact Before.irrefl _ hab

end SortedSet

namespace SortedMap

variable {α : Type u} {β : Type v} [Ord α] [Std.TransOrd α] [Std.LawfulEqOrd α]

/-- The listed keys are those with a value. -/
theorem mem_keyList {m : SortedMap α β} {k : α} : k ∈ m.keyList ↔ m.contains k := by
  rw [contains, Option.isSome_iff_exists]
  simp only [get?_eq_some_iff, keyList, List.mem_map]
  constructor
  · rintro ⟨⟨k', v⟩, hmem, rfl⟩
    exact ⟨v, hmem⟩
  · rintro ⟨v, hmem⟩
    exact ⟨(k, v), hmem, rfl⟩

omit [Std.TransOrd α] [Std.LawfulEqOrd α] in
/-- The keys increase. -/
theorem pairwise_keyList (m : SortedMap α β) : m.keyList.Pairwise Before :=
  List.pairwise_map.2 m.sorted

/-- The listed values are those of the keys. -/
theorem mem_values {m : SortedMap α β} {v : β} : v ∈ m.values ↔ ∃ k, m.get? k = some v := by
  simp only [get?_eq_some_iff, values, List.mem_map]
  constructor
  · rintro ⟨⟨k, v'⟩, hmem, rfl⟩
    exact ⟨k, hmem⟩
  · rintro ⟨k, hmem⟩
    exact ⟨(k, v), hmem, rfl⟩

variable [DecidableEq α]

omit [Std.TransOrd α] [Std.LawfulEqOrd α] [DecidableEq α] in
/-- The empty map has no values. -/
@[simp] theorem get?_empty (k : α) : (∅ : SortedMap α β).get? k = none := rfl

/-- `alter` gives its key a value and takes none away. -/
@[simp] theorem contains_alter {m : SortedMap α β} {k x : α} {f : Option β → β} :
    (m.alter k f).contains x ↔ x = k ∨ m.contains x := by
  rw [contains, get?_alter]
  by_cases h : x = k
  · simp [h]
  · simp [h, contains]

/-- A fold of insertions that keep what is there: a key has its old value, or else that of the first
element of the list with this key. -/
theorem get?_foldl_insertIfNew {γ : Type w} (key : γ → α) (val : γ → β) (l : List γ)
    (m : SortedMap α β) (k : α) :
    (l.foldl (fun m c => m.insertIfNew (key c) (val c)) m).get? k =
      (m.get? k).or ((l.find? fun c => key c = k).map val) := by
  induction l generalizing m with
  | nil => simp
  | cons c l ih =>
    rw [List.foldl_cons, ih, get?_insertIfNew]
    by_cases h : k = key c
    · subst h
      cases hm : m.get? (key c) with
      | none => simp
      | some v => simp
    · rw [if_neg h, List.find?_cons_of_neg (by simpa using Ne.symm h)]

/-- After such a fold exactly the old keys and the keys of the list have a value. -/
theorem contains_foldl_insertIfNew {γ : Type w} (key : γ → α) (val : γ → β) (l : List γ)
    (m : SortedMap α β) (k : α) :
    (l.foldl (fun m c => m.insertIfNew (key c) (val c)) m).contains k ↔
      m.contains k ∨ ∃ c ∈ l, key c = k := by
  rw [contains, get?_foldl_insertIfNew, Option.isSome_or, Bool.or_eq_true, Option.isSome_map,
    List.find?_isSome]
  simp [contains]

end SortedMap

end CallPaths
