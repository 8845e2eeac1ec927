import CallPaths.Sorted.Set

/-!
# Sorted maps

A finite map as the list of its entries, with strictly increasing keys.  The view is `get?`; the
entries are listed in key order, and two maps with the same lookups are equal
(`SortedMap.ext_get?`).

Main statements: `SortedMap.get?_insert`, `SortedMap.ext_get?`.
-/

namespace CallPaths

/-- A finite map, kept as the list of its entries with strictly increasing keys. -/
structure SortedMap (α : Type u) (β : Type v) [Ord α] where
  /-- The entries in increasing order of their keys. -/
  entries : List (α × β)
  /-- The keys increase strictly. -/
  sorted : entries.Pairwise fun a b => Before a.1 b.1

namespace SortedMap

variable {α : Type u} {β : Type v} [Ord α]

/-- The map without entries. -/
def empty : SortedMap α β := ⟨[], .nil⟩

instance : EmptyCollection (SortedMap α β) := ⟨empty⟩

instance : Inhabited (SortedMap α β) := ⟨empty⟩

/-- The value that an entry list gives to a key. -/
def find (k : α) : List (α × β) → Option β
  | [] => none
  | (k', v) :: rest => if compare k k' = .eq then some v else find k rest

/-- The value of a key. -/
def get? (m : SortedMap α β) (k : α) : Option β :=
  find k m.entries

/-- Whether there is a value for a key. -/
def contains (m : SortedMap α β) (k : α) : Bool :=
  (m.get? k).isSome

/-- The number of entries. -/
def size (m : SortedMap α β) : Nat := m.entries.length

/-- The keys in increasing order. -/
def keyList (m : SortedMap α β) : List α := m.entries.map (·.1)

/-- The values in increasing order of their keys. -/
def values (m : SortedMap α β) : List β := m.entries.map (·.2)

/-- Changes the value at a key of an entry list; `f` is given the value that was there. -/
def placeWith (k : α) (f : Option β → β) : List (α × β) → List (α × β)
  | [] => [(k, f none)]
  | (k', v) :: rest =>
    match compare k k' with
    | .lt => (k, f none) :: (k', v) :: rest
    | .eq => (k', f (some v)) :: rest
    | .gt => (k', v) :: placeWith k f rest

/-- The keys after `placeWith` are the old ones and the given one. -/
theorem mem_placeWith [Std.LawfulEqOrd α] {k : α} {f : Option β → β} {e : α × β}
    {l : List (α × β)} (h : e ∈ placeWith k f l) : e.1 = k ∨ ∃ v, (e.1, v) ∈ l := by
  induction l with
  | nil => simp [placeWith] at h; simp [h]
  | cons p rest ih =>
    obtain ⟨k', v⟩ := p
    unfold placeWith at h
    split at h
    · rcases List.mem_cons.1 h with rfl | h
      · exact .inl rfl
      · exact .inr ⟨e.2, h⟩
    · next heq =>
      rcases List.mem_cons.1 h with rfl | h
      · exact .inl (Std.LawfulEqOrd.eq_of_compare heq).symm
      · exact .inr ⟨e.2, List.mem_cons_of_mem _ h⟩
    · rcases List.mem_cons.1 h with rfl | h
      · exact .inr ⟨v, by simp⟩
      · rcases ih h with e' | ⟨w, hw⟩
        · exact .inl e'
        · exact .inr ⟨w, List.mem_cons_of_mem _ hw⟩

variable [Std.TransOrd α] [Std.LawfulEqOrd α]

/-- `placeWith` keeps the keys strictly increasing. -/
theorem pairwise_placeWith {k : α} {f : Option β → β} {l : List (α × β)}
    (h : l.Pairwise fun a b => Before a.1 b.1) :
    (placeWith k f l).Pairwise fun a b => Before a.1 b.1 := by
  induction l with
  | nil => simp [placeWith]
  | cons p rest ih =>
    obtain ⟨k', v⟩ := p
    have hp := List.pairwise_cons.1 h
    unfold placeWith
    split
    · next hlt =>
      refine List.pairwise_cons.2 ⟨fun e he => ?_, h⟩
      rcases List.mem_cons.1 he with rfl | he
      · exact hlt
      · exact Std.TransCmp.lt_trans hlt (hp.1 e he)
    · exact List.pairwise_cons.2 ⟨fun e he => hp.1 e he, hp.2⟩
    · next hgt =>
      refine List.pairwise_cons.2 ⟨fun e he => ?_, ih hp.2⟩
      rcases mem_placeWith he with h' | ⟨w, hw⟩
      · show Before k' e.1
        rw [h']
        exact Std.OrientedCmp.lt_of_gt hgt
      · exact hp.1 (e.1, w) hw

/-- Changes the value at a key; `f` is given the value that was there. -/
def alter (m : SortedMap α β) (k : α) (f : Option β → β) : SortedMap α β :=
  ⟨placeWith k f m.entries, pairwise_placeWith m.sorted⟩

/-- Sets the value at a key. -/
def insert (m : SortedMap α β) (k : α) (v : β) : SortedMap α β :=
  m.alter k fun _ => v

/-- Sets the value at a key that has none; a value that is there already stays. -/
def insertIfNew (m : SortedMap α β) (k : α) (v : β) : SortedMap α β :=
  m.alter k fun old => old.getD v

/-- The map of a list of entries, where the last entry of a key counts. -/
def ofList (l : List (α × β)) : SortedMap α β :=
  l.foldl (fun m e => m.insert e.1 e.2) empty

variable [DecidableEq α]

/-- The lookups after `placeWith`. -/
theorem find_placeWith {k x : α} {f : Option β → β} {l : List (α × β)}
    (h : l.Pairwise fun a b => Before a.1 b.1) :
    find x (placeWith k f l) = if x = k then some (f (find k l)) else find x l := by
  have refl : ∀ a : α, compare a a = .eq := fun _ => Std.ReflCmp.compare_self
  have eq_iff : ∀ a b : α, compare a b = .eq ↔ a = b :=
    fun a b => ⟨Std.LawfulEqOrd.eq_of_compare, fun e => e ▸ refl a⟩
  induction l with
  | nil => simp [placeWith, find, eq_iff]
  | cons p rest ih =>
    obtain ⟨k', v⟩ := p
    have hp := List.pairwise_cons.1 h
    unfold placeWith
    split
    · next hlt =>
      have hne : k ≠ k' := fun e => by rw [e, refl] at hlt; cases hlt
      have hfind : find k ((k', v) :: rest) = none := by
        have : ∀ e ∈ (k', v) :: rest, Before k e.1 := fun e he => by
          rcases List.mem_cons.1 he with rfl | he
          · exact hlt
          · exact Std.TransCmp.lt_trans hlt (hp.1 e he)
        generalize (k', v) :: rest = l at this
        induction l with
        | nil => rfl
        | cons q l ih =>
          have hq := this q (by simp)
          unfold Before at hq
          simp only [find, hq, reduceCtorEq, if_false]
          exact ih fun e he => this e (by simp [he])
      rw [hfind]
      by_cases hx : x = k
      · simp [find, hx]
      · simp [find, eq_iff, hx]
    · next heq =>
      have := (eq_iff _ _).1 heq
      subst this
      by_cases hx : x = k
      · simp [find, hx]
      · simp [find, eq_iff, hx]
    · next hgt =>
      have hne : k ≠ k' := fun e => by rw [e, refl] at hgt; cases hgt
      by_cases hx : x = k'
      · subst hx
        simp [find, Ne.symm hne]
      · simp only [find, eq_iff, hx, if_false, hne, ih hp.2]

/-- The lookups after `alter`. -/
theorem get?_alter {m : SortedMap α β} {k x : α} {f : Option β → β} :
    (m.alter k f).get? x = if x = k then some (f (m.get? k)) else m.get? x :=
  find_placeWith m.sorted

/-- The lookups after `insert`. -/
theorem get?_insert {m : SortedMap α β} {k x : α} {v : β} :
    (m.insert k v).get? x = if x = k then some v else m.get? x :=
  get?_alter

/-- The lookups after `insertIfNew`. -/
theorem get?_insertIfNew {m : SortedMap α β} {k x : α} {v : β} :
    (m.insertIfNew k v).get? x = if x = k then some ((m.get? k).getD v) else m.get? x :=
  get?_alter

omit [Std.TransOrd α] [DecidableEq α] in
/-- A value found for a key stands in an entry. -/
theorem mem_of_find {k : α} {v : β} {l : List (α × β)} (h : find k l = some v) : (k, v) ∈ l := by
  induction l with
  | nil => cases h
  | cons e rest ih =>
    unfold find at h
    split at h
    · next heq =>
      cases h
      rw [Std.LawfulEqOrd.eq_of_compare heq]
      simp
    · exact List.mem_cons_of_mem _ (ih h)

omit [DecidableEq α] in
/-- In an entry list with increasing keys each entry is found. -/
theorem find_of_mem {k : α} {v : β} {l : List (α × β)}
    (h : l.Pairwise fun a b => Before a.1 b.1) (hm : (k, v) ∈ l) : find k l = some v := by
  induction l with
  | nil => cases hm
  | cons e rest ih =>
    have hp := List.pairwise_cons.1 h
    unfold find
    rcases List.mem_cons.1 hm with rfl | hm
    · simp
    · have hlt : Before e.1 k := hp.1 _ hm
      have : compare k e.1 = .gt := Std.OrientedCmp.gt_of_lt hlt
      simp [this, ih hp.2 hm]

omit [DecidableEq α] in
/-- A key has the value that its entry gives. -/
theorem get?_eq_some_iff {m : SortedMap α β} {k : α} {v : β} :
    m.get? k = some v ↔ (k, v) ∈ m.entries :=
  ⟨mem_of_find, find_of_mem m.sorted⟩

omit [DecidableEq α] in
/-- A map is fixed by its lookups. -/
theorem ext_get? {m n : SortedMap α β} (h : ∀ k, m.get? k = n.get? k) : m = n := by
  have irrefl : ∀ x : α, ¬ Before x x := fun x hx => by
    have : compare x x = .eq := Std.ReflCmp.compare_self
    rw [Before, this] at hx
    cases hx
  have hmem : ∀ e : α × β, e ∈ m.entries ↔ e ∈ n.entries := fun e => by
    rw [← get?_eq_some_iff (m := m), ← get?_eq_some_iff (m := n), h]
  suffices m.entries = n.entries by
    cases m
    cases n
    cases this
    rfl
  have h₁ := m.sorted
  have h₂ := n.sorted
  revert hmem h₁ h₂
  generalize m.entries = l₁
  generalize n.entries = l₂
  intro hmem h₁ h₂
  induction l₁ generalizing l₂ with
  | nil =>
    cases l₂ with
    | nil => rfl
    | cons b bs => exact absurd ((hmem b).2 (by simp)) (by simp)
  | cons a as ih =>
    cases l₂ with
    | nil => exact absurd ((hmem a).1 (by simp)) (by simp)
    | cons b bs =>
      have ha := List.pairwise_cons.1 h₁
      have hb := List.pairwise_cons.1 h₂
      have hab : a = b := by
        rcases List.mem_cons.1 ((hmem a).1 (by simp)) with e | m₁
        · exact e
        · rcases List.mem_cons.1 ((hmem b).2 (by simp)) with e | m₂
          · exact e.symm
          · exact absurd (Std.TransCmp.lt_trans (ha.1 b m₂) (hb.1 a m₁)) (irrefl a.1)
      subst hab
      congr 1
      refine ih bs (fun x => ?_) ha.2 hb.2
      have hx := hmem x
      simp only [List.mem_cons] at hx
      constructor
      · intro m'
        rcases hx.1 (.inr m') with rfl | m''
        · exact absurd (ha.1 x m') (irrefl x.1)
        · exact m''
      · intro m'
        rcases hx.2 (.inr m') with rfl | m''
        · exact absurd (hb.1 x m') (irrefl x.1)
        · exact m''

end SortedMap

end CallPaths
