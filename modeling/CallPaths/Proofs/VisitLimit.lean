import CallPaths.Proofs.Branches

/-!
# Branches within a visit limit

A walk over a tree pays for the children of a node before it goes down to them, and ends when its
budget does not cover them.  `CallTree.branchesWithin` lists the branches that such a walk comes to.

Payments add up (`Budget.spend_spend`), so the budget after a walk has a closed form: it is what
paying for all nodes below the root at once gives.  The branches that a limited walk comes to are a
prefix of those of a walk with a higher limit or none, and all of them unless the budget ran out.

## Key results

- `CallTree.branchesWithin_snd`: the budget after a walk
- `CallTree.branchesWithin_prefix_of_tighter`: a higher limit adds branches at the end
- `CallTree.branchesWithin_of_covered`, `CallTree.length_branchesWithin_lt`: a walk lists all
  branches exactly if its budget covers the tree
-/

namespace CallPaths

namespace Budget

/-- The visits so far do not go beyond the limit. -/
def WithinLimit (b : Budget) : Prop :=
  ∀ l ∈ b.limit, b.used ≤ l

/-- No visit was refused so far, and `n` further ones would not be. -/
def Covers (b : Budget) (n : Nat) : Prop :=
  b.exhausted = false ∧ ∀ l ∈ b.limit, b.used + n ≤ l

/-! ### Payments -/

/-- Paying keeps the limit. -/
@[simp] theorem limit_spend (b : Budget) (n : Nat) : (b.spend n).limit = b.limit := by
  unfold spend
  split
  · rfl
  · split <;> rfl

/-- Two payments are one payment of both amounts. -/
theorem spend_spend (b : Budget) (n k : Nat) : (b.spend n).spend k = b.spend (n + k) := by
  obtain ⟨limit, used, exhausted⟩ := b
  cases limit with
  | none => simp [spend, Nat.add_assoc]
  | some l =>
    by_cases hn : l < used + n
    · by_cases hk : l < l + k
      · simp [spend, hn, hk, show l < used + (n + k) by omega]
      · simp [spend, hn, show k = 0 by omega]
    · by_cases hk : l < used + n + k
      · simp [spend, hn, hk, show l < used + (n + k) by omega]
      · simp [spend, hn, show ¬ l < used + (n + k) by omega, Nat.add_assoc]

/-- A payment is refused exactly if the budget does not cover it. -/
theorem exhausted_spend {b : Budget} (n : Nat) :
    (b.spend n).exhausted = false ↔ b.Covers n := by
  obtain ⟨limit, used, exhausted⟩ := b
  cases limit with
  | none => simp [spend, Covers]
  | some l =>
    by_cases hn : l < used + n
    · simp [spend, Covers, hn, show ¬ used + n ≤ l by omega]
    · simp [spend, Covers, hn, show used + n ≤ l by omega]

/-- The visits are counted up to the limit. -/
private theorem used_spend {b : Budget} {l : Nat} (h : b.limit = some l) (n : Nat) :
    (b.spend n).used = min l (b.used + n) := by
  unfold spend
  rw [h]
  by_cases hn : l < b.used + n
  · simp only [hn, if_true]
    omega
  · simp only [hn, if_false]
    omega

/-- A budget covers what does not go beyond its limit. -/
private theorem covers_iff {b : Budget} {l : Nat} (h : b.limit = some l) (hb : b.exhausted = false)
    (n : Nat) : b.Covers n ↔ b.used + n ≤ l := by
  simp [Covers, h, hb]

/-- A budget without a limit covers everything. -/
private theorem covers_of_unlimited {b : Budget} (h : b.limit = none) (hb : b.exhausted = false)
    (n : Nat) : b.Covers n := by
  simp [Covers, h, hb]

/-- A covered payment is counted. -/
theorem spend_of_covers {b : Budget} {n : Nat} (h : b.Covers n) :
    b.spend n = { b with used := b.used + n } := by
  obtain ⟨limit, used, exhausted⟩ := b
  cases limit with
  | none => rfl
  | some l =>
    have hle : used + n ≤ l := h.2 l rfl
    simp [spend, show ¬ l < used + n by omega]

/-- After a refused payment nothing more is counted. -/
theorem spend_add_of_not_covers {b : Budget} {n : Nat} (hb : b.exhausted = false)
    (h : ¬ b.Covers n) (k : Nat) : b.spend (n + k) = b.spend n := by
  obtain ⟨limit, used, exhausted⟩ := b
  cases limit with
  | none => exact absurd ⟨hb, by simp⟩ h
  | some l =>
    have hlt : l < used + n := by
      apply Nat.lt_of_not_le
      intro hle
      exact h ⟨hb, by simpa using hle⟩
    simp [spend, hlt, show l < used + (n + k) by omega]

/-- A payment of nothing changes nothing. -/
theorem spend_zero {b : Budget} (h : b.WithinLimit) : b.spend 0 = b := by
  obtain ⟨limit, used, exhausted⟩ := b
  cases limit with
  | none => rfl
  | some l =>
    have hle : used ≤ l := h l rfl
    simp [spend, show ¬ l < used by omega]

/-- Paying keeps the visits within the limit. -/
theorem WithinLimit.spend {b : Budget} (h : b.WithinLimit) (n : Nat) : (b.spend n).WithinLimit := by
  obtain ⟨limit, used, exhausted⟩ := b
  cases limit with
  | none => simp [WithinLimit, Budget.spend]
  | some l =>
    by_cases hn : l < used + n
    · simp [WithinLimit, Budget.spend, hn]
    · simp [WithinLimit, Budget.spend, hn, show used + n ≤ l by omega]

/-- A budget that covers a sum covers its parts one after the other. -/
theorem covers_add {b : Budget} {n k : Nat} :
    b.Covers (n + k) ↔ b.Covers n ∧ (b.spend n).Covers k := by
  rw [← exhausted_spend, ← exhausted_spend, ← exhausted_spend, spend_spend]
  constructor
  · intro h
    refine ⟨?_, h⟩
    rw [exhausted_spend] at h ⊢
    exact ⟨h.1, fun l hl => Nat.le_trans (by omega) (h.2 l hl)⟩
  · exact And.right

/-- A budget that was not exhausted and is within its limit covers nothing. -/
theorem WithinLimit.covers_zero {b : Budget} (h : b.WithinLimit) (hb : b.exhausted = false) :
    b.Covers 0 :=
  ⟨hb, h⟩

/-! ### Comparing budgets -/

/-- Two budgets with the same visits so far, the first one with the lower limit. -/
structure Tighter (b b' : Budget) : Prop where
  used_eq : b.used = b'.used
  not_exhausted : b.exhausted = false
  not_exhausted' : b'.exhausted = false
  limit_le : ∀ l' ∈ b'.limit, ∃ l ∈ b.limit, l ≤ l'

/-- What the tighter budget covers, the other one covers too. -/
theorem Tighter.covers {b b' : Budget} (h : Tighter b b') {n : Nat} (hn : b.Covers n) :
    b'.Covers n := by
  refine ⟨h.not_exhausted', fun l' hl' => ?_⟩
  obtain ⟨l, hl, hle⟩ := h.limit_le l' hl'
  have hused := hn.2 l hl
  have heq := h.used_eq
  omega

/-- Covered payments keep the order of two budgets. -/
theorem Tighter.spend {b b' : Budget} (h : Tighter b b') {n : Nat} (hn : b.Covers n) :
    Tighter (b.spend n) (b'.spend n) where
  used_eq := by
    rw [spend_of_covers hn, spend_of_covers (h.covers hn)]
    simp [h.used_eq]
  not_exhausted := (exhausted_spend n).2 hn
  not_exhausted' := (exhausted_spend n).2 (h.covers hn)
  limit_le := by simpa using h.limit_le

/-! ### Budgets before the first visit -/

/-- The budget of a walk before its first visit. -/
def initial (limit : Option Nat) : Budget :=
  { limit }

/-- Before the first visit the visits are within the limit. -/
theorem withinLimit_initial (limit : Option Nat) : (initial limit).WithinLimit := by
  simp [WithinLimit, initial]

/-- Without a limit everything is covered. -/
theorem covers_initial_none (n : Nat) : (initial none).Covers n :=
  covers_of_unlimited rfl rfl n

/-- A limit covers as many visits as it says. -/
theorem covers_initial_some {l n : Nat} : (initial (some l)).Covers n ↔ n ≤ l := by
  rw [covers_iff rfl rfl]
  simp [initial]

/-- Of `n` visits those up to the limit are counted. -/
theorem used_spend_initial (l n : Nat) : ((initial (some l)).spend n).used = min l n := by
  rw [used_spend rfl]
  simp [initial]

/-- Of `n` visits some are refused exactly if the limit is lower. -/
theorem exhausted_spend_initial {l n : Nat} :
    ((initial (some l)).spend n).exhausted = true ↔ l < n := by
  rw [← Bool.not_eq_false, exhausted_spend, covers_initial_some, Nat.not_le]

/-- A lower limit is tighter. -/
theorem tighter_initial {l : Nat} {limit : Option Nat} (h : ∀ l' ∈ limit, l ≤ l') :
    Tighter (initial (some l)) (initial limit) :=
  ⟨rfl, rfl, rfl, fun l' hl' => ⟨l, rfl, h l' hl'⟩⟩

end Budget

namespace CallTree

open Budget

mutual

/-- The branches of a tree that a walk with a budget comes to, and what is left of the budget. -/
def branchesWithin : CallTree → Budget → List (List Signature) × Budget
  | node m cs, b =>
    if b.exhausted then ([], b)
    else if cs.isEmpty then (m.toList.map fun m => [m], b)
    else
      let paid := b.spend cs.length
      if paid.exhausted then ([], paid)
      else
        let r := branchesWithinAll cs paid
        (r.1.map (m.toList ++ ·), r.2)

/-- The branches of several trees that a walk with a budget comes to. -/
def branchesWithinAll : List CallTree → Budget → List (List Signature) × Budget
  | [], b => ([], b)
  | t :: ts, b =>
    let r := branchesWithin t b
    let rs := branchesWithinAll ts r.2
    (r.1 ++ rs.1, rs.2)

end

/-! ### Walks over one tree -/

/-- Nothing is left for a walk whose budget ran out before. -/
private theorem branchesWithin_of_exhausted {b : Budget} (h : b.exhausted = true) (t : CallTree) :
    t.branchesWithin b = ([], b) := by
  cases t with
  | node m cs => simp [branchesWithin, h]

/-- Nothing is left for a walk over several trees either. -/
theorem branchesWithinAll_of_exhausted {b : Budget} (h : b.exhausted = true) (ts : List CallTree) :
    branchesWithinAll ts b = ([], b) := by
  induction ts with
  | nil => rfl
  | cons t ts ih => simp [branchesWithinAll, branchesWithin_of_exhausted h, ih]

/-- A walk that comes to a leaf lists it and pays nothing. -/
theorem branchesWithin_leaf {b : Budget} (h : b.exhausted = false) (m : Option Signature) :
    (node m []).branchesWithin b = ((node m []).branches, b) := by
  simp [branchesWithin, h]

/-- A walk that comes to a node without a method and without children lists nothing. -/
theorem branchesWithin_unnamed (b : Budget) : (node none []).branchesWithin b = ([], b) := by
  cases hb : b.exhausted <;> simp [branchesWithin, hb]

/-- A walk that cannot pay for the children of a node ends there. -/
theorem branchesWithin_refused {b : Budget} {m : Option Signature} {cs : List CallTree}
    (hb : b.exhausted = false) (hcs : cs ≠ []) (h : ¬ b.Covers cs.length) :
    (node m cs).branchesWithin b = ([], b.spend cs.length) := by
  rw [← exhausted_spend, Bool.not_eq_false] at h
  simp [branchesWithin, hb, hcs, h]

/-- A walk that can pay for the children of a node goes on with them. -/
theorem branchesWithin_paid {b : Budget} {m : Option Signature} {cs : List CallTree}
    (hcs : cs ≠ []) (h : b.Covers cs.length) :
    (node m cs).branchesWithin b =
      ((branchesWithinAll cs (b.spend cs.length)).1.map (m.toList ++ ·),
        (branchesWithinAll cs (b.spend cs.length)).2) := by
  simp [branchesWithin, h.1, hcs, (exhausted_spend _).2 h]

/-! ### The budget after a walk -/

mutual

/-- A walk over a tree pays for all nodes below the root. -/
theorem branchesWithin_snd (t : CallTree) {b : Budget} (hw : b.WithinLimit)
    (hb : b.exhausted = false) : (t.branchesWithin b).2 = b.spend t.descendants := by
  cases t with
  | node m cs =>
    by_cases hcs : cs = []
    · subst hcs
      rw [branchesWithin_leaf hb, descendants, descendantsAll, List.length_nil, spend_zero hw]
    · rw [descendants]
      by_cases h : b.Covers cs.length
      · rw [branchesWithin_paid hcs h, ← spend_spend]
        exact branchesWithinAll_snd cs (hw.spend _) ((exhausted_spend _).2 h)
      · -- the walk ends here, and what it would have paid further down does not count
        rw [branchesWithin_refused hb hcs h, spend_add_of_not_covers hb h]

/-- A walk over several trees pays for all nodes below their roots. -/
theorem branchesWithinAll_snd (ts : List CallTree) {b : Budget} (hw : b.WithinLimit)
    (hb : b.exhausted = false) : (branchesWithinAll ts b).2 = b.spend (descendantsAll ts) := by
  cases ts with
  | nil => rw [branchesWithinAll, descendantsAll, spend_zero hw]
  | cons t ts =>
    simp only [branchesWithinAll, descendantsAll, branchesWithin_snd t hw hb]
    by_cases h : b.Covers t.descendants
    · rw [← spend_spend]
      exact branchesWithinAll_snd ts (hw.spend _) ((exhausted_spend _).2 h)
    · rw [spend_add_of_not_covers hb h]
      rw [← exhausted_spend, Bool.not_eq_false] at h
      rw [branchesWithinAll_of_exhausted h]

end

/-! ### The branches of a walk -/

mutual

/-- A walk whose budget covers the tree comes to all its branches. -/
theorem branchesWithin_of_covered (t : CallTree) {b : Budget} (hw : b.WithinLimit)
    (h : b.Covers t.descendants) : (t.branchesWithin b).1 = t.branches := by
  cases t with
  | node m cs =>
    by_cases hcs : cs = []
    · subst hcs
      rw [branchesWithin_leaf h.1]
    · rw [descendants, covers_add] at h
      rw [branchesWithin_paid hcs h.1, branches_inner hcs, ← branchesAll_eq_flatMap]
      rw [branchesWithinAll_of_covered cs (hw.spend _) h.2]

/-- A walk whose budget covers several trees comes to all their branches. -/
private theorem branchesWithinAll_of_covered (ts : List CallTree) {b : Budget} (hw : b.WithinLimit)
    (h : b.Covers (descendantsAll ts)) : (branchesWithinAll ts b).1 = branchesAll ts := by
  cases ts with
  | nil => rfl
  | cons t ts =>
    rw [descendantsAll, covers_add] at h
    simp only [branchesWithinAll, branchesAll, branchesWithin_snd t hw h.1.1,
      branchesWithin_of_covered t hw h.1, branchesWithinAll_of_covered ts (hw.spend _) h.2]

end

mutual

/-- With a higher limit a walk lists the same branches first. -/
theorem branchesWithin_prefix_of_tighter (t : CallTree) {b b' : Budget} (hw : b.WithinLimit)
    (hw' : b'.WithinLimit) (h : Tighter b b') :
    (t.branchesWithin b).1 <+: (t.branchesWithin b').1 := by
  cases t with
  | node m cs =>
    by_cases hcs : cs = []
    · subst hcs
      have hsame : ((node m []).branchesWithin b).1 = ((node m []).branchesWithin b').1 := by
        rw [branchesWithin_leaf h.not_exhausted, branchesWithin_leaf h.not_exhausted']
      exact hsame ▸ List.prefix_rfl
    · by_cases hc : b.Covers cs.length
      · rw [branchesWithin_paid hcs hc, branchesWithin_paid hcs (h.covers hc)]
        exact (branchesWithinAll_prefix_of_tighter cs (hw.spend _) (hw'.spend _) (h.spend hc)).map _
      · rw [branchesWithin_refused h.not_exhausted hcs hc]
        exact List.nil_prefix

/-- With a higher limit a walk over several trees lists the same branches first. -/
private theorem branchesWithinAll_prefix_of_tighter (ts : List CallTree) {b b' : Budget}
    (hw : b.WithinLimit) (hw' : b'.WithinLimit) (h : Tighter b b') :
    (branchesWithinAll ts b).1 <+: (branchesWithinAll ts b').1 := by
  cases ts with
  | nil => exact List.nil_prefix
  | cons t ts =>
    simp only [branchesWithinAll, branchesWithin_snd t hw h.not_exhausted,
      branchesWithin_snd t hw' h.not_exhausted']
    by_cases hc : b.Covers t.descendants
    · -- both walks come to the end of the first tree and go on with what is left
      rw [branchesWithin_of_covered t hw hc, branchesWithin_of_covered t hw' (h.covers hc),
        List.prefix_append_right_inj]
      exact branchesWithinAll_prefix_of_tighter ts (hw.spend _) (hw'.spend _) (h.spend hc)
    · -- the tighter walk ends inside the first tree
      rw [← exhausted_spend, Bool.not_eq_false] at hc
      rw [branchesWithinAll_of_exhausted hc, List.append_nil]
      exact (branchesWithin_prefix_of_tighter t hw hw' h).trans (List.prefix_append _ _)

end

/-- A walk over several trees comes to branches of them, in order. -/
theorem branchesWithinAll_prefix_branchesAll (ts : List CallTree) {b : Budget}
    (hw : b.WithinLimit) : (branchesWithinAll ts b).1 <+: branchesAll ts := by
  by_cases hb : b.exhausted = true
  · rw [branchesWithinAll_of_exhausted hb]
    exact List.nil_prefix
  · rw [Bool.not_eq_true] at hb
    -- compare with the walk that has no limit, which comes to all branches
    have hfree : Tighter b { b with limit := none } := ⟨rfl, hb, hb, by simp⟩
    have hw' : ({ b with limit := none } : Budget).WithinLimit := by simp [WithinLimit]
    have hall := covers_of_unlimited (b := { b with limit := none }) rfl hb (descendantsAll ts)
    rw [← branchesWithinAll_of_covered ts hw' hall]
    exact branchesWithinAll_prefix_of_tighter ts hw hw' hfree

/-- A walk keeps the visits within the limit. -/
theorem withinLimit_branchesWithinAll (ts : List CallTree) {b : Budget} (hw : b.WithinLimit) :
    (branchesWithinAll ts b).2.WithinLimit := by
  by_cases hb : b.exhausted = true
  · rw [branchesWithinAll_of_exhausted hb]
    exact hw
  · rw [Bool.not_eq_true] at hb
    rw [branchesWithinAll_snd ts hw hb]
    exact hw.spend _

mutual

/-- A walk whose budget does not cover a named tree misses a branch: below every node that it
cannot pay for there is one. -/
theorem length_branchesWithin_lt (t : CallTree) (ht : t.Named) {b : Budget}
    (hw : b.WithinLimit) (hb : b.exhausted = false) (h : ¬ b.Covers t.descendants) :
    (t.branchesWithin b).1.length < t.branches.length := by
  cases t with
  | node m cs =>
    by_cases hcs : cs = []
    · subst hcs
      exact absurd (hw.covers_zero hb) h
    · by_cases hc : b.Covers cs.length
      · rw [descendants, covers_add] at h
        rw [branchesWithin_paid hcs hc, branches_inner hcs, ← branchesAll_eq_flatMap,
          List.length_map, List.length_map]
        cases ht with
        | node m cs hnamed =>
          exact length_branchesWithinAll_lt cs hnamed (hw.spend _) ((exhausted_spend _).2 hc)
            fun hall => h ⟨hc, hall⟩
      · rw [branchesWithin_refused hb hcs hc]
        exact List.length_pos_iff.2 ht.branches_ne_nil

/-- A walk whose budget does not cover several named trees misses a branch. -/
private theorem length_branchesWithinAll_lt (ts : List CallTree) (hts : ∀ t ∈ ts, t.Named)
    {b : Budget}
    (hw : b.WithinLimit) (hb : b.exhausted = false) (h : ¬ b.Covers (descendantsAll ts)) :
    (branchesWithinAll ts b).1.length < (branchesAll ts).length := by
  cases ts with
  | nil => exact absurd (hw.covers_zero hb) h
  | cons t ts =>
    rw [descendantsAll, covers_add] at h
    simp only [branchesWithinAll, branchesAll, List.length_append, branchesWithin_snd t hw hb]
    by_cases hc : b.Covers t.descendants
    · have hlt := length_branchesWithinAll_lt ts (fun s hs => hts s (by simp [hs])) (hw.spend _)
        ((exhausted_spend _).2 hc) fun hall => h ⟨hc, hall⟩
      rw [branchesWithin_of_covered t hw hc]
      omega
    · have hlt := length_branchesWithin_lt t (hts t (by simp)) hw hb hc
      rw [← exhausted_spend, Bool.not_eq_false] at hc
      rw [branchesWithinAll_of_exhausted hc, List.length_nil]
      omega

end

end CallTree

end CallPaths
