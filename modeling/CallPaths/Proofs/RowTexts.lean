import CallPaths.Proofs.Texts
import CallPaths.Proofs.TokenPlaces
import CallPaths.Source.OfTree

/-!
# The rows that a part of a text stands on

A part of a text starts on the row that the line ends before it give, and the rows that it stands on
hold more than the part: the rest of its first row in front of it and the rest of its last row
behind it.  Blanks aside, they hold nothing else (`Text.visible_rowsText`).  The statement leaves
blanks out because lines are cut at line ends, and a carriage return in front of one is dropped as
well.

## Key results

- `Text.visible_linesFrom`: lines lose nothing but blanks
- `Text.visible_rowsText`: what stands on the rows of a part of a text
-/

namespace CallPaths.Text

open Token ParseTree

/-- The characters that are no blanks. -/
def visible (cs : List Char) : List Char :=
  cs.filter fun c => !isBlank c

@[simp] theorem visible_append (as bs : List Char) :
    visible (as ++ bs) = visible as ++ visible bs :=
  List.filter_append ..

theorem visible_eq_nil_iff {cs : List Char} : visible cs = [] ↔ ∀ c ∈ cs, isBlank c = true := by
  simp [visible, List.filter_eq_nil_iff]

theorem removeBlanks_eq (s : String) : removeBlanks s = String.ofList (visible s.toList) :=
  rfl

theorem visible_trimChars (cs : List Char) : visible (trimChars cs) = visible cs := by
  obtain ⟨before, after, hcs, hbefore, hafter⟩ := exists_blanks cs
  conv_rhs => rw [hcs]
  simp [visible_eq_nil_iff.2 hbefore, visible_eq_nil_iff.2 hafter]

/-- Joining lines puts only blanks between them. -/
theorem visible_joinWith (l : List String) :
    visible (joinWith "\n" l).toList = l.flatMap fun s => visible s.toList := by
  induction l with
  | nil => rfl
  | cons s rest ih =>
    cases rest with
    | nil => simp [joinWith]
    | cons t rest =>
      have hline : visible "\n".toList = [] := rfl
      show visible (s ++ "\n" ++ joinWith "\n" (t :: rest)).toList = _
      rw [List.flatMap_cons, ← ih]
      simp only [String.toList_append, visible_append, hline, List.append_nil]

/-! ### Lines -/

private theorem visible_dropReturn (acc : List Char) :
    visible (dropReturn acc).reverse = visible acc.reverse := by
  unfold dropReturn
  split
  · have hreturn : visible ['\r'] = [] := rfl
    simp [hreturn]
  · rfl

/-- Lines lose nothing but blanks. -/
theorem visible_linesFrom (acc cs : List Char) :
    ((linesFrom acc cs).flatMap fun s => visible s.toList) = visible (acc.reverse ++ cs) := by
  fun_induction linesFrom acc cs with
  | case1 => rfl
  | case2 c acc => simp
  | case3 acc cs ih =>
    have hline : visible ['\n'] = [] := rfl
    rw [List.flatMap_cons, ih, String.toList_ofList, visible_dropReturn]
    simp only [List.reverse_nil, List.nil_append, visible_append,
      List.append_cons acc.reverse '\n' cs, hline, List.append_nil]
  | case4 acc c cs hc ih => simpa using ih

private theorem linesFrom_append_cons (acc as bs : List Char) :
    linesFrom acc (as ++ '\n' :: bs) = linesFrom acc (as ++ ['\n']) ++ linesFrom [] bs := by
  induction as generalizing acc with
  | nil => simp [linesFrom]
  | cons a as ih =>
    by_cases ha : a = '\n'
    · subst ha
      simp [linesFrom, ih]
    · simp only [List.cons_append]
      rw [linesFrom, linesFrom, ih]
      all_goals simpa using ha

private theorem length_linesFrom_append (acc as : List Char) :
    (linesFrom acc (as ++ ['\n'])).length = rowsIn as + 1 := by
  induction as generalizing acc with
  | nil => simp [linesFrom, rowsIn]
  | cons a as ih =>
    by_cases ha : a = '\n'
    · subst ha
      simp [linesFrom, ih, rowsIn]
    · rw [List.cons_append, linesFrom, ih]
      · simp [rowsIn, List.count_cons_of_ne ha]
      · simpa using ha

theorem length_linesFrom_le (acc cs : List Char) :
    (linesFrom acc cs).length ≤ rowsIn cs + 1 := by
  fun_induction linesFrom acc cs with
  | case1 => simp
  | case2 c acc => simp
  | case3 acc cs ih => simpa [rowsIn] using ih
  | case4 acc c cs hc ih =>
    have hne : c ≠ '\n' := by
      rintro rfl
      exact hc rfl
    simpa [rowsIn, List.count_cons_of_ne hne] using ih

/-! ### Rows -/

/-- The rows in the middle, when the last ones may be missing. -/
private theorem rowsText_append {before rows after : List String} {n : Nat}
    (h : rows.length = n + 1 ∨ (rows.length ≤ n + 1 ∧ after = [])) :
    rowsText (before ++ rows ++ after) before.length (before.length + n) = joinWith "\n" rows := by
  unfold rowsText
  dsimp only
  have hlength : (before ++ rows ++ after).length = before.length + rows.length + after.length := by
    simp [Nat.add_assoc]
  rw [hlength, List.append_assoc, List.drop_left]
  split
  · next hlt =>
    -- there is no row in the middle
    have hrows : rows.length = 0 := by
      rcases h with h | ⟨-, rfl⟩
      · omega
      · rw [List.length_nil] at hlt
        omega
    rw [List.length_eq_zero_iff.1 hrows]
    rfl
  · next hle =>
    congr 1
    rcases h with h | ⟨h, rfl⟩
    · have hcount : min (before.length + n) (before.length + rows.length + after.length - 1) + 1 -
          before.length = rows.length := by omega
      rw [hcount, List.take_left]
    · rw [List.append_nil]
      apply List.take_of_length_le
      rw [List.length_nil]
      omega

/-- The rest of the row on which a text ends. -/
def rowTail (cs : List Char) : List Char :=
  cs.rtakeWhile (· ≠ '\n')

/-- The part of a text on its first row. -/
def rowHead (cs : List Char) : List Char :=
  cs.takeWhile (· ≠ '\n')

private theorem rowsIn_rowTail (cs : List Char) : rowsIn (rowTail cs) = 0 := by
  unfold rowsIn rowTail
  rw [List.count_eq_zero]
  intro hmem
  have := List.mem_rtakeWhile_imp hmem
  simp at this

theorem rowsIn_rowHead (cs : List Char) : rowsIn (rowHead cs) = 0 := by
  unfold rowsIn rowHead
  rw [List.count_eq_zero]
  intro hmem
  have := List.mem_takeWhile_imp hmem
  simp at this

/-- A text behind its first row. -/
theorem exists_rowHead (cs : List Char) :
    ∃ after, cs = rowHead cs ++ after ∧ (after = [] ∨ ∃ rest, after = '\n' :: rest) := by
  refine ⟨cs.dropWhile (· ≠ '\n'), List.takeWhile_append_dropWhile.symm, ?_⟩
  cases hdrop : cs.dropWhile (· ≠ '\n') with
  | nil => exact .inl rfl
  | cons c rest =>
    right
    have hc := List.head?_dropWhile_not (· ≠ '\n') cs
    rw [hdrop] at hc
    obtain rfl : c = '\n' := by simpa using hc
    exact ⟨rest, rfl⟩

/-- A text up to the row on which it ends. -/
private theorem exists_rowTail (cs : List Char) :
    ∃ before, cs = before ++ rowTail cs ∧ (before = [] ∨ ∃ rest, before = rest ++ ['\n']) := by
  -- the row on which a text ends is the first row of the reversed text
  obtain ⟨after, hcs, hafter⟩ := exists_rowHead cs.reverse
  refine ⟨after.reverse, ?_, ?_⟩
  · have hreverse := congrArg List.reverse hcs
    rwa [List.reverse_reverse, List.reverse_append] at hreverse
  · rcases hafter with rfl | ⟨rest, rfl⟩
    · exact .inl rfl
    · exact .inr ⟨rest.reverse, List.reverse_cons⟩

theorem exists_linesFrom_before {before : List Char}
    (h : before = [] ∨ ∃ rest, before = rest ++ ['\n']) (cs : List Char) :
    ∃ rows, linesFrom [] (before ++ cs) = rows ++ linesFrom [] cs ∧
      rows.length = rowsIn before := by
  rcases h with rfl | ⟨rest, rfl⟩
  · exact ⟨[], rfl, rfl⟩
  · refine ⟨linesFrom [] (rest ++ ['\n']), ?_, ?_⟩
    · rw [List.append_assoc]
      exact linesFrom_append_cons [] rest cs
    · rw [length_linesFrom_append, rowsIn_append]
      rfl

private theorem exists_linesFrom_after (cs : List Char) {after : List Char}
    (h : after = [] ∨ ∃ rest, after = '\n' :: rest) :
    ∃ rows others, linesFrom [] (cs ++ after) = rows ++ others ∧
      (rows.flatMap fun s => visible s.toList) = visible cs ∧
      (rows.length = rowsIn cs + 1 ∨ (rows.length ≤ rowsIn cs + 1 ∧ others = [])) := by
  rcases h with rfl | ⟨rest, rfl⟩
  · refine ⟨linesFrom [] cs, [], by simp, ?_, .inr ⟨length_linesFrom_le [] cs, rfl⟩⟩
    exact visible_linesFrom [] cs
  · refine ⟨linesFrom [] (cs ++ ['\n']), linesFrom [] rest, linesFrom_append_cons [] cs rest, ?_,
      .inl (length_linesFrom_append [] cs)⟩
    have hline : visible ['\n'] = [] := rfl
    rw [visible_linesFrom]
    simp [hline]

/-- What stands on the rows of a part of a text, blanks aside: the part and the rest of its first
and last row. -/
theorem visible_rowsText {s : String} {before part after : List Char}
    (h : s.toList = before ++ part ++ after) :
    visible (rowsText (lines s) (rowsIn before) (rowsIn before + rowsIn part)).toList =
      visible (rowTail before) ++ visible part ++ visible (rowHead after) := by
  obtain ⟨start, hbefore, hstart⟩ := exists_rowTail before
  obtain ⟨rest, hafter, hrest⟩ := exists_rowHead after
  -- the text falls into whole rows: those before the part, those of the part, those after it
  obtain ⟨others, hothers, hlength⟩ :=
    exists_linesFrom_before hstart (rowTail before ++ part ++ rowHead after ++ rest)
  obtain ⟨rows, others', hrows, hvisible, hcount⟩ :=
    exists_linesFrom_after (rowTail before ++ part ++ rowHead after) hrest
  have htext : s.toList = start ++ (rowTail before ++ part ++ rowHead after ++ rest) := by
    rw [h]
    conv_lhs => rw [hbefore, hafter]
    simp only [List.append_assoc]
  have hlines : lines s = others ++ rows ++ others' := by
    rw [lines, htext, hothers, hrows, List.append_assoc]
  have hfirst : rowsIn before = others.length := by
    rw [hlength]
    conv_lhs => rw [hbefore, rowsIn_append, rowsIn_rowTail, Nat.add_zero]
  simp only [rowsIn_append, rowsIn_rowTail, rowsIn_rowHead, Nat.zero_add, Nat.add_zero] at hcount
  rw [hlines, hfirst, rowsText_append hcount, visible_joinWith, hvisible]
  simp only [visible_append]

end CallPaths.Text
