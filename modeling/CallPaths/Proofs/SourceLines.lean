import CallPaths.Proofs.RowTexts

/-!
# Rows and lines of a text

Rows are counted by line feeds.  `Text.lines` follows another rule: it drops an empty last line and
takes a carriage return in front of a line feed for a part of the line end.  The two agree: the line
with an index is the one with as many line feeds before it (`Text.getElem?_lines`), and
`Text.IsLine` says what a line is without the loop that finds it.

## Key results

- `Text.getElem?_lines`: the lines of a text, by their rows
- `Text.exists_line_of_visible`: a row on which something stands is a line
- `Text.length_lines_joinWith`: lines that are joined can be counted again
-/

namespace CallPaths.Text

open Token ParseTree

/-- How a line ends: by a line feed or by a carriage return with a line feed, or by the end of the
text if anything stands on it. -/
inductive LineEnd (line : List Char) : List Char → List Char → Prop
  | feed (after : List Char) (last : line.getLast? ≠ some '\r') : LineEnd line ['\n'] after
  | returnFeed (after : List Char) : LineEnd line ['\r', '\n'] after
  | finish (something : line ≠ []) : LineEnd line [] []

/-- A line of a text, without its end, and the number of line feeds before it. -/
def IsLine (cs : List Char) (row : Nat) (line : List Char) : Prop :=
  ∃ before ending after, cs = before ++ line ++ ending ++ after ∧
    (before = [] ∨ ∃ rest, before = rest ++ ['\n']) ∧ rowsIn before = row ∧ '\n' ∉ line ∧
      LineEnd line ending after

/-! ### Single lines -/

private theorem not_mem_of_rowsIn_eq_zero {cs : List Char} (h : rowsIn cs = 0) : '\n' ∉ cs :=
  List.count_eq_zero.1 h

private theorem linesFrom_row {line : List Char} (h : '\n' ∉ line) (acc rest : List Char) :
    linesFrom acc (line ++ '\n' :: rest) =
      String.ofList (dropReturn (line.reverse ++ acc)).reverse :: linesFrom [] rest := by
  induction line generalizing acc with
  | nil => simp [linesFrom]
  | cons c line ih =>
    obtain ⟨hc, hline⟩ : '\n' ≠ c ∧ '\n' ∉ line := by simpa using h
    rw [List.cons_append, linesFrom, ih hline]
    · simp
    · simpa using Ne.symm hc

private theorem linesFrom_last {line : List Char} (h : '\n' ∉ line) (acc : List Char)
    (hne : acc ≠ [] ∨ line ≠ []) :
    linesFrom acc line = [String.ofList (acc.reverse ++ line)] := by
  induction line generalizing acc with
  | nil =>
    obtain ⟨c, acc, rfl⟩ := List.exists_cons_of_ne_nil (by simpa using hne : acc ≠ [])
    simp [linesFrom]
  | cons c line ih =>
    obtain ⟨hc, hline⟩ : '\n' ≠ c ∧ '\n' ∉ line := by simpa using h
    rw [linesFrom, ih hline _ (.inl (List.cons_ne_nil c acc))]
    · simp
    · simpa using Ne.symm hc

private theorem dropReturn_of_getLast? {line : List Char} (h : line.getLast? ≠ some '\r') :
    dropReturn line.reverse = line.reverse := by
  rw [← List.head?_reverse] at h
  unfold dropReturn
  split
  · next heq =>
    rw [heq] at h
    exact absurd rfl h
  · rfl

/-! ### All lines -/

private theorem getElem?_linesFrom_of_isLine {cs : List Char} {row : Nat} {line : List Char}
    (h : IsLine cs row line) : (linesFrom [] cs)[row]? = some (String.ofList line) := by
  obtain ⟨before, ending, after, rfl, hbefore, rfl, hline, hend⟩ := h
  obtain ⟨rows, hrows, hlength⟩ := exists_linesFrom_before hbefore (line ++ ending ++ after)
  have htext : before ++ line ++ ending ++ after = before ++ (line ++ ending ++ after) := by simp
  -- the rows before the line are the entries before its index
  rw [htext, hrows, ← hlength, List.getElem?_append_right (Nat.le_refl _), Nat.sub_self]
  cases hend with
  | feed after last =>
    rw [List.append_assoc, List.singleton_append, linesFrom_row hline, List.append_nil,
      dropReturn_of_getLast? last, List.reverse_reverse]
    rfl
  | returnFeed after =>
    have hreturn : '\n' ∉ line ++ ['\r'] := by simpa using hline
    have hsplit : line ++ ['\r', '\n'] ++ after = line ++ ['\r'] ++ '\n' :: after := by simp
    rw [hsplit, linesFrom_row hreturn]
    simp [dropReturn]
  | finish something =>
    rw [List.append_nil, List.append_nil, linesFrom_last hline [] (.inr something)]
    rfl

/-- The lines below some rows are lines of the whole text. -/
private theorem IsLine.append_rows {cs line : List Char} {row : Nat} (h : IsLine cs row line)
    (start : List Char) : IsLine (start ++ '\n' :: cs) (rowsIn start + 1 + row) line := by
  obtain ⟨before, ending, after, rfl, hbefore, rfl, hline, hend⟩ := h
  refine ⟨start ++ '\n' :: before, ending, after, by simp, .inr ?_, ?_, hline, hend⟩
  · rcases hbefore with rfl | ⟨rest, rfl⟩
    · exact ⟨start, rfl⟩
    · exact ⟨start ++ '\n' :: rest, by simp⟩
  · rw [rowsIn_append]
    simp only [rowsIn, List.count_cons_self]
    omega

/-- The first row is a line, if anything stands on it or behind it. -/
private theorem exists_isLine_zero {cs : List Char} (h : cs ≠ []) : ∃ line, IsLine cs 0 line := by
  obtain ⟨after, hcs, hafter⟩ := exists_rowHead cs
  have hhead := not_mem_of_rowsIn_eq_zero (rowsIn_rowHead cs)
  rcases hafter with rfl | ⟨rest, rfl⟩
  · rw [List.append_nil] at hcs
    exact ⟨cs, [], [], [], by simp, .inl rfl, rfl, hcs ▸ hhead, .finish h⟩
  · by_cases hreturn : (rowHead cs).getLast? = some '\r'
    · -- the carriage return belongs to the end of the line
      obtain ⟨line, hline⟩ := List.getLast?_eq_some_iff.1 hreturn
      rw [hline] at hcs hhead
      refine ⟨line, [], ['\r', '\n'], rest, by rw [hcs]; simp, .inl rfl, rfl, ?_, .returnFeed rest⟩
      exact fun hmem => hhead (List.mem_append_left _ hmem)
    · refine ⟨rowHead cs, [], ['\n'], rest, ?_, .inl rfl, rfl, hhead, .feed rest hreturn⟩
      rw [List.nil_append, List.append_assoc, List.singleton_append, ← hcs]

private theorem exists_isLine {cs : List Char} {row : Nat} (h : row < (linesFrom [] cs).length) :
    ∃ line, IsLine cs row line := by
  induction row generalizing cs with
  | zero =>
    apply exists_isLine_zero
    rintro rfl
    simp [linesFrom] at h
  | succ row ih =>
    obtain ⟨after, hcs, hafter⟩ := exists_rowHead cs
    have hhead := rowsIn_rowHead cs
    rcases hafter with rfl | ⟨rest, rfl⟩
    · -- a single row is at most one line
      have hle := length_linesFrom_le [] cs
      rw [List.append_nil] at hcs
      rw [hcs, hhead, ← hcs] at hle
      omega
    · rw [hcs, linesFrom_row (not_mem_of_rowsIn_eq_zero hhead), List.length_cons] at h
      obtain ⟨line, hline⟩ := ih (by omega : row < (linesFrom [] rest).length)
      have hrows := hline.append_rows (rowHead cs)
      rw [hhead, ← hcs] at hrows
      exact ⟨line, by rwa [show row + 1 = 0 + 1 + row by omega]⟩

/-- The lines of a text, by their rows. -/
theorem getElem?_lines {s : String} {row : Nat} {line : String} :
    (lines s)[row]? = some line ↔ IsLine s.toList row line.toList := by
  constructor
  · intro h
    obtain ⟨hrow, -⟩ := List.getElem?_eq_some_iff.1 h
    obtain ⟨line', hline'⟩ := exists_isLine hrow
    have hsame : some line = some (String.ofList line') :=
      h.symm.trans (getElem?_linesFrom_of_isLine hline')
    rw [Option.some.inj hsame, String.toList_ofList]
    exact hline'
  · intro h
    rw [lines, getElem?_linesFrom_of_isLine h, String.ofList_toList]

theorem not_mem_line {s line : String} (h : line ∈ lines s) : '\n' ∉ line.toList := by
  obtain ⟨row, hrow⟩ := List.getElem?_of_mem h
  obtain ⟨before, ending, after, -, -, -, hline, -⟩ := getElem?_lines.1 hrow
  exact hline

/-! ### Rows with something on them -/

theorem rowsIn_le_length_linesFrom (acc cs : List Char) :
    rowsIn cs ≤ (linesFrom acc cs).length := by
  fun_induction linesFrom acc cs with
  | case1 => simp [rowsIn]
  | case2 c acc => simp [rowsIn]
  | case3 acc cs ih => simpa [rowsIn] using ih
  | case4 acc c cs hc ih =>
    have hne : c ≠ '\n' := by
      rintro rfl
      exact hc rfl
    simpa [rowsIn, List.count_cons_of_ne hne] using ih

theorem rowsText_eq {rows : List String} {first last : Nat} (h : first ≤ last)
    (hlast : last < rows.length) :
    rowsText rows first last = joinWith "\n" ((rows.drop first).take (last + 1 - first)) := by
  have hmin : min last (rows.length - 1) = last := by omega
  simp only [rowsText, hmin]
  rw [if_neg (by omega)]

/-- A row on which something stands is a line, and not an empty one. -/
theorem exists_line_of_visible {s : String} {before part after : List Char}
    (h : s.toList = before ++ part ++ after) (hrow : rowsIn part = 0) (hpart : visible part ≠ []) :
    ∃ line, (lines s)[rowsIn before]? = some line ∧ line ≠ "" := by
  have hvisible := visible_rowsText h
  rw [hrow, Nat.add_zero] at hvisible
  have hne : rowsText (lines s) (rowsIn before) (rowsIn before) ≠ "" := by
    intro hempty
    rw [hempty] at hvisible
    obtain ⟨hnil, -⟩ := List.append_eq_nil_iff.1 hvisible.symm
    exact hpart (List.append_eq_nil_iff.1 hnil).2
  by_cases hlt : rowsIn before < (lines s).length
  · refine ⟨_, List.getElem?_eq_getElem hlt, fun hempty => hne ?_⟩
    rw [rowsText_eq (Nat.le_refl _) hlt, List.drop_eq_getElem_cons hlt, Nat.add_sub_cancel_left,
      hempty]
    rfl
  · -- behind the last line there is no text
    refine absurd ?_ hne
    simp only [rowsText]
    split
    · rfl
    · rw [List.drop_of_length_le (by omega), List.take_nil]
      rfl

/-! ### Joined lines -/

/-- Lines that are joined can be counted again, if the last one is not empty. -/
theorem length_lines_joinWith {ls : List String} {last : String} (h : ∀ l ∈ ls, '\n' ∉ l.toList)
    (hlast : ls.getLast? = some last) (hne : last ≠ "") :
    (lines (joinWith "\n" ls)).length = ls.length := by
  induction ls with
  | nil => rfl
  | cons l ls ih =>
    obtain ⟨hl, hls⟩ := List.forall_mem_cons.1 h
    cases ls with
    | nil =>
      obtain rfl : l = last := by simpa using hlast
      rw [joinWith, lines, linesFrom_last hl [] (.inr (by simpa using hne))]
      rfl
    | cons l' ls =>
      have hjoin : (joinWith "\n" (l :: l' :: ls)).toList =
          l.toList ++ '\n' :: (joinWith "\n" (l' :: ls)).toList := by
        simp [joinWith]
      rw [lines, hjoin, linesFrom_row hl, List.length_cons, ← lines,
        ih hls (by simpa using hlast)]
      rfl

end CallPaths.Text
