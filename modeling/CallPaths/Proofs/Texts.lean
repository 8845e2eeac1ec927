import CallPaths.Text.Blank
import Mathlib.Data.List.DropRight

/-!
# Pieces of a text and blanks around it

`splitChars` cuts a text at a separator, and joining the pieces again gives the text back; the other
way round, pieces that do not contain the separator come back when they are joined and cut.
Trimming takes away blanks at both ends and nothing else.  The two fit together: where the separator
is no blank, it does not matter whether a text is trimmed before it is cut and its pieces are
trimmed.

## Key results

- `Text.intercalate_splitChars`, `Text.splitChars_intercalate`: cutting and joining
- `Text.exists_blanks`: what trimming takes away
- `Text.map_trimChars_splitChars`: cutting a trimmed text
-/

namespace CallPaths.Text

/-! ### Pieces -/

/-- The pieces are those that the library's `List.splitOn` gives. -/
private theorem splitChars_eq_splitOn (sep : Char) (cs : List Char) :
    splitChars sep cs = cs.splitOn sep := by
  induction cs with
  | nil => rfl
  | cons c cs ih =>
    rw [splitChars, List.splitOn_cons_eq_if_modifyHead, ih]
    by_cases hc : c = sep
    · rw [if_pos hc, if_pos (beq_iff_eq.2 hc)]
    · rw [if_neg hc, if_neg (mt beq_iff_eq.1 hc)]
      obtain ⟨piece, pieces, hpieces⟩ := List.exists_cons_of_ne_nil (List.splitOn_ne_nil sep cs)
      rw [hpieces]
      rfl

/-- A text falls into one piece at least. -/
theorem splitChars_ne_nil (sep : Char) (cs : List Char) : splitChars sep cs ≠ [] := by
  rw [splitChars_eq_splitOn]
  exact List.splitOn_ne_nil sep cs

/-- A text without the separator is one piece. -/
theorem splitChars_of_not_mem {sep : Char} {cs : List Char} (h : sep ∉ cs) :
    splitChars sep cs = [cs] := by
  rw [splitChars_eq_splitOn, List.splitOn_eq_singleton h]

/-- The pieces before and after a separator. -/
theorem splitChars_append_cons (sep : Char) (as bs : List Char) :
    splitChars sep (as ++ sep :: bs) = splitChars sep as ++ splitChars sep bs := by
  rw [splitChars_eq_splitOn, splitChars_eq_splitOn, splitChars_eq_splitOn,
    List.splitOn_append_cons_self]

/-- A character other than the separator belongs to the first piece. -/
private theorem exists_splitChars_cons {sep c : Char} (hc : c ≠ sep) (cs : List Char) :
    ∃ piece pieces, splitChars sep cs = piece :: pieces ∧
      splitChars sep (c :: cs) = (c :: piece) :: pieces := by
  obtain ⟨piece, pieces, hpieces⟩ := List.exists_cons_of_ne_nil (splitChars_ne_nil sep cs)
  refine ⟨piece, pieces, hpieces, ?_⟩
  rw [splitChars, if_neg hc, hpieces]

/-- A text without the separator, in front of another one, belongs to its first piece. -/
private theorem exists_splitChars_append_left {sep : Char} {as : List Char} (has : sep ∉ as)
    (bs : List Char) :
    ∃ piece pieces, splitChars sep bs = piece :: pieces ∧
      splitChars sep (as ++ bs) = (as ++ piece) :: pieces := by
  induction as with
  | nil =>
    obtain ⟨piece, pieces, hpieces⟩ := List.exists_cons_of_ne_nil (splitChars_ne_nil sep bs)
    exact ⟨piece, pieces, hpieces, hpieces⟩
  | cons c as ih =>
    obtain ⟨hne, has⟩ := not_or.1 (mt List.mem_cons.2 has)
    obtain ⟨piece, pieces, hbs, habs⟩ := ih has
    obtain ⟨piece', pieces', heq, hcons⟩ := exists_splitChars_cons (Ne.symm hne) (as ++ bs)
    cases habs.symm.trans heq
    exact ⟨piece, pieces, hbs, hcons⟩

/-- A text without the separator, behind another one, belongs to its last piece. -/
private theorem exists_splitChars_append_right {sep : Char} (as : List Char) {bs : List Char}
    (hbs : sep ∉ bs) :
    ∃ pieces piece, splitChars sep as = pieces ++ [piece] ∧
      splitChars sep (as ++ bs) = pieces ++ [piece ++ bs] := by
  induction as with
  | nil => exact ⟨[], [], rfl, splitChars_of_not_mem hbs⟩
  | cons c as ih =>
    obtain ⟨pieces, piece, has, habs⟩ := ih
    by_cases hc : c = sep
    · refine ⟨[] :: pieces, piece, ?_, ?_⟩
      · rw [splitChars, if_pos hc, has]
        rfl
      · rw [List.cons_append, splitChars, if_pos hc, habs]
        rfl
    · -- the character goes to the first piece, which may be the last one as well
      rw [List.cons_append, splitChars, if_neg hc, splitChars, if_neg hc, has, habs]
      cases pieces with
      | nil => exact ⟨[], c :: piece, rfl, rfl⟩
      | cons first pieces => exact ⟨(c :: first) :: pieces, piece, rfl, rfl⟩

/-- Pieces consist of characters of the text, and the separator is none of them. -/
theorem mem_of_mem_splitChars {sep c : Char} {cs piece : List Char}
    (hpiece : piece ∈ splitChars sep cs) (hc : c ∈ piece) : c ∈ cs ∧ c ≠ sep := by
  induction cs generalizing piece with
  | nil =>
    rw [splitChars, List.mem_singleton] at hpiece
    rw [hpiece] at hc
    cases hc
  | cons a cs ih =>
    by_cases ha : a = sep
    · rw [splitChars, if_pos ha] at hpiece
      rcases List.mem_cons.1 hpiece with rfl | hpiece
      · cases hc
      · obtain ⟨hmem, hne⟩ := ih hpiece hc
        exact ⟨List.mem_cons_of_mem a hmem, hne⟩
    · obtain ⟨first, pieces, hcs, hcons⟩ := exists_splitChars_cons ha cs
      rw [hcs] at ih
      rw [hcons] at hpiece
      rcases List.mem_cons.1 hpiece with rfl | hpiece
      · rcases List.mem_cons.1 hc with rfl | hc
        · exact ⟨List.mem_cons_self, ha⟩
        · obtain ⟨hmem, hne⟩ := ih List.mem_cons_self hc
          exact ⟨List.mem_cons_of_mem a hmem, hne⟩
      · obtain ⟨hmem, hne⟩ := ih (List.mem_cons_of_mem first hpiece) hc
        exact ⟨List.mem_cons_of_mem a hmem, hne⟩

/-- Joining the pieces of a text gives it back. -/
theorem intercalate_splitChars (sep : Char) (cs : List Char) :
    [sep].intercalate (splitChars sep cs) = cs := by
  rw [splitChars_eq_splitOn, List.intercalate_splitOn]

/-- Joined pieces without the separator are the pieces of the text. -/
theorem splitChars_intercalate {sep : Char} {pieces : List (List Char)} (hne : pieces ≠ [])
    (h : ∀ piece ∈ pieces, sep ∉ piece) : splitChars sep ([sep].intercalate pieces) = pieces := by
  rw [splitChars_eq_splitOn, List.splitOn_intercalate sep h hne]

/-- The characters of a joined text are those of its pieces and of the separator. -/
theorem mem_of_mem_intercalate {sep : List Char} {pieces : List (List Char)} {c : Char}
    (h : c ∈ sep.intercalate pieces) : c ∈ sep ∨ ∃ piece ∈ pieces, c ∈ piece := by
  induction pieces with
  | nil => cases h
  | cons piece pieces ih =>
    cases pieces with
    | nil =>
      rw [List.intercalate_singleton] at h
      exact .inr ⟨piece, List.mem_cons_self, h⟩
    | cons piece' pieces =>
      rw [List.intercalate_cons_cons, List.mem_append, List.mem_append] at h
      rcases h with (hpiece | hsep) | hrest
      · exact .inr ⟨piece, List.mem_cons_self, hpiece⟩
      · exact .inl hsep
      · refine (ih hrest).imp_right ?_
        rintro ⟨q, hq, hc⟩
        exact ⟨q, List.mem_cons_of_mem piece hq, hc⟩

/-- Joined texts are those that the library's `String.intercalate` gives. -/
theorem joinWith_eq_intercalate (sep : String) (l : List String) :
    joinWith sep l = sep.intercalate l := by
  induction l with
  | nil => rw [joinWith, String.intercalate_nil]
  | cons s rest ih =>
    cases rest with
    | nil => rw [joinWith, String.intercalate_singleton]
    | cons t rest =>
      show s ++ sep ++ joinWith sep (t :: rest) = _
      rw [ih, String.intercalate_cons_cons]

/-- The characters of joined texts. -/
theorem toList_joinWith (sep : String) (l : List String) :
    (joinWith sep l).toList = sep.toList.intercalate (l.map String.toList) := by
  rw [joinWith_eq_intercalate, String.toList_intercalate]

theorem joinWith_append_singleton {names : List String} (hne : names ≠ []) (name : String) :
    joinWith "." (names ++ [name]) = joinWith "." names ++ "." ++ name := by
  induction names with
  | nil => exact absurd rfl hne
  | cons first names ih =>
    cases names with
    | nil => rfl
    | cons second names =>
      have h := ih (List.cons_ne_nil second names)
      simp only [List.cons_append, joinWith] at h ⊢
      rw [h]
      simp [String.append_assoc]

/-- Joined segments without dots come back when the name is cut at its dots. -/
theorem splitOn_joinWith {segments : List String} (hne : segments ≠ [])
    (h : ∀ s ∈ segments, '.' ∉ s.toList) : splitOn '.' (joinWith "." segments) = segments := by
  have hdots : ∀ piece ∈ segments.map String.toList, '.' ∉ piece := by simpa using h
  have hcut := splitChars_intercalate (by simpa using hne) hdots
  rw [splitOn, toList_joinWith]
  calc (splitChars '.' (['.'].intercalate (segments.map String.toList))).map String.ofList
      = (segments.map String.toList).map String.ofList := by rw [hcut]
    _ = segments := by simp [Function.comp_def]

/-! ### Blanks -/

/-- Blanks in front of a text do not count. -/
theorem trimChars_append_left {before : List Char} (h : ∀ c ∈ before, isBlank c = true)
    (cs : List Char) : trimChars (before ++ cs) = trimChars cs := by
  rw [trimChars, trimChars, trimLeft, trimLeft, List.dropWhile_append_of_pos h]

/-- Blanks behind a text do not count. -/
private theorem trimChars_append_right (cs : List Char) {after : List Char}
    (h : ∀ c ∈ after, isBlank c = true) : trimChars (cs ++ after) = trimChars cs := by
  have hright : ∀ l, trimRight (l ++ after) = trimRight l := by
    intro l
    rw [trimRight, trimRight, List.reverse_append,
      List.dropWhile_append_of_pos fun c hc => h c (List.mem_reverse.1 hc)]
  rw [trimChars, trimChars, trimLeft, trimLeft, List.dropWhile_append]
  split
  · -- nothing but blanks
    next hempty =>
    rw [List.isEmpty_iff.1 hempty, List.dropWhile_eq_nil_iff.2 h]
  · exact hright _

/-- Trimming takes away blanks at both ends. -/
theorem exists_blanks (cs : List Char) :
    ∃ before after, cs = before ++ trimChars cs ++ after ∧ (∀ c ∈ before, isBlank c = true) ∧
      ∀ c ∈ after, isBlank c = true := by
  refine ⟨cs.takeWhile isBlank, (trimLeft cs).rtakeWhile isBlank, ?_, ?_, ?_⟩
  · have hright : trimChars cs ++ (trimLeft cs).rtakeWhile isBlank = trimLeft cs :=
      List.rdropWhile_append_rtakeWhile ..
    rw [List.append_assoc, hright, trimLeft, List.takeWhile_append_dropWhile]
  · exact fun c hc => List.mem_takeWhile_imp hc
  · exact fun c hc => List.mem_rtakeWhile_imp hc

/-- A text that neither starts nor ends with a blank is trimmed already. -/
theorem trimChars_eq_self {cs : List Char} (hfirst : ∀ c ∈ cs.head?, isBlank c = false)
    (hlast : ∀ c ∈ cs.getLast?, isBlank c = false) : trimChars cs = cs := by
  have hleft : trimLeft cs = cs := by
    cases cs with
    | nil => rfl
    | cons c cs =>
      have hc := hfirst c rfl
      exact List.dropWhile_cons_of_neg (by simp [hc])
  rw [trimChars, hleft]
  refine List.rdropWhile_eq_self_iff.2 fun hne => ?_
  have hc := hlast _ (List.getLast?_eq_some_getLast hne)
  simp [hc]

/-- A trimmed text is trimmed. -/
theorem trimChars_trimChars (cs : List Char) : trimChars (trimChars cs) = trimChars cs := by
  obtain ⟨before, after, hcs, hbefore, hafter⟩ := exists_blanks cs
  calc trimChars (trimChars cs)
      = trimChars (before ++ trimChars cs ++ after) := by
        rw [trimChars_append_right _ hafter, trimChars_append_left hbefore]
    _ = trimChars cs := by rw [← hcs]

theorem mem_of_mem_trimChars {c : Char} {cs : List Char} (h : c ∈ trimChars cs) : c ∈ cs := by
  obtain ⟨before, after, hcs, -⟩ := exists_blanks cs
  rw [hcs]
  exact List.mem_append_left _ (List.mem_append_right _ h)

/-- A text may be trimmed before it is cut at a separator that is no blank. -/
theorem map_trimChars_splitChars {sep : Char} (hsep : isBlank sep = false) (cs : List Char) :
    (splitChars sep (trimChars cs)).map trimChars = (splitChars sep cs).map trimChars := by
  obtain ⟨before, after, hcs, hbefore, hafter⟩ := exists_blanks cs
  have hnot : ∀ blanks : List Char, (∀ c ∈ blanks, isBlank c = true) → sep ∉ blanks := by
    intro blanks hblanks hmem
    rw [hblanks sep hmem] at hsep
    cases hsep
  -- blanks in front belong to the first piece and blanks behind to the last one
  obtain ⟨first, pieces, hcut, hleft⟩ :=
    exists_splitChars_append_left (hnot before hbefore) (trimChars cs ++ after)
  obtain ⟨pieces', last, hcut', hright⟩ :=
    exists_splitChars_append_right (trimChars cs) (hnot after hafter)
  calc (splitChars sep (trimChars cs)).map trimChars
      = (splitChars sep (trimChars cs ++ after)).map trimChars := by
        rw [hcut', hright, List.map_append, List.map_append, List.map_singleton,
          List.map_singleton, trimChars_append_right last hafter]
    _ = (splitChars sep (before ++ (trimChars cs ++ after))).map trimChars := by
        rw [hcut, hleft, List.map_cons, List.map_cons, trimChars_append_left hbefore first]
    _ = (splitChars sep cs).map trimChars := by rw [← List.append_assoc, ← hcs]

end CallPaths.Text
