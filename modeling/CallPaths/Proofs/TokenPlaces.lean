import CallPaths.Token.Lexer
import Mathlib.Data.List.TakeWhile

/-!
# Where the tokens of a text stand

`Token.scanFrom?` counts its steps and looks ahead for the longest lexeme.  `Token.Cuts` leaves both
out: it says that a text is cut into white space and tokens, and on which rows the tokens stand.
Every successful scan is such a cut (`cuts_of_scanFrom?`), so whatever holds of tokens is proved by
induction over cuts.

## Key results

- `Token.Cuts.exists_place`: a token is a part of the text, and its rows are counted by the line
  ends before it and in it
- `Token.Cuts.inRows`: the tokens of a text stand one after another
- `Token.ofSource_of_scan?`: all that later proofs ask of the tokens of a source
-/

namespace CallPaths.Token

open Text

/-- The characters of words. -/
def isWordChar (c : Char) : Bool :=
  isIdentifierStart c || isIdentifierPart c

/-- A text that starts on a row is cut into white space and tokens. -/
inductive Cuts : Nat → List Char → List Token → Prop
  | finish (row : Nat) : Cuts row [] [⟨.finish, "", row, row, false⟩]
  | space {row : Nat} {c : Char} {cs : List Char} {tokens : List Token}
      (blank : isSpace c = true) (rest : Cuts (row + rowsIn [c]) cs tokens) :
      Cuts row (c :: cs) tokens
  | token {t : Token} {cs : List Char} {tokens : List Token}
      (last : t.lastRow = t.firstRow + rowsIn t.text.toList)
      (word : t.kind = .word → ∀ c ∈ t.text.toList, isWordChar c = true)
      (rest : Cuts t.lastRow cs tokens) : Cuts t.firstRow (t.text.toList ++ cs) (t :: tokens)

@[simp] theorem rowsIn_append (as bs : List Char) : rowsIn (as ++ bs) = rowsIn as + rowsIn bs :=
  List.count_append

/-- Lexemes that are words consist of the characters of words. -/
private theorem isWordChar_of_lexeme? {braces : List Nat} {cs : List Char} {l : Lexeme}
    (h : lexeme? braces cs = some l) (hword : l.kind = .word) :
    ∀ c ∈ cs.take l.length, isWordChar c = true := by
  unfold lexeme? at h
  split at h
  · cases h
  · cases h; cases hword
  · obtain ⟨n, -, rfl⟩ := Option.map_eq_some_iff.1 h
    cases hword
  · -- after an embedded expression
    obtain ⟨⟨n, more⟩, -, rfl⟩ := Option.map_eq_some_iff.1 h
    cases more <;> cases hword
  · -- a quote starts a text block or a string literal
    unfold stringLexeme? at h
    split at h
    · obtain ⟨n, -, rfl⟩ := Option.map_eq_some_iff.1 h
      cases hword
    · obtain ⟨⟨n, more⟩, -, rfl⟩ := Option.map_eq_some_iff.1 h
      cases more <;> cases hword
  · obtain ⟨n, -, rfl⟩ := Option.map_eq_some_iff.1 h
    cases hword
  · next c rest _ _ _ _ _ =>
    split at h
    · -- the only case of a word
      next hstart =>
      cases h
      have htake : rest.takeWhile isIdentifierPart =
          rest.take (rest.takeWhile isIdentifierPart).length :=
        List.prefix_iff_eq_take.1 (List.takeWhile_prefix _)
      intro d hd
      simp only [Nat.add_comm 1, List.take_succ_cons, ← htake, List.mem_cons] at hd
      rcases hd with rfl | hd
      · simp [isWordChar, hstart]
      · simp [isWordChar, List.mem_takeWhile_imp hd]
    · unfold number? at h
      split at h
      · next kind n hnumber =>
        cases h
        dsimp only at hnumber
        split at hnumber
        · cases hnumber
        · split at hnumber <;> cases hnumber <;> cases hword
      · obtain ⟨n, -, rfl⟩ := Option.map_eq_some_iff.1 h
        cases hword

/-- Every successful scan cuts the text. -/
theorem cuts_of_scanFrom? {n row : Nat} {glued : Bool} {braces : List Nat} {cs : List Char}
    {tokens : List Token} (h : scanFrom? n row glued braces cs = some tokens) :
    Cuts row cs tokens := by
  induction n generalizing row glued braces cs tokens with
  | zero =>
    cases cs with
    | nil =>
      obtain ⟨-, rfl⟩ : braces = [] ∧ _ = tokens := by simpa [scanFrom?] using h
      exact .finish row
    | cons c cs => cases h
  | succ n ih =>
    cases cs with
    | nil =>
      obtain ⟨-, rfl⟩ : braces = [] ∧ _ = tokens := by simpa [scanFrom?] using h
      exact .finish row
    | cons c cs =>
      rw [scanFrom?] at h
      split at h
      · next hspace => exact .space hspace (ih h)
      · split at h
        · cases h
        · next l hl =>
          obtain ⟨rest, hrest, rfl⟩ := Option.map_eq_some_iff.1 h
          have hcuts := Cuts.token
            (t := ⟨l.kind, String.ofList ((c :: cs).take l.length), row,
              row + rowsIn ((c :: cs).take l.length), glued⟩)
            (by simp) (fun hword => by simpa using isWordChar_of_lexeme? hl hword) (ih hrest)
          simpa using hcuts

namespace Cuts

variable {row : Nat} {cs : List Char} {tokens : List Token} {t : Token}

/-- A token is a part of the text. -/
theorem exists_place (h : Cuts row cs tokens) (ht : t ∈ tokens) :
    ∃ before after, cs = before ++ t.text.toList ++ after ∧ t.firstRow = row + rowsIn before ∧
      t.lastRow = t.firstRow + rowsIn t.text.toList := by
  induction h with
  | finish row =>
    obtain rfl := List.mem_singleton.1 ht
    exact ⟨[], [], rfl, rfl, rfl⟩
  | @space row c cs tokens blank rest ih =>
    obtain ⟨before, after, hcs, hfirst, hlast⟩ := ih ht
    refine ⟨c :: before, after, by rw [hcs]; rfl, ?_, hlast⟩
    rw [hfirst, Nat.add_assoc, ← rowsIn_append]
    rfl
  | @token first cs tokens last word rest ih =>
    rcases List.mem_cons.1 ht with rfl | ht
    · exact ⟨[], cs, rfl, rfl, last⟩
    · obtain ⟨before, after, hcs, hfirst, hlast⟩ := ih ht
      refine ⟨first.text.toList ++ before, after, by simp [hcs], ?_, hlast⟩
      rw [rowsIn_append]
      omega

private theorem isWordChar (h : Cuts row cs tokens) (ht : t ∈ tokens) (hword : t.kind = .word) :
    ∀ c ∈ t.text.toList, isWordChar c = true := by
  induction h with
  | finish row =>
    obtain rfl := List.mem_singleton.1 ht
    cases hword
  | space blank rest ih => exact ih ht
  | token last word rest ih =>
    rcases List.mem_cons.1 ht with rfl | ht
    · exact word hword
    · exact ih ht

end Cuts

/-- Tokens stand one after another. -/
structure InRows (tokens : List Token) : Prop where
  order : tokens.Pairwise fun a b => a.lastRow ≤ b.firstRow
  span : ∀ t ∈ tokens, t.firstRow ≤ t.lastRow

theorem InRows.sublist {tokens tokens' : List Token} (h : InRows tokens)
    (hsub : tokens'.Sublist tokens) : InRows tokens' :=
  ⟨h.order.sublist hsub, fun t ht => h.span t (hsub.subset ht)⟩

/-- The tokens of a text stand one after another, none before the row on which the text starts. -/
theorem Cuts.inRows {row : Nat} {cs : List Char} {tokens : List Token} (h : Cuts row cs tokens) :
    InRows tokens ∧ ∀ t ∈ tokens, row ≤ t.firstRow := by
  induction h with
  | finish row => exact ⟨⟨List.pairwise_singleton _ _, by simp⟩, by simp⟩
  | space blank rest ih => exact ⟨ih.1, fun t ht => Nat.le_trans (by omega) (ih.2 t ht)⟩
  | @token first cs tokens last word rest ih =>
    obtain ⟨hrows, hstart⟩ := ih
    have hspan : first.firstRow ≤ first.lastRow := by omega
    refine ⟨⟨List.pairwise_cons.2 ⟨hstart, hrows.order⟩, ?_⟩, ?_⟩
    · exact List.forall_mem_cons.2 ⟨hspan, hrows.span⟩
    · refine List.forall_mem_cons.2 ⟨Nat.le_refl _, fun t ht => ?_⟩
      exact Nat.le_trans hspan (hstart t ht)

/-! ### Tokens of sources -/

/-- Tokens are cut out of a source: they stand there one after another, on the rows that they have,
and words are dotless. -/
structure OfSource (source : String) (tokens : List Token) : Prop where
  inRows : InRows tokens
  place : ∀ t ∈ tokens, ∃ before after, source.toList = before ++ t.text.toList ++ after ∧
    t.firstRow = rowsIn before ∧ t.lastRow = rowsIn before + rowsIn t.text.toList
  word : ∀ t ∈ tokens, t.kind = .word → '.' ∉ t.text.toList

/-- A byte order mark is no line end. -/
private theorem exists_skipByteOrderMark (cs : List Char) :
    ∃ mark, cs = mark ++ skipByteOrderMark cs ∧ rowsIn mark = 0 := by
  cases cs with
  | nil => exact ⟨[], rfl, rfl⟩
  | cons c cs =>
    by_cases hc : c = byteOrderMark
    · exact ⟨[c], by simp [skipByteOrderMark, hc], by rw [hc]; rfl⟩
    · exact ⟨[], by simp [skipByteOrderMark, hc], rfl⟩

/-- The tokens that are scanned are cut out of the source. -/
theorem ofSource_of_scan? {source : String} {tokens : List Token} (h : scan? source = some tokens) :
    OfSource source tokens where
  inRows := (cuts_of_scanFrom? h).inRows.1
  place t ht := by
    -- the text is cut after a byte order mark, which has no line end
    obtain ⟨mark, hmark, hrows⟩ := exists_skipByteOrderMark source.toList
    obtain ⟨before, after, hcs, hfirst, hlast⟩ := (cuts_of_scanFrom? h).exists_place ht
    refine ⟨mark ++ before, after, ?_, ?_, ?_⟩
    · rw [hmark, hcs]
      simp
    · rw [rowsIn_append]
      omega
    · rw [rowsIn_append]
      omega
  word t ht hword hdot := by
    have hchar := (cuts_of_scanFrom? h).isWordChar ht hword '.' hdot
    exact absurd hchar (by decide)

end CallPaths.Token
