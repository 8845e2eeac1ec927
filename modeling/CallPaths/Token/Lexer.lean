import CallPaths.Text.Blank
import CallPaths.Token.Number

/-!
# From text to tokens

`Token.scan?` cuts a source text into tokens.  The longest token wins, except that a closing angle
bracket is always a token of its own, because type arguments may be nested; operators made of
several of them are put together later, from glued tokens.

A string literal with embedded expressions is cut at them: the tokens of an expression stand between
those of the pieces.  The open braces inside each expression are counted to find its end.
-/

namespace CallPaths.Token

open Text

/-- The white space between tokens. -/
def isSpace (c : Char) : Bool :=
  c = ' ' || (9 ≤ c.toNat && c.toNat ≤ 13)

/-! ### Lengths of lexemes -/

/-- The length of the rest of a block comment, with its end. -/
def blockCommentLength? : List Char → Option Nat
  | [] => none
  | '*' :: '/' :: _ => some 2
  | _ :: cs => (blockCommentLength? cs).map (· + 1)

/-- Whether an escape sequence may go on with `c` and the characters after it. -/
def isEscape (c : Char) (cs : List Char) : Bool :=
  if c = 'x' then 2 ≤ (cs.takeWhile isHexDigit).length
  else if c = 'u' then
    match cs with
    | '{' :: rest =>
      0 < (rest.takeWhile isHexDigit).length && (rest.dropWhile isHexDigit).head? = some '}'
    | _ => 4 ≤ (cs.takeWhile isHexDigit).length
  else true

/-- The length of a piece of a string literal up to its end or to an embedded expression, with that
end, and whether an expression follows. -/
def stringLength? : List Char → Option (Nat × Bool)
  | [] => none
  | '"' :: _ => some (1, false)
  | '\\' :: '{' :: _ => some (2, true)
  | '\\' :: c :: cs =>
    if isEscape c cs then (stringLength? cs).map fun (n, more) => (n + 2, more) else none
  | _ :: cs => (stringLength? cs).map fun (n, more) => (n + 1, more)

/-- The length of the rest of a text block, with its end. -/
def textBlockLength? : List Char → Option Nat
  | [] => none
  | '"' :: '"' :: '"' :: _ => some 3
  | '\\' :: _ :: cs => (textBlockLength? cs).map (· + 2)
  | _ :: cs => (textBlockLength? cs).map (· + 1)

/-- The length of the rest of a character literal, with its end; the flag says whether it has a
character already. -/
def characterLength? : Bool → List Char → Option Nat
  | _, [] => none
  | hasOne, '\'' :: _ => if hasOne then some 1 else none
  | _, '\\' :: _ :: cs => (characterLength? true cs).map (· + 2)
  | _, c :: cs => if c = '\n' || c = '\\' then none else (characterLength? true cs).map (· + 1)

/-- The marks, a longer one before its beginnings. -/
def marks : List String :=
  ["...", "<<=", "->", "::", "&&", "||", "==", "!=", "<=", "<<", "++", "--", "+=", "-=", "*=",
    "/=", "&=", "|=", "^=", "%=", "(", ")", "\x7b", "\x7d", "[", "]", ";", ",", ".", "@", "=", "<",
    ">", "!", "~", "?", ":", "+", "-", "*", "/", "&", "|", "^", "%"]

/-- The mark of annotation type declarations, which is one token. -/
def annotationTypeMark : String := "@interface"

/-- Whether a text starts with the mark of annotation type declarations. -/
def startsAnnotationType (cs : List Char) : Bool :=
  annotationTypeMark.toList.isPrefixOf cs &&
    !((cs.drop annotationTypeMark.length).head?.elim false isIdentifierPart)

/-- The length of the mark at the start of a text. -/
def markLength? (cs : List Char) : Option Nat :=
  if startsAnnotationType cs then some annotationTypeMark.length
  else (marks.find? fun m => m.toList.isPrefixOf cs).map String.length

/-! ### Lexemes -/

/-- The class and the length of a token, and the counts of open braces in the embedded expressions
around the text after it, the innermost one first. -/
structure Lexeme where
  kind : TokenKind
  length : Nat
  braces : List Nat

/-- The lexeme of a string literal or text block, after the opening quote. -/
def stringLexeme? (braces : List Nat) (cs : List Char) : Option Lexeme :=
  match cs with
  | '"' :: '"' :: rest => (textBlockLength? rest).map fun n => ⟨.string, n + 3, braces⟩
  | _ =>
    (stringLength? cs).map fun (n, more) =>
      if more then ⟨.stringStart, n + 1, 0 :: braces⟩ else ⟨.string, n + 1, braces⟩

/-- The lexeme of a mark; braces are counted. -/
def markLexeme? (braces : List Nat) (cs : List Char) : Option Lexeme :=
  (markLength? cs).map fun n =>
    ⟨.mark, n,
      match cs, braces with
      | '{' :: _, b :: rest => (b + 1) :: rest
      | '}' :: _, b :: rest => (b - 1) :: rest
      | _, _ => braces⟩

/-- The lexeme at the start of a text, which does not start with white space. -/
def lexeme? (braces : List Nat) (cs : List Char) : Option Lexeme :=
  match cs, braces with
  | [], _ => none
  | '/' :: '/' :: rest, _ =>
    some ⟨.comment, 2 + (rest.takeWhile (· != '\n')).length, braces⟩
  | '/' :: '*' :: rest, _ => (blockCommentLength? rest).map fun n => ⟨.comment, n + 2, braces⟩
  | '}' :: rest, 0 :: outer =>
    (stringLength? rest).map fun (n, more) =>
      if more then ⟨.stringMiddle, n + 1, braces⟩ else ⟨.stringEnd, n + 1, outer⟩
  | '"' :: rest, _ => stringLexeme? braces rest
  | '\'' :: rest, _ => (characterLength? false rest).map fun n => ⟨.character, n + 1, braces⟩
  | c :: rest, _ =>
    if isIdentifierStart c then
      some ⟨.word, 1 + (rest.takeWhile isIdentifierPart).length, braces⟩
    else
      match number? cs with
      | some (kind, n) => some ⟨kind, n, braces⟩
      | none => markLexeme? braces cs

/-! ### Tokens -/

/-- The number of line ends in a text. -/
def rowsIn (cs : List Char) : Nat :=
  cs.count '\n'

/-- The tokens of a text that starts on a row.  The first argument bounds the number of steps; each
step takes a character. -/
def scanFrom? : Nat → Nat → Bool → List Nat → List Char → Option (List Token)
  | _, row, _, braces, [] =>
    if braces.isEmpty then some [⟨.finish, "", row, row, false⟩] else none
  | 0, _, _, _, _ => none
  | n + 1, row, glued, braces, c :: cs =>
    if isSpace c then scanFrom? n (row + rowsIn [c]) false braces cs
    else
      match lexeme? braces (c :: cs) with
      | none => none
      | some l =>
        let text := (c :: cs).take l.length
        let lastRow := row + rowsIn text
        let token : Token := ⟨l.kind, String.ofList text, row, lastRow, glued⟩
        (scanFrom? n lastRow (l.kind != .comment) l.braces ((c :: cs).drop l.length)).map
          (token :: ·)

/-- The tokens of a source text, the end of the text last; none if a part of it is no token. -/
def scan? (source : String) : Option (List Token) :=
  let cs := skipByteOrderMark source.toList
  scanFrom? cs.length 0 false [] cs

end CallPaths.Token
