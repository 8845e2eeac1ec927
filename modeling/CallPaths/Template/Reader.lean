import CallPaths.Template.Basic
import CallPaths.Text.Blank
import CallPaths.Text.Decimal
import CallPaths.Text.NameChars

/-!
# Reading templates

A template text is cut into pieces: plain text, places to fill in, statements and comments.  A minus
sign next to a delimiter strips the blanks of the text on that side.  The pieces are then put
together to conditions and loops.
-/

namespace CallPaths.Template

open Text

/-! ### Words -/

/-- A word inside a pair of delimiters. -/
inductive Word where
  /-- A name with the segments after it. -/
  | name (head : String) (segments : List String)
  | str (s : String)
  | num (n : Nat)
  /-- An operator or a punctuation mark. -/
  | mark (s : String)
deriving DecidableEq, Repr, Inhabited

/-- A name without segments. -/
def Word.plain (s : String) : Word := .name s []

/-- The blanks between words. -/
def isSpace (c : Char) : Bool :=
  c = ' ' || c = '\t' || c = '\r' || c = '\n'

/-- The first character of a name. -/
def isNameStart (c : Char) : Bool :=
  isAsciiLetter c || c = '_'

/-- A further character of a name or a segment. -/
def isNamePart (c : Char) : Bool :=
  isNameStart c || isAsciiDigit c

/-- Reads the segments after a name, at most `n` of them. -/
def segments : Nat → List Char → List String × List Char
  | 0, cs => ([], cs)
  | n + 1, '.' :: c :: cs =>
    if isNamePart c then
      let (more, rest) := segments n (cs.dropWhile isNamePart)
      (String.ofList (c :: cs.takeWhile isNamePart) :: more, rest)
    else ([], '.' :: c :: cs)
  | n + 1, '[' :: c :: cs =>
    if c = '"' || c = '\'' then
      match cs.dropWhile (· != c) with
      | _ :: ']' :: rest =>
        let (more, rest) := segments n rest
        (String.ofList (cs.takeWhile (· != c)) :: more, rest)
      | _ => ([], '[' :: c :: cs)
    else if isAsciiDigit c then
      match cs.dropWhile isAsciiDigit with
      | ']' :: rest =>
        let (more, rest) := segments n rest
        (String.ofList (c :: cs.takeWhile isAsciiDigit) :: more, rest)
      | _ => ([], '[' :: c :: cs)
    else ([], '[' :: c :: cs)
  | _, cs => ([], cs)

/-- Reads the word at the start of a text, which does not start with a blank. -/
def word? : List Char → Option (Word × List Char)
  | '=' :: '=' :: cs => some (.mark "==", cs)
  | '!' :: '=' :: cs => some (.mark "!=", cs)
  | '>' :: '=' :: cs => some (.mark ">=", cs)
  | '<' :: '=' :: cs => some (.mark "<=", cs)
  | c :: cs =>
    if isNameStart c then
      let (more, rest) := segments cs.length (cs.dropWhile isNamePart)
      some (.name (String.ofList (c :: cs.takeWhile isNamePart)) more, rest)
    else if isAsciiDigit c then
      (digits? (c :: cs.takeWhile isAsciiDigit)).map fun n => (.num n, cs.dropWhile isAsciiDigit)
    else if c = '"' || c = '\'' then
      match cs.dropWhile (· != c) with
      | _ :: rest => some (.str (String.ofList (cs.takeWhile (· != c))), rest)
      | [] => none
    else if c = '>' || c = '<' || c = '|' || c = '(' || c = ')' || c = ',' || c = '=' then
      some (.mark (String.singleton c), cs)
    else none
  | [] => none

/-! ### Pieces -/

/-- What a pair of delimiters stands for. -/
inductive Delimiter where
  | output
  | statement
  | comment
deriving DecidableEq, Repr

/-- A piece of a template text. -/
inductive Piece where
  | text (cs : List Char)
  /-- Words between delimiters; the flags say whether the text before and the text after it is
  stripped. -/
  | tag (kind : Delimiter) (words : List Word) (before after : Bool)
deriving Repr

/-- The character inside the closing delimiter. -/
def Delimiter.closing : Delimiter → Char
  | output => '}'
  | statement => '%'
  | comment => '#'

/-- The delimiter that a character after an opening brace starts. -/
def Delimiter.ofOpening? : Char → Option Delimiter
  | '{' => some output
  | '%' => some statement
  | '#' => some comment
  | _ => none

/-- The closing delimiter at the start of a text: whether it strips the text after it, and the rest
of the text. -/
def closing? (kind : Delimiter) : List Char → Option (Bool × List Char)
  | '-' :: c :: '}' :: cs => if c = kind.closing then some (true, cs) else none
  | c :: '}' :: cs => if c = kind.closing then some (false, cs) else none
  | _ => none

/-- Reads words up to the closing delimiter. -/
def words? (kind : Delimiter) : Nat → List Char → Option (List Word × Bool × List Char)
  | 0, _ => none
  | n + 1, cs =>
    let cs := cs.dropWhile isSpace
    match closing? kind cs with
    | some (after, rest) => some ([], after, rest)
    | none =>
      match word? cs with
      | none => none
      | some (w, rest) =>
        (words? kind n rest).map fun (ws, after, rest) => (w :: ws, after, rest)

/-- Skips a comment up to its closing delimiter. -/
def skipComment? : List Char → Option (Bool × List Char)
  | [] => none
  | c :: cs =>
    match closing? .comment (c :: cs) with
    | some r => some r
    | none => skipComment? cs

/-- Drops the minus sign after an opening delimiter, and says whether there was one. -/
def openingMinus : List Char → Bool × List Char
  | '-' :: cs => (true, cs)
  | cs => (false, cs)

/-- The plain text piece of a reversed text, if that is not empty. -/
def textPiece : List Char → List Piece
  | [] => []
  | acc => [.text acc.reverse]

/-- Cuts a text into pieces; `acc` is the reversed text since the last tag. -/
def pieces? : Nat → List Char → List Char → Option (List Piece)
  | _, acc, [] => some (textPiece acc)
  | 0, _, _ => none
  | n + 1, acc, '{' :: c :: cs =>
    match Delimiter.ofOpening? c with
    | none => pieces? n ('{' :: acc) (c :: cs)
    | some kind =>
      let (before, cs) := openingMinus cs
      let inside :=
        if kind = .comment then (skipComment? cs).map fun (after, rest) => ([], after, rest)
        else words? kind (cs.length + 1) cs
      match inside with
      | none => none
      | some (ws, after, rest) =>
        (pieces? n [] rest).map fun ps => textPiece acc ++ .tag kind ws before after :: ps
  | n + 1, acc, c :: cs => pieces? n (c :: acc) cs

/-- Strips the text pieces next to tags that ask for it; the flag says whether the tag before the
list does. -/
def stripped : Bool → List Piece → List Piece
  | _, [] => []
  | strip, .text cs :: rest =>
    let cs := if strip then trimLeft cs else cs
    let cs := match rest with
      | .tag _ _ true _ :: _ => trimRight cs
      | _ => cs
    .text cs :: stripped false rest
  | _, .tag kind ws before after :: rest => .tag kind ws before after :: stripped after rest

/-! ### Expressions -/

/-- Words that are no variables. -/
def reservedWords : List String :=
  ["and", "or", "not", "in", "is"]

/-- Reads an operand. -/
def operand? : List Word → Option (Operand × List Word)
  | .name "true" [] :: ws => some (.bool true, ws)
  | .name "false" [] :: ws => some (.bool false, ws)
  | .name head more :: ws =>
    if reservedWords.contains head then none else some (.path head more, ws)
  | .str s :: ws => some (.str s, ws)
  | .num n :: ws => some (.num n, ws)
  | _ => none

/-- Reads the named arguments of a filter up to the closing parenthesis. -/
def arguments? : Nat → List Word → Option (List (String × Operand) × List Word)
  | _, .mark ")" :: ws => some ([], ws)
  | n + 1, .name key [] :: .mark "=" :: ws =>
    match operand? ws with
    | some (value, .mark "," :: ws) =>
      (arguments? n ws).map fun (more, ws) => ((key, value) :: more, ws)
    | some (value, .mark ")" :: ws) => some ([(key, value)], ws)
    | _ => none
  | _, _ => none

/-- Reads filters, each after a bar. -/
def filters? : Nat → List Word → Option (List Filter × List Word)
  | n + 1, .mark "|" :: .name name [] :: .mark "(" :: ws =>
    match arguments? ws.length ws with
    | some (arguments, ws) => (filters? n ws).map fun (fs, ws) => (⟨name, arguments⟩ :: fs, ws)
    | none => none
  | n + 1, .mark "|" :: .name name [] :: ws =>
    (filters? n ws).map fun (fs, ws) => (⟨name, []⟩ :: fs, ws)
  | _, .mark "|" :: _ => none
  | _, ws => some ([], ws)

/-- Reads an operand with its filters. -/
def term? (ws : List Word) : Option (Term × List Word) :=
  match operand? ws with
  | some (operand, ws) => (filters? ws.length ws).map fun (fs, ws) => (⟨operand, fs⟩, ws)
  | none => none

/-- The comparison that a mark stands for. -/
def comparison? : Word → Option Comparison
  | .mark "<" => some .less
  | .mark "<=" => some .lessEqual
  | .mark ">" => some .greater
  | .mark ">=" => some .greaterEqual
  | .mark "==" => some .equal
  | .mark "!=" => some .notEqual
  | _ => none

/-- Reads a term or a comparison of two terms. -/
def comparisonExpr? (ws : List Word) : Option (Expr × List Word) :=
  match term? ws with
  | none => none
  | some (lhs, ws) =>
    match ws with
    | [] => some (.term lhs, [])
    | w :: rest =>
      match comparison? w with
      | none => some (.term lhs, w :: rest)
      | some op => (term? rest).map fun (rhs, ws) => (.compare op lhs rhs, ws)

mutual

/-- Reads alternatives. -/
def orExpr? : Nat → List Word → Option (Expr × List Word)
  | 0, _ => none
  | n + 1, ws =>
    match andExpr? n ws with
    | some (lhs, .name "or" [] :: ws) => (orExpr? n ws).map fun (rhs, ws) => (.or lhs rhs, ws)
    | r => r

/-- Reads a conjunction. -/
def andExpr? : Nat → List Word → Option (Expr × List Word)
  | 0, _ => none
  | n + 1, ws =>
    match notExpr? n ws with
    | some (lhs, .name "and" [] :: ws) => (andExpr? n ws).map fun (rhs, ws) => (.and lhs rhs, ws)
    | r => r

/-- Reads a negation, an expression in parentheses or a comparison. -/
def notExpr? : Nat → List Word → Option (Expr × List Word)
  | 0, _ => none
  | n + 1, .name "not" [] :: ws => (notExpr? n ws).map fun (e, ws) => (.not e, ws)
  | n + 1, .mark "(" :: ws =>
    match orExpr? n ws with
    | some (e, .mark ")" :: ws) => some (e, ws)
    | _ => none
  | _ + 1, ws => comparisonExpr? ws

end

/-- Reads an expression that makes up all the words. -/
def expr? (ws : List Word) : Option Expr :=
  match orExpr? (3 * ws.length + 3) ws with
  | some (e, []) => some e
  | _ => none

/-! ### Parts -/

/-- The condition of an `if` or `elif` statement. -/
def conditionOf? (head : String) : List Word → Option Expr
  | .name h [] :: ws => if h = head then expr? ws else none
  | _ => none

/-- The variable and the items of a `for` statement. -/
def loopOf? : List Word → Option (String × Term)
  | .name "for" [] :: .name v [] :: .name "in" [] :: ws =>
    match term? ws with
    | some (items, []) => some (v, items)
    | _ => none
  | _ => none

mutual

/-- Reads parts up to a statement that starts none. -/
def parts? : Nat → List Piece → Option (List Part × List Piece)
  | _, [] => some ([], [])
  | 0, _ => none
  | n + 1, .text cs :: rest =>
    (parts? n rest).map fun (ps, rest) => (.text (String.ofList cs) :: ps, rest)
  | n + 1, .tag .comment _ _ _ :: rest => parts? n rest
  | n + 1, .tag .output ws _ _ :: rest =>
    match expr? ws with
    | some e => (parts? n rest).map fun (ps, rest) => (.output e :: ps, rest)
    | none => none
  | n + 1, .tag .statement ws before after :: rest =>
    match conditionOf? "if" ws with
    | some e =>
      match conditional? n e rest with
      | some (p, rest) => (parts? n rest).map fun (ps, rest) => (p :: ps, rest)
      | none => none
    | none =>
      match loopOf? ws with
      | some (v, items) =>
        match parts? n rest with
        | some (body, .tag _ [.name "endfor" []] _ _ :: rest) =>
          (parts? n rest).map fun (ps, rest) => (.loop v items body [] :: ps, rest)
        | some (body, .tag _ [.name "else" []] _ _ :: rest) =>
          match parts? n rest with
          | some (otherwise, .tag _ [.name "endfor" []] _ _ :: rest) =>
            (parts? n rest).map fun (ps, rest) => (.loop v items body otherwise :: ps, rest)
          | _ => none
        | _ => none
      | none => some ([], .tag .statement ws before after :: rest)

/-- Reads the rest of a condition after its opening statement. -/
def conditional? : Nat → Expr → List Piece → Option (Part × List Piece)
  | 0, _, _ => none
  | n + 1, e, rest =>
    match parts? n rest with
    | some (body, .tag _ [.name "endif" []] _ _ :: rest) => some (.cond e body [], rest)
    | some (body, .tag _ [.name "else" []] _ _ :: rest) =>
      match parts? n rest with
      | some (otherwise, .tag _ [.name "endif" []] _ _ :: rest) =>
        some (.cond e body otherwise, rest)
      | _ => none
    | some (body, .tag _ ws _ _ :: rest) =>
      match conditionOf? "elif" ws with
      | some e' =>
        (conditional? n e' rest).map fun (p, rest) => (.cond e body [p], rest)
      | none => none
    | _ => none

end

/-- Reads a template text; none if it is malformed. -/
def read? (s : String) : Option (List Part) :=
  match pieces? s.length [] s.toList with
  | none => none
  | some ps =>
    match parts? (2 * ps.length + 2) (stripped false ps) with
    | some (parts, []) => some parts
    | _ => none

end CallPaths.Template
