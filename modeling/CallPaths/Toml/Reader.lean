import CallPaths.Text.Blank
import CallPaths.Toml.Scalar

/-!
# Reading TOML documents

A document is a list of lines: headers of tables, keys with values, and comments.
-/

namespace CallPaths.Toml

open Text

/-- Drops blanks inside a line. -/
def skipBlanks (cs : List Char) : List Char :=
  cs.dropWhile fun c => c = ' ' || c = '\t'

/-- Drops a comment. -/
def skipComment : List Char → List Char
  | '#' :: cs => cs.dropWhile isTextChar
  | cs => cs

/-- Drops blanks, comments and line ends, at most `n` lines. -/
def skipLines : Nat → List Char → List Char
  | 0, cs => cs
  | n + 1, cs =>
    let cs := skipComment (skipBlanks cs)
    match newline? cs with
    | some rest => skipLines n rest
    | none => cs

/-- The rest of a document after the end of a line. -/
def lineEnd? (cs : List Char) : Option (List Char) :=
  match skipComment (skipBlanks cs) with
  | [] => some []
  | cs => newline? cs

/-! ### Keys -/

/-- The characters of a key without quotes. -/
def isKeyChar (c : Char) : Bool :=
  isAsciiLetter c || isAsciiDigit c || c = '_' || c = '-'

/-- Reads one part of a key. -/
def simpleKey? (cs : List Char) : Option (String × List Char) :=
  match cs with
  | '"' :: rest => (basicString? (rest.length + 1) rest).map fun (s, r) => (String.ofList s, r)
  | '\'' :: rest => (literalString? rest).map fun (s, r) => (String.ofList s, r)
  | _ =>
    match cs.takeWhile isKeyChar with
    | [] => none
    | key => some (String.ofList key, cs.drop key.length)

/-- Reads a key of one or more parts with dots between, at most `n` parts. -/
def key? : Nat → List Char → Option (List String × List Char)
  | 0, _ => none
  | n + 1, cs =>
    match simpleKey? (skipBlanks cs) with
    | none => none
    | some (k, rest) =>
      match skipBlanks rest with
      | '.' :: rest => (key? n rest).map fun (ks, rest) => (k :: ks, rest)
      | rest => some ([k], rest)

/-! ### Values -/

mutual

/-- Reads a value. -/
def value? : Nat → List Char → Option (Value × List Char)
  | 0, _ => none
  | n + 1, cs =>
    match cs with
    | '[' :: rest => (items? n rest).map fun (items, rest) => (.array items, rest)
    | '{' :: rest =>
      match skipBlanks rest with
      | '}' :: rest => some (.table [], rest)
      | rest =>
        (members? n [] rest).map fun (members, rest) =>
          (Entry.finish (.table .header members), rest)
    | '"' :: _ => (string? cs).map fun (s, rest) => (.text s, rest)
    | '\'' :: _ => (string? cs).map fun (s, rest) => (.text s, rest)
    | _ => plain? cs

/-- Reads the items of a list after its opening bracket. -/
def items? : Nat → List Char → Option (List Value × List Char)
  | 0, _ => none
  | n + 1, cs =>
    match skipLines cs.length cs with
    | ']' :: rest => some ([], rest)
    | cs =>
      match value? n cs with
      | none => none
      | some (v, rest) =>
        match skipLines rest.length rest with
        | ',' :: rest => (items? n rest).map fun (vs, rest) => (v :: vs, rest)
        | ']' :: rest => some ([v], rest)
        | _ => none

/-- Reads the members of an inline table and adds them to those before. -/
def members? : Nat → Members → List Char → Option (Members × List Char)
  | 0, _, _ => none
  | n + 1, before, cs =>
    match key? cs.length cs with
    | some (keys, '=' :: rest) =>
      match value? n (skipBlanks rest) with
      | none => none
      | some (v, rest) =>
        match before.addKey? keys v .header with
        | none => none
        | some members =>
          match skipBlanks rest with
          | ',' :: rest => members? n members rest
          | '}' :: rest => some (members, rest)
          | _ => none
    | _ => none

end

/-! ### Documents -/

/-- Reads the keys of a header and its end after the opening bracket. -/
def header? (cs : List Char) : Option (List String × List Char) :=
  match key? cs.length cs with
  | some (keys, ']' :: rest) => some (keys, rest)
  | _ => none

/-- Reads a line of a document whose tables are read so far up to the one that a path leads to;
gives the tables and the path after it. -/
def line? (root : Members) (path : List String) (cs : List Char) :
    Option (Members × List String × List Char) :=
  match skipBlanks cs with
  | '[' :: '[' :: rest =>
    match header? rest with
    | some (keys, ']' :: rest) =>
      match root.change? false (Members.openNext? (keys.getLast?.getD "")) keys.dropLast
        .header with
      | some root => some (root, keys, rest)
      | none => none
    | _ => none
  | '[' :: rest =>
    match header? rest with
    | some (keys, rest) =>
      match root.change? false (Members.open? (keys.getLast?.getD "")) keys.dropLast .header with
      | some root => some (root, keys, rest)
      | none => none
    | none => none
  | [] => some (root, path, [])
  | '#' :: rest => some (root, path, '#' :: rest)
  | '\n' :: rest => some (root, path, '\n' :: rest)
  | '\r' :: rest => some (root, path, '\r' :: rest)
  | cs =>
    match key? cs.length cs with
    | some (keys, '=' :: rest) =>
      match value? (rest.length + 1) (skipBlanks rest) with
      | some (v, rest) =>
        (root.change? false (fun origin m => m.addKey? keys v origin) path .header).map
          fun root => (root, path, rest)
      | none => none
    | _ => none

/-- Reads the lines of a document. -/
def lines? : Nat → Members → List String → List Char → Option Members
  | _, root, _, [] => some root
  | 0, _, _, _ => none
  | n + 1, root, path, cs =>
    match line? root path cs with
    | none => none
    | some (root, path, rest) =>
      match lineEnd? rest with
      | some rest => lines? n root path rest
      | none => none

/-- Reads a document; none if it is malformed. -/
def read? (s : String) : Option Value :=
  let cs := skipByteOrderMark s.toList
  (lines? (cs.length + 1) [] [] cs).map fun root => .table (Entry.finishMembers root)

end CallPaths.Toml
