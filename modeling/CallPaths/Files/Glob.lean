/-!
# Glob patterns

Patterns for paths whose components are separated by `/`.  A path is matched byte by byte:

* `?` is one byte other than `/`, and `*` any number of them;
* `[a-z]` is one byte of a class, `[!a-z]` or `[^a-z]` one byte outside of it;
* `{a,b}` is one of several patterns;
* `**/` at the start is any number of components, `/**/` any number of them between two others,
  `/**` at the end everything below;
* a backslash takes the meaning from the character after it.

A `[` that no `]` closes stands for itself.
-/

namespace CallPaths

/-- A part of a glob pattern. -/
inductive GlobPart where
  /-- One given byte. -/
  | byte (b : UInt8)
  /-- One byte other than a separator. -/
  | anyByte
  /-- One byte inside, or if negated outside, of some ranges. -/
  | oneByte (negated : Bool) (ranges : List (UInt8 × UInt8))
  /-- Any number of bytes other than separators. -/
  | anyBytes
  /-- Any number of components in front of the rest. -/
  | anyParents
  /-- A separator, or two with any number of components between them. -/
  | anyBetween
  /-- Everything below a directory. -/
  | anyBelow
  /-- One of several patterns; those without parts do not count. -/
  | oneOf (choices : List (List GlobPart))
deriving Inhabited

/-- A pattern is a sequence of parts. -/
abbrev Glob := List GlobPart

namespace Glob

/-- The byte between the components of a path. -/
def separator : UInt8 := 47

/-! ### Matching -/

/-- The rests after a text or any beginning of it that lies inside one component. -/
def restsInComponent : List UInt8 → List (List UInt8)
  | [] => [[]]
  | b :: bs => (b :: bs) :: if b = separator then [] else restsInComponent bs

/-- The rests after each separator of a text. -/
def restsAfterSeparators : List UInt8 → List (List UInt8)
  | [] => []
  | b :: bs => if b = separator then bs :: restsAfterSeparators bs else restsAfterSeparators bs

/-- The rest after the first byte, if there is one and it fits. -/
def afterByte (fits : UInt8 → Bool) : List UInt8 → List (List UInt8)
  | [] => []
  | b :: bs => if fits b then [bs] else []

mutual

/-- Whether a part stands for no text at all. -/
def isVoid : GlobPart → Bool
  | .oneOf choices => allVoid choices
  | _ => false

/-- Whether every part of a pattern stands for no text at all. -/
def isVoidGlob : List GlobPart → Bool
  | [] => true
  | p :: ps => isVoid p && isVoidGlob ps

/-- Whether every choice stands for no text at all. -/
def allVoid : List (List GlobPart) → Bool
  | [] => true
  | g :: gs => isVoidGlob g && allVoid gs

end

mutual

/-- The rests of a text after the beginnings that a part matches. -/
def partRests : GlobPart → List UInt8 → List (List UInt8)
  | .byte b, s => afterByte (· = b) s
  | .anyByte, s => afterByte (· ≠ separator) s
  | .oneByte negated ranges, s =>
    afterByte (fun b => negated != ranges.any fun r => r.1 ≤ b && b ≤ r.2) s
  | .anyBytes, s => restsInComponent s
  | .anyParents, s => s :: restsAfterSeparators s
  | .anyBetween, s => (afterByte (· = separator) s).flatMap fun r => r :: restsAfterSeparators r
  | .anyBelow, s => (afterByte (· = separator) s).map fun _ => []
  | .oneOf choices, s => if allVoid choices then [s] else choiceRests choices s

/-- The rests of a text after the beginnings that a pattern matches. -/
def rests : List GlobPart → List UInt8 → List (List UInt8)
  | [], s => [s]
  | p :: ps, s => ((partRests p s).eraseDups.flatMap (rests ps)).eraseDups

/-- The rests of a text after the beginnings that one of several patterns matches. -/
def choiceRests : List (List GlobPart) → List UInt8 → List (List UInt8)
  | [], _ => []
  | g :: gs, s => (if isVoidGlob g then [] else rests g s) ++ choiceRests gs s

end

/-- Whether a pattern matches a whole path.  A pattern of nothing but parents matches every path. -/
def isMatch (g : Glob) (path : List UInt8) : Bool :=
  match g with
  | [.anyParents] => true
  | g => (rests g path).any List.isEmpty

/-! ### Reading patterns -/

/-- The bytes of a character. -/
def charBytes (c : Char) : List UInt8 :=
  (String.singleton c).toUTF8.toList

/-- The parts that match a character. -/
def charParts (c : Char) : List GlobPart :=
  (charBytes c).map .byte

/-- The ranges of bytes that a range of characters stands for: the last byte of the first character
to the first byte of the last one, and every other byte of the two by itself. -/
def byteRanges (first last : Char) : List (UInt8 × UInt8) :=
  if first = last then (charBytes first).map fun b => (b, b)
  else
    let a := charBytes first
    let z := charBytes last
    (a.dropLast.map fun b => (b, b)) ++ [(a.getLastD 0, z.headD 0)] ++ (z.tail.map fun b => (b, b))

/-- What the text after a `[` turns out to be. -/
inductive BracketReading where
  /-- A class of ranges, with the text after it. -/
  | closed (ranges : List (Char × Char)) (rest : List Char)
  /-- A range whose end comes before its start. -/
  | reversed
  /-- No `]` closes it. -/
  | unclosed

/-- Reads the members of a class.  `first` says that none was read yet, `hyphen` that a `-` stands
behind the newest one; `ranges` are those so far, the newest first. -/
def readBracket (first hyphen : Bool) (ranges : List (Char × Char)) : List Char → BracketReading
  | [] => .unclosed
  | c :: cs =>
    if c = ']' && !first then
      .closed ((if hyphen then ('-', '-') :: ranges else ranges).reverse) cs
    else if c = '-' && !first && !hyphen then readBracket false true ranges cs
    else
      match hyphen, ranges with
      | true, (a, _) :: earlier =>
        if c < a then .reversed else readBracket false false ((a, c) :: earlier) cs
      | _, _ => readBracket false false ((c, c) :: ranges) cs

/-- The part that a class of characters stands for. -/
def bracketPart (negated : Bool) (ranges : List (Char × Char)) : GlobPart :=
  .oneByte negated (ranges.flatMap fun r => byteRanges r.1 r.2)

/-- A pattern that is being read. -/
structure Draft where
  /-- The character before the next one. -/
  last : Option Char := none
  /-- The parts of the current choice, the newest first. -/
  parts : List GlobPart := []
  /-- For each open brace the parts in front of it and its finished choices, the newest first. -/
  braces : List (List GlobPart × List Glob) := []
  /-- Whether `[` stands for itself. -/
  plainBrackets : Bool := false

namespace Draft

/-- Appends parts. -/
def append (d : Draft) (parts : List GlobPart) : Draft :=
  { d with parts := parts.reverse ++ d.parts }

/-- Appends two stars, or what they mean between separators, and gives the rest after them. -/
def appendStars (d : Draft) (rest : List Char) : Draft × List Char :=
  let star := { d with last := some '*' }
  let slash := { d with last := some '/' }
  let plain := (star.append [.anyBytes, .anyBytes], rest)
  match d.parts with
  | [] =>
    match rest with
    | [] => (star.append [.anyParents], [])
    | '/' :: rest => (slash.append [.anyParents], rest)
    | _ => plain
  | newest :: older =>
    let inside := !d.braces.isEmpty
    let afterBreak := d.last = some '/' || (inside && (d.last = some ',' || d.last = some '\x7b'))
    let instead (part : GlobPart) : List GlobPart :=
      match newest with
      | .anyParents | .anyBelow => newest :: older
      | _ => part :: older
    if !afterBreak then plain
    else
      match rest with
      | [] => ({ star with parts := instead .anyBelow }, [])
      | '/' :: rest => ({ slash with parts := instead .anyBetween }, rest)
      | c :: _ =>
        if inside && (c = ',' || c = '\x7d') then ({ star with parts := instead .anyBelow }, rest)
        else plain

/-- Reads the rest of a pattern, at least one character a step.  A pattern is refused for a brace
without its partner, for a reversed range and for a backslash at the end. -/
def finish (d : Draft) : Nat → List Char → Option Glob
  | _, [] => if d.braces.isEmpty then some d.parts.reverse else none
  | 0, _ => none
  | fuel + 1, c :: cs =>
    let next := { d with last := some c }
    if c = '?' then (next.append [.anyByte]).finish fuel cs
    else if c = '*' then
      match cs with
      | '*' :: rest =>
        let (starred, rest) := d.appendStars rest
        starred.finish fuel rest
      | _ => (next.append [.anyBytes]).finish fuel cs
    else if c = '[' && !d.plainBrackets then
      let (negated, body) := match cs with
        | '!' :: rest => (true, rest)
        | '^' :: rest => (true, rest)
        | _ => (false, cs)
      match readBracket true false [] body with
      | .closed ranges rest =>
        { d.append [bracketPart negated ranges] with last := some ']' }.finish fuel rest
      | .reversed => none
      | .unclosed => { next.append [.byte 91] with plainBrackets := true }.finish fuel cs
    else if c = '\x7b' then
      { next with parts := [], braces := (d.parts, []) :: d.braces }.finish fuel cs
    else if c = '\x7d' then
      match d.braces with
      | [] => none
      | (front, choices) :: outer =>
        { next with
          parts := .oneOf (d.parts.reverse :: choices).reverse :: front
          braces := outer }.finish fuel cs
    else if c = ',' then
      match d.braces with
      | [] => (next.append (charParts c)).finish fuel cs
      | (front, choices) :: outer =>
        { next with parts := [], braces := (front, d.parts.reverse :: choices) :: outer }.finish
          fuel cs
    else if c = '\\' then
      match cs with
      | [] => none
      | e :: rest => { d.append (charParts e) with last := some e }.finish fuel rest
    else (next.append (charParts c)).finish fuel cs

end Draft

/-- The pattern that a text writes. -/
def read? (text : List Char) : Option Glob :=
  ({} : Draft).finish text.length text

end Glob

end CallPaths
