/-!
# Tokens of Java sources

A source text is a list of tokens.  Comments are tokens too, since reports show the comments of a
method; white space is not kept, only the rows that it separates.
-/

namespace CallPaths

/-- The classes of tokens. -/
inductive TokenKind where
  /-- A keyword or an identifier; which of them it is depends on the place. -/
  | word
  /-- An operator or a punctuation mark. -/
  | mark
  | integer
  | floating
  | character
  /-- A string literal or a text block without embedded expressions. -/
  | string
  /-- A string literal up to its first embedded expression. -/
  | stringStart
  /-- The part of a string literal between two embedded expressions. -/
  | stringMiddle
  /-- A string literal after its last embedded expression. -/
  | stringEnd
  | comment
  /-- The end of the text. -/
  | finish
deriving DecidableEq, Repr, Inhabited

/-- A token and the rows that it stands on, counted from zero. -/
structure Token where
  kind : TokenKind
  text : String
  firstRow : Nat
  lastRow : Nat
  /-- Whether the token directly follows another one. -/
  glued : Bool
deriving DecidableEq, Repr, Inhabited

namespace Token

/-- Whether the token is a comment. -/
def isComment (t : Token) : Bool :=
  t.kind = .comment

end Token

end CallPaths
