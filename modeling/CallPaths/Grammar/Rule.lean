import CallPaths.ParseTree

/-!
# Grammar rules

A grammar is a table of rules, and a rule is a value that one function reads tokens by.  Choices are
ordered: the first alternative that fits is taken.  A decision that needs more than the next token
is a `Rule.guard`, which looks ahead without taking anything.

Reading goes from a list of trees to a longer one: the trees that a rule reads are added at the end.
A rule for a node that starts with what is already there, such as an operation whose left operand
has been read, is a `Rule.grow` inside a `Rule.branch`.

Every token that is taken becomes a leaf, together with the comments before it, so no token is lost
or made up on the way.
-/

namespace CallPaths

/-- What a single token has to be. -/
inductive Terminal where
  /-- A given word. -/
  | word (text : String)
  /-- One of several words. -/
  | oneOf (texts : List String)
  /-- Any word but the reserved ones. -/
  | name (reserved : List String)
  /-- A given mark. -/
  | mark (text : String)
  /-- A token of a given text that directly follows another one. -/
  | glued (text : String)
  /-- Any token of a kind. -/
  | kind (k : TokenKind)
  /-- Any token but a bracket and the end of the text. -/
  | inner
deriving Repr, Inhabited

/-- The marks that open or close something. -/
def brackets : List String := ["(", ")", "[", "]", "\x7b", "\x7d"]

/-- Whether a token is what a terminal asks for. -/
def Terminal.accepts : Terminal → Token → Bool
  | word s, t => t.kind = .word && t.text = s
  | oneOf texts, t => t.kind = .word && texts.contains t.text
  | name reserved, t => t.kind = .word && !reserved.contains t.text
  | mark s, t => t.kind = .mark && t.text = s
  | glued s, t => t.glued && t.text = s
  | kind k, t => t.kind = k
  | inner, t => t.kind != .finish && !(t.kind = .mark && brackets.contains t.text)

/-- A grammar rule over the symbols `σ`. -/
inductive Rule (σ : Type) where
  /-- Reads nothing. -/
  | empty
  /-- Never fits. -/
  | fail
  /-- Reads one token. -/
  | terminal (t : Terminal)
  /-- Reads by one rule, then by another. -/
  | seq (first second : Rule σ)
  /-- Reads by the first rule, or by the second one if the first does not fit. -/
  | alt (first second : Rule σ)
  /-- Reads by a rule as often as it fits. -/
  | many (r : Rule σ)
  /-- Puts what a rule reads under a node. -/
  | node (k : NodeKind) (r : Rule σ)
  /-- Gives the nodes that a rule reads a role. -/
  | role (part : Role) (r : Rule σ)
  /-- Reads by the rule of a symbol. -/
  | call (s : σ)
  /-- Reads by one rule if a condition fits here, and by another one if not.  The condition takes
  nothing. -/
  | guard (condition yes no : Rule σ)
  /-- Reads a base, then goes on from it. -/
  | branch (base tail : Rule σ)
  /-- Puts all that has been read since the start of the branch, and what a rule reads, under a
  node.  The base gets a role if one is given; if kinds are given, the base has to be of one of
  them. -/
  | grow (k : NodeKind) (base : Option Role) (bases : List NodeKind) (r : Rule σ)
  /-- Reads by a rule and fits only if that gives a node of one of the kinds. -/
  | only (kinds : List NodeKind) (r : Rule σ)
deriving Inhabited

namespace Rule

variable {σ : Type}

/-! ### Combinations -/

/-- Reads by rules one after another. -/
def all : List (Rule σ) → Rule σ
  | [] => empty
  | [r] => r
  | r :: rs => seq r (all rs)

/-- Reads by the first rule that fits. -/
def any : List (Rule σ) → Rule σ
  | [] => fail
  | [r] => r
  | r :: rs => alt r (any rs)

/-- Reads by a rule if it fits. -/
def opt (r : Rule σ) : Rule σ := alt r empty

/-- Reads by a rule once or more often. -/
def many1 (r : Rule σ) : Rule σ := seq r (many r)

/-- Reads by a rule if a condition fits here. -/
def ifAhead (condition r : Rule σ) : Rule σ := guard condition r fail

/-- Reads by a rule if a condition does not fit here. -/
def unlessAhead (condition r : Rule σ) : Rule σ := guard condition fail r

/-- A given mark. -/
def mark (s : String) : Rule σ := terminal (.mark s)

/-- A given word. -/
def word (s : String) : Rule σ := terminal (.word s)

/-- One of several marks. -/
def anyMark (texts : List String) : Rule σ := any (texts.map mark)

/-- Reads nothing, and fits only if none of the words is next. -/
def notWords (texts : List String) : Rule σ := unlessAhead (terminal (.oneOf texts)) empty

/-- A token of a given text right after another one. -/
def glued (s : String) : Rule σ := terminal (.glued s)

/-- One or more times a rule, with a separator between. -/
def separated (separator r : Rule σ) : Rule σ := seq r (many (seq separator r))

/-- One or more times a rule, with commas between. -/
def list1 (r : Rule σ) : Rule σ := separated (mark ",") r

/-- Any number of times a rule, with commas between. -/
def list (r : Rule σ) : Rule σ := opt (list1 r)

/-- An odd number of times a rule. -/
def oddly (r : Rule σ) : Rule σ := seq r (many (seq r r))

/-- An even number of times a rule, but not none. -/
def evenly (r : Rule σ) : Rule σ := many1 (seq r r)

/-- A node that goes on from the base of a branch. -/
def extend (k : NodeKind) (r : Rule σ) : Rule σ := grow k none [] r

/-! ### Reading -/

/-- Whether one of several trees is a node of one of the kinds, comments apart; every tree is if no
kinds are given. -/
def isOneOf (kinds : List NodeKind) (trees : List ParseTree) : Bool :=
  kinds.isEmpty ||
    (trees.filter fun t => !t.isComment).any fun t => t.kind?.elim false kinds.contains

/-- Gives nodes a role, if there is one to give. -/
def withRole? (r : Option Role) (trees : List ParseTree) : List ParseTree :=
  match r with
  | none => trees
  | some r => trees.map (·.withRole r)

/-- Reads tokens by a rule: adds the trees to those of the list, and gives the tokens that are left;
none if the rule does not fit.  The first argument bounds the depth of rules inside each other. -/
def read (production : σ → Rule σ) :
    Nat → Rule σ → List ParseTree → List Token → Option (List ParseTree × List Token)
  | 0, _, _, _ => none
  | n + 1, rule, before, tokens =>
    match rule with
    | empty => some (before, tokens)
    | fail => none
    | terminal t =>
      match tokens.dropWhile Token.isComment with
      | token :: rest =>
        if t.accepts token then
          let comments := (tokens.takeWhile Token.isComment).map ParseTree.ofComment
          some (before ++ comments ++ [.leaf token], rest)
        else none
      | [] => none
    | seq first second =>
      match read production n first before tokens with
      | some (trees, rest) => read production n second trees rest
      | none => none
    | alt first second =>
      match read production n first before tokens with
      | some r => some r
      | none => read production n second before tokens
    | many r =>
      match read production n r before tokens with
      | some (trees, rest) => read production n (many r) trees rest
      | none => some (before, tokens)
    | node k r =>
      match read production n r [] tokens with
      | some (trees, rest) => some (before ++ ParseTree.enclose k trees, rest)
      | none => none
    | role part r =>
      match read production n r [] tokens with
      | some (trees, rest) => some (before ++ trees.map (·.withRole part), rest)
      | none => none
    | call s => read production n (production s) before tokens
    | guard condition yes no =>
      if (read production n condition [] tokens).isSome then read production n yes before tokens
      else read production n no before tokens
    | branch base tail =>
      match read production n base [] tokens with
      | some (trees, rest) =>
        match read production n tail trees rest with
        | some (trees, rest) => some (before ++ trees, rest)
        | none => none
      | none => none
    | grow k base bases r =>
      if isOneOf bases before then
        match read production n r [] tokens with
        | some (trees, rest) =>
          some (ParseTree.enclose k (withRole? base before ++ trees), rest)
        | none => none
      else none
    | only kinds r =>
      match read production n r [] tokens with
      | some (trees, rest) => if isOneOf kinds trees then some (before ++ trees, rest) else none
      | none => none

end Rule

end CallPaths
