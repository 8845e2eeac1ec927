import CallPaths.Grammar.Types

/-!
# Expressions

Binary operators have levels, from the loosest (zero) to the tightest one.  An assignment or a
lambda expression may stand as the last operand of an operation and then takes all that follows.

A name in parentheses before another operand is a cast, unless that starts with a sign: then the
sign is mostly a binary operator.
-/

namespace CallPaths.Grammar

open Rule

/-! ### Literals and names -/

/-- A string literal, with the expressions embedded in it. -/
def stringLiteral : JavaRule :=
  node .stringLiteral (any
    [terminal (.kind .string),
      all
        [terminal (.kind .stringStart), call (.expression false),
          many (all [terminal (.kind .stringMiddle), call (.expression false)]),
          terminal (.kind .stringEnd)]])

/-- A literal. -/
def literal : JavaRule :=
  any
    [node .integerLiteral (terminal (.kind .integer)),
      node .floatingLiteral (terminal (.kind .floating)),
      node .characterLiteral (terminal (.kind .character)),
      stringLiteral,
      node .booleanLiteral (terminal (.oneOf ["true", "false"])),
      node .nullLiteral (word "null")]

/-- The object itself. -/
def selfReference : JavaRule :=
  node .selfReference (word "this")

/-- The object itself as one of its superclass. -/
def superReference : JavaRule :=
  node .superReference (word "super")

/-- The arguments of a call. -/
def argumentList : JavaRule :=
  node .argumentList (all [mark "(", list (call (.expression false)), mark ")"])

/-- An expression in parentheses. -/
def parenthesized : JavaRule :=
  node .parenthesized (all [mark "(", call (.expression false), mark ")"])

/-! ### Primary expressions -/

/-- The creation of an object, from the word `new` on. -/
def objectCreationParts : JavaRule :=
  all
    [word "new", annotations, opt (all [call .typeArguments, annotations]),
      role .type (simpleType []), role .arguments (call .argumentList), opt (call .classBody)]

/-- The creation of an array. -/
def arrayCreation : JavaRule :=
  node .arrayCreation (all
    [word "new", annotations, role .type (simpleType []),
      any
        [all
            [many1 (node .arrayDimension (all
              [annotations, mark "[", call (.expression false), mark "]"])),
              opt (call .dimensions)],
          all [call .dimensions, call .arrayInitializer]]])

/-- The part of a method reference after its first operand. -/
def methodReferenceTail : JavaRule :=
  extend .methodReference (all
    [mark "::", opt (call .typeArguments), any [word "new", identifier []]])

/-- The part of a member access after the object: a call, a field, or a method reference.  The
reserved words are no names right after the object. -/
def memberTail (reserved : List String) : JavaRule :=
  any
    [grow .methodInvocation (some .object) [] (all
        [mark ".",
          any
            [all
                [superReference, mark ".", opt (call .typeArguments),
                  role .name (identifier ["this"])],
              all [call .typeArguments, role .name (identifier ["super"])],
              role .name (identifier reserved)],
          role .arguments (call .argumentList)]),
      grow .fieldAccess (some .object) [] (all
        [mark ".",
          any
            [all [superReference, mark ".", role .member (any [selfReference, identifier []])],
              role .member (any [selfReference, identifier reserved])]]),
      methodReferenceTail]

/-- What may follow a primary expression and make a longer one. -/
def primaryTail : JavaRule :=
  any
    [memberTail memberWords,
      extend .objectCreation (all [mark ".", objectCreationParts]),
      extend .templateExpression (all [mark ".", stringLiteral]),
      extend .arrayAccess (all [mark "[", call (.expression false), mark "]"])]

/-- A type as the first part of a method reference, or before the word `class` if that names neither
a method nor the target of an assignment. -/
def typeReference : JavaRule :=
  all
    [notWords expressionTypeExclusions,
      any
        [branch (call .type) methodReferenceTail,
          branch (type typePathEnds) (extend .classLiteral (all
            [mark ".", word "class", unlessAhead (anyMark ["(", "="]) empty]))]]

/-- A call of a method without an object. -/
def plainInvocation : JavaRule :=
  node .methodInvocation (all
    [role .name (identifier expressionWords), role .arguments (call .argumentList)])

/-- The first part of a primary expression. -/
def primaryStart : JavaRule :=
  any
    [literal,
      typeReference,
      selfReference,
      branch superReference (memberTail ["this", "super"]),
      node .objectCreation objectCreationParts,
      arrayCreation,
      unlessAhead (all [mark "(", terminal (.oneOf plainModifierWords)]) parenthesized,
      ifAhead (all [identifier expressionWords, mark "("]) plainInvocation,
      identifier expressionWords]

/-- A primary expression. -/
def primary : JavaRule :=
  branch primaryStart (many primaryTail)

/-! ### Lambda expressions, casts and assignments -/

/-- Parameters of a lambda expression without types. -/
def inferredParameters : JavaRule :=
  node .inferredParameters (all
    [mark "(", notWords (plainModifierWords ++ expressionWords), list1 (identifier []),
      mark ")"])

/-- Parameters of a lambda expression with types. -/
def typedParameters : JavaRule :=
  unlessAhead
    (all [mark "(", notWords modifierWords, terminal (.oneOf expressionTypeExclusions)])
    (call .formalParameters)

/-- The parameters of a lambda expression. -/
def lambdaParameters : JavaRule :=
  any
    [identifier expressionWords,
      ifAhead (all [inferredParameters, mark "->"]) inferredParameters,
      typedParameters]

/-- A lambda expression; there is none in a label of a switch. -/
def lambda (inLabel : Bool) : JavaRule :=
  if inLabel then fail
  else
    ifAhead (all [lambdaParameters, mark "->"])
      (node .lambda (all
        [lambdaParameters, mark "->", any [call .block, call (.expression false)]]))

/-- A dotted name that is a type as well as an expression. -/
def plainName : JavaRule :=
  all [notWords (modifierWords ++ contextualWords), qualifiedName expressionWords]

/-- The start of an operand that cannot be the rest of an operation. -/
def operandStart (inLabel : Bool) : JavaRule :=
  any
    [terminal (.name (if inLabel then ["instanceof", "when"] else ["instanceof"])),
      terminal (.kind .integer), terminal (.kind .floating), terminal (.kind .character),
      terminal (.kind .string), terminal (.kind .stringStart),
      anyMark ["(", "!", "~", "@"]]

/-- The first type of a cast, which starts with no word that may start something else in
parentheses. -/
def castType : JavaRule :=
  all
    [notWords variableTypeExclusions,
      unlessAhead (all [call .annotationUse, terminal (.oneOf modifierWords)]) empty,
      role .type (call .type)]

/-- A further type of a cast. -/
def furtherType : JavaRule :=
  all [mark "&", role .type (call .type)]

/-- A chain of names and brackets, which looks like a primary expression. -/
def chainAhead : JavaRule :=
  all
    [any [terminal (.name []), call .bracketed],
      many (any [all [mark ".", terminal (.name [])], call .bracketed])]

/-- The start of a cast: a type that is no name, types before an operand that cannot be the rest of
an operation, or a name before signs and an operand with an odd number of operators after it. -/
def castStart (inLabel : Bool) : JavaRule :=
  any
    [unlessAhead (all [mark "(", plainName, anyMark [")", "&"]])
        (all [mark "(", castType, mark ")"]),
      all
        [mark "(", castType, many furtherType, mark ")", opt (anyMark ["++", "--"]),
          operandStart inLabel],
      all
        [mark "(", plainName, mark ")", many1 (anyMark ["+", "-"]), chainAhead,
          oddly (anyMark ["++", "--"]), unlessAhead (anyMark ["++", "--"]) empty]]

/-- An operand that takes the operators `++` and `--` after it before a cast does. -/
def wideOperand (inLabel : Bool) : JavaRule :=
  ifAhead
    (any [anyMark ["+", "-", "!", "~", "++", "--"], word "switch", castStart inLabel])
    (call (.operand inLabel))

/-- A cast.  A cast to several types takes a primary or a lambda expression only. -/
def cast (inLabel : Bool) : JavaRule :=
  node .cast (any
    [all
        [mark "(", castType, mark ")",
          role .value (any [wideOperand inLabel, call (.prefixed inLabel)])],
      all
        [mark "(", castType, many1 furtherType, mark ")",
          role .value (any [lambda inLabel, call .primary])]])

/-- The operators of assignments. -/
def assignmentOperator : JavaRule :=
  any
    [anyMark ["=", "+=", "-=", "*=", "/=", "&=", "|=", "^=", "%=", "<<="],
      all [mark ">", glued ">", opt (glued ">"), glued "="]]

/-- A primary expression, or an assignment to one. -/
def assignable (inLabel : Bool) : JavaRule :=
  branch (call .primary)
    (opt (grow .assignment none [.identifier, .fieldAccess, .arrayAccess]
      (all [assignmentOperator, call (.expression inLabel)])))

/-! ### Operations -/

/-- An operand without operators after it. -/
def prefixedOperand (inLabel : Bool) : JavaRule :=
  any
    [lambda inLabel,
      node .unaryOperation (all [anyMark ["+", "-", "!", "~"], call (.prefixed inLabel)]),
      node .updateOperation (all [anyMark ["++", "--"], call (.prefixed inLabel)]),
      ifAhead (castStart inLabel) (cast inLabel),
      call .switchExpression,
      assignable inLabel]

/-- An operator after its operand. -/
def updateTail : JavaRule :=
  extend .updateOperation (anyMark ["++", "--"])

/-- An operand of a binary operator. -/
def operand (inLabel : Bool) : JavaRule :=
  branch (call (.prefixed inLabel)) (many updateTail)

/-- The number of levels of binary operators. -/
def levels : Nat := 10

/-- Fits if no further part of an operator made of closing angle brackets follows. -/
def bracketsEnd : JavaRule :=
  unlessAhead (any [glued ">", glued "=", glued "=="]) empty

/-- The binary operators of a level. -/
def binaryOperator : Nat → JavaRule
  | 0 => mark "||"
  | 1 => mark "&&"
  | 2 => mark "|"
  | 3 => mark "^"
  | 4 => mark "&"
  | 5 => anyMark ["==", "!="]
  | 6 =>
    any
      [anyMark ["<=", "<"],
        all [mark ">", glued "="],
        all [mark ">", bracketsEnd]]
  | 7 =>
    any
      [mark "<<",
        all [mark ">", glued ">", glued ">", bracketsEnd],
        all [mark ">", glued ">", bracketsEnd]]
  | 8 => anyMark ["+", "-"]
  | _ => anyMark ["*", "/", "%"]

/-- The level of comparisons, which tests of types share. -/
def comparisonLevel : Nat := 6

/-- The part of a type test after the tested operand. -/
def instanceTail : JavaRule :=
  extend .instanceTest (all
    [word "instanceof", opt (word "final"),
      any
        [ifAhead (all [classType [], mark "("]) (call .recordPattern),
          all
            [notWords contextualWords, call .type,
              opt (role .name (identifier ["instanceof", "when"]))]]])

/-- The part of a binary operation after its first operand. -/
def binaryTail (inLabel : Bool) (level : Nat) : JavaRule :=
  extend .binaryOperation (all
    [binaryOperator level, call (.operation inLabel (level + 1))])

/-- An operation of a level or of a tighter one.  After a type test, tighter operators apply to the
test as a whole. -/
def operation (inLabel : Bool) (level : Nat) : JavaRule :=
  if level = comparisonLevel then
    branch (call (.operation inLabel (level + 1)))
      (many (any
        ([binaryTail inLabel level, instanceTail] ++
          ((List.range levels).filter (level < ·)).map (binaryTail inLabel) ++ [updateTail])))
  else if level < levels then
    branch (call (.operation inLabel (level + 1))) (many (binaryTail inLabel level))
  else call (.operand inLabel)

/-- An expression. -/
def expression (inLabel : Bool) : JavaRule :=
  branch (call (.operation inLabel 0))
    (opt (extend .conditional (all
      [mark "?", call (.expression false), mark ":", call (.expression inLabel)])))

end CallPaths.Grammar
