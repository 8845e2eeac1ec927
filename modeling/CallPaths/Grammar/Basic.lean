import CallPaths.Grammar.Rule
import CallPaths.Grammar.Words

/-!
# Symbols of the Java grammar

The symbols are the rules that refer to each other; rules that are used inside others only are plain
definitions.  This file also holds what all parts of the grammar share: names and annotations.
-/

namespace CallPaths.Grammar

open Rule

/-- The symbols of the grammar. -/
inductive Symbol where
  | annotationUse
  | elementValue
  | type
  /-- A type without annotations in front. -/
  | plainType
  | typeArguments
  | dimensions
  /-- An expression; in a label of a switch an arrow does not belong to it. -/
  | expression (inLabel : Bool)
  /-- An operation of a binary operator of a level or of a tighter one. -/
  | operation (inLabel : Bool) (level : Nat)
  | operand (inLabel : Bool)
  /-- An operand without operators after it. -/
  | prefixed (inLabel : Bool)
  | primary
  | argumentList
  | arrayInitializer
  | switchExpression
  | recordPattern
  /-- The beginning of a record pattern, as far as it tells a pattern from a call. -/
  | recordPatternStart
  | formalParameters
  | block
  | statement
  | classBody
  | interfaceBody
  | annotationTypeBody
  /-- The declaration of a type, after its modifiers. -/
  | typeDeclaration
  /-- Any tokens in matching brackets. -/
  | bracketed
deriving DecidableEq, Repr, Inhabited

/-- Rules of this grammar. -/
abbrev JavaRule := Rule Symbol

/-- A name that is none of the reserved words. -/
def identifier (reserved : List String) : JavaRule :=
  node .identifier (terminal (.name reserved))

/-- A dotted name whose first part is none of the reserved words. -/
def qualifiedName (reserved : List String) : JavaRule :=
  branch (identifier reserved)
    (many (extend .scopedIdentifier (all [mark ".", identifier []])))

/-- Any tokens in matching brackets, for looking ahead. -/
def bracketed : JavaRule :=
  let inside := many (any [call .bracketed, terminal .inner])
  any
    [all [mark "(", inside, mark ")"],
      all [mark "[", inside, mark "]"],
      all [mark "\x7b", inside, mark "\x7d"]]

/-- Any number of annotations. -/
def annotations : JavaRule := many (call .annotationUse)

/-- A key and its value in an annotation. -/
def elementPair : JavaRule :=
  node .elementPair (all [identifier [], mark "=", call .elementValue])

/-- The arguments of an annotation: pairs, or a single value. -/
def annotationArguments : JavaRule :=
  node .annotationArguments (all
    [mark "(",
      guard (all [identifier (expressionWords ++ contextualWords), mark "="])
        (list1 elementPair) (opt (call .elementValue)),
      mark ")"])

/-- An annotation. -/
def annotationUse : JavaRule :=
  node .annotationUse (all [mark "@", qualifiedName [], opt annotationArguments])

/-- Several values in an annotation. -/
def elementArray : JavaRule :=
  node .elementArray (all
    [mark "\x7b", list (call .elementValue), opt (mark ","), mark "\x7d"])

/-- A value in an annotation. -/
def elementValue : JavaRule :=
  any [call .annotationUse, elementArray, call (.expression false)]

/-- The modifiers of a declaration, annotations included. -/
def modifiers : JavaRule :=
  node .modifiers (many1 (any
    [call .annotationUse,
      all [word "non", glued "-", glued "sealed"],
      terminal (.oneOf modifierWords)]))

end CallPaths.Grammar
