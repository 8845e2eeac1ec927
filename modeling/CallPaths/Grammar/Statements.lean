import CallPaths.Grammar.Expressions

/-!
# Statements

The rules of blocks, statements, switches and patterns.
-/

namespace CallPaths.Grammar

open Rule

/-! ### Patterns and switches -/

/-- A generic type where a plain name may stand as well. -/
def genericType : JavaRule :=
  all [notWords contextualWords, only [.genericType] (classType [])]

/-- A pattern for a record and its components. -/
def recordPattern : JavaRule :=
  node .recordPattern (all
    [any [genericType, identifier []],
      node .recordPatternBody (all
        [mark "(",
          list (any
            [node .recordPatternComponent (word "_"),
              node .recordPatternComponent (all
                [notWords contextualWords, call .plainType, identifier []]),
              call .recordPattern]),
          mark ")"])])

/-- The beginning of a record pattern up to its first component, which tells it from a call. -/
def recordPatternStart : JavaRule :=
  all
    [any [genericType, identifier expressionWords], mark "(",
      any
        [all [word "_", anyMark [",", ")"]],
          all [notWords contextualWords, call .plainType, identifier []],
          call .recordPatternStart]]

/-- A type and the name of the value that has it. -/
def typePattern : JavaRule :=
  node .typePattern (all
    [notWords expressionTypeExclusions, call .plainType, identifier ["instanceof", "when"]])

/-- A condition that a matched value has to meet. -/
def labelGuard (inLabel : Bool) : JavaRule :=
  node .labelGuard (all [word "when", call (.expression inLabel)])

/-- What a label of a switch matches.  What is a call as well as a pattern is a pattern if a
condition follows or its first component tells, and a call otherwise. -/
def labelBody (inLabel : Bool) : JavaRule :=
  let values := list1 (call (.expression inLabel))
  any
    [all [any [typePattern, call .recordPattern], labelGuard inLabel],
      typePattern,
      ifAhead (call .recordPatternStart) (call .recordPattern),
      ifAhead (all [values, any [anyMark ["->", ":"], word "when"]])
        (all [values, opt (labelGuard inLabel)]),
      call .recordPattern]

/-- A label of a switch.  Either the first arrow ends it, or an arrow may belong to a lambda
expression in it. -/
def switchLabel (inLabel : Bool) : JavaRule :=
  node .switchLabel (any [all [word "case", labelBody inLabel], word "default"])

/-- An expression as a statement. -/
def expressionStatement : JavaRule :=
  node .expressionStatement (all [call (.expression false), mark ";"])

/-- A statement that throws an exception. -/
def throwStatement : JavaRule :=
  node .throwStatement (all [word "throw", call (.expression false), mark ";"])

/-- An arrow and what it leads to. -/
def arrowTail : JavaRule :=
  all
    [mark "->",
      any [call .block, throwStatement, all [notWords ["throw"], expressionStatement]]]

/-- A label before an arrow and a block. -/
def blockRuleAhead : JavaRule :=
  all [switchLabel true, mark "->", ifAhead (mark "\x7b") (call .bracketed)]

/-- A label before an arrow and a block that belong to a lambda expression in it, as neither another
label nor the end of the switch follows. -/
def lambdaLabelAhead : JavaRule :=
  all
    [blockRuleAhead,
      unlessAhead (any [terminal (.oneOf ["case", "default"]), mark "\x7d"]) empty]

/-- A label with an arrow and what it leads to.  The first arrow ends the label if it can. -/
def switchRule : JavaRule :=
  let wide := all [switchLabel false, arrowTail]
  node .switchRule
    (guard lambdaLabelAhead wide
      (any [all [switchLabel true, arrowTail], unlessAhead blockRuleAhead wide]))

/-- Labels with colons and the statements after them. -/
def switchGroup : JavaRule :=
  node .switchGroup (all
    [many1 (any [all [switchLabel true, mark ":"], all [switchLabel false, mark ":"]]),
      many (all [notWords ["case"], call .statement])])

/-- The body of a switch, all with arrows or all with colons. -/
def switchBlock : JavaRule :=
  node .switchBlock (any
    [all [mark "\x7b", many switchRule, mark "\x7d"],
      all [mark "\x7b", many switchGroup, mark "\x7d"]])

/-- A switch, which is an expression as well as a statement. -/
def switchExpression : JavaRule :=
  node .switchExpression (all [word "switch", parenthesized, switchBlock])

/-! ### Local variables -/

/-- The modifiers of a variable or a method, if any, and what follows them, which starts with none
of the first words if there are no modifiers, and with none of the second words if there are. -/
def afterModifiers (plain modified : List String) (r : JavaRule) : JavaRule :=
  any [all [modifiers, notWords modified, r], all [notWords plain, r]]

/-- What follows the modifiers of a statement that declares a variable or a method.  A single
annotation may also belong to a module or a package. -/
def afterStatementModifiers (r : JavaRule) : JavaRule :=
  unlessAhead (all [call .annotationUse, terminal (.oneOf unitWords)])
    (afterModifiers localTypeExclusions typeDeclarationWords r)

/-- The modifiers and the type of a local variable in a block. -/
def localStart : JavaRule :=
  afterStatementModifiers (role .type (call .plainType))

/-- The modifiers and the type of a local variable in parentheses. -/
def variableStart : JavaRule :=
  afterModifiers variableTypeExclusions [] (role .type (call .plainType))

/-- The declaration of local variables with a given start, if they are no expression; otherwise what
another rule reads. -/
def localVariableOr (start other : JavaRule) : JavaRule :=
  guard (all [start, variableName, anyMark ["=", ",", ";"]])
    (node .localVariable (all [start, variableDeclarators, mark ";"]))
    other

/-! ### Statements with bodies -/

/-- A block. -/
def block : JavaRule :=
  node .block (all [mark "\x7b", many (call .statement), mark "\x7d"])

/-- A condition. -/
def ifStatement : JavaRule :=
  node .ifStatement (all
    [word "if", parenthesized, call .statement,
      guard (word "else") (all [word "else", call .statement]) empty])

/-- A loop with its condition in front. -/
def whileStatement : JavaRule :=
  node .whileStatement (all [word "while", parenthesized, call .statement])

/-- A loop with its condition at the end. -/
def doStatement : JavaRule :=
  node .doStatement (all
    [word "do", call .statement, word "while", parenthesized, mark ";"])

/-- A loop over the items of a collection. -/
def enhancedFor : JavaRule :=
  node .enhancedFor (all
    [word "for", mark "(", variableStart, variableName, mark ":", call (.expression false),
      mark ")", call .statement])

/-- A loop with a start, a condition and steps. -/
def forStatement : JavaRule :=
  node .forStatement (all
    [word "for", mark "(",
      localVariableOr variableStart (all [list (call (.expression false)), mark ";"]),
      opt (call (.expression false)), mark ";",
      list (call (.expression false)), mark ")",
      call .statement])

/-- A handler of exceptions. -/
def catchClause : JavaRule :=
  node .catchClause (all
    [word "catch", mark "(",
      node .catchParameter (all
        [opt modifiers,
          node .catchType (separated (mark "|") (call .plainType)),
          variableName]),
      mark ")", call .block])

/-- The part of a `try` statement that always runs. -/
def finallyClause : JavaRule :=
  node .finallyClause (all [word "finally", call .block])

/-- Handlers of exceptions and the part that always runs, any of them. -/
def handlers : JavaRule :=
  all
    [many catchClause, notWords ["catch"], guard (word "finally") finallyClause empty]

/-- A statement with handlers. -/
def tryStatement : JavaRule :=
  node .tryStatement (all
    [word "try", call .block,
      ifAhead (terminal (.oneOf ["catch", "finally"])) handlers])

/-- A resource that is closed at the end: a new variable, or an existing one. -/
def resource : JavaRule :=
  node .resource
    (guard (all [variableStart, variableName, mark "="])
      (all [variableStart, variableName, mark "=", role .value (call (.expression false))])
      (any
        [all
            [identifier (plainModifierWords ++ expressionWords ++ contextualWords),
              unlessAhead (mark ".") empty],
          only [.fieldAccess] (call .primary)]))

/-- A statement with resources. -/
def tryWithResources : JavaRule :=
  node .tryWithResources (all
    [word "try",
      node .resourceList (all
        [mark "(", separated (mark ";") resource, opt (mark ";"), mark ")"]),
      call .block, handlers])

/-- A statement under a lock. -/
def synchronizedStatement : JavaRule :=
  node .synchronizedStatement (all [word "synchronized", parenthesized, call .block])

/-! ### Simple statements -/

/-- A statement with a label. -/
def labeledStatement : JavaRule :=
  node .labeledStatement (all
    [identifier (statementOnlyWords ++ expressionWords ++ contextualWords), mark ":",
      call .statement])

/-- An assertion. -/
def assertStatement : JavaRule :=
  node .assertStatement (all
    [word "assert", call (.expression false),
      opt (all [mark ":", call (.expression false)]), mark ";"])

/-- A jump out of a statement. -/
def breakStatement : JavaRule :=
  node .breakStatement (all [word "break", opt (identifier []), mark ";"])

/-- A jump to the next round of a loop. -/
def continueStatement : JavaRule :=
  node .continueStatement (all [word "continue", opt (identifier []), mark ";"])

/-- A return. -/
def returnStatement : JavaRule :=
  node .returnStatement (all [word "return", opt (call (.expression false)), mark ";"])

/-- The value of a switch. -/
def yieldStatement : JavaRule :=
  node .yieldStatement (all [word "yield", call (.expression false), mark ";"])

/-- The word `yield` before an operand, which cannot be a name. -/
def yieldAhead : JavaRule :=
  all [word "yield", any [operandStart false, anyMark ["+", "-", "++", "--"]]]

/-- What makes a switch at the start of a statement the first operand of an expression. -/
def switchContinuation : JavaRule :=
  any
    [anyMark
        [";", "||", "&&", "|", "^", "&", "==", "!=", "<", "<=", ">", "<<", "*", "/", "%", "?"],
      word "instanceof",
      all
        [anyMark ["++", "--"],
          unlessAhead (any [operandStart false, anyMark ["+", "-", "++", "--"]]) empty]]

/-- A switch at the start of a statement. -/
def switchStatement : JavaRule :=
  ifAhead (word "switch")
    (guard (all [word "switch", call .bracketed, call .bracketed, switchContinuation])
      expressionStatement (call .switchExpression))

end CallPaths.Grammar
