import CallPaths.Grammar.Statements

/-!
# Declarations

The rules of modules, packages, imports, types and their members, and of the compilation unit.
Statements and methods may stand outside of all types.
-/

namespace CallPaths.Grammar

open Rule

/-! ### Packages, imports and modules -/

/-- The package of a compilation unit. -/
def packageDeclaration : JavaRule :=
  node .packageDeclaration (all
    [annotations, word "package", qualifiedName [], mark ";"])

/-- An import. -/
def importDeclaration : JavaRule :=
  node .importDeclaration (all
    [word "import", opt (word "static"), qualifiedName [],
      opt (all [mark ".", node .asterisk (mark "*")]), mark ";"])

/-- Names with commas between, after a word. -/
def namesAfter (text : String) : JavaRule :=
  all [word text, list1 (qualifiedName [])]

/-- A directive of a module. -/
def moduleDirective : JavaRule :=
  node .moduleDirective (all
    [any
        [all
            [word "requires",
              many (all
                [terminal (.oneOf ["transitive", "static"]), unlessAhead (mark ";") empty]),
              qualifiedName []],
          all
            [terminal (.oneOf ["exports", "opens"]), qualifiedName [], opt (namesAfter "to")],
          all [word "uses", qualifiedName []],
          all [word "provides", qualifiedName [], namesAfter "with"]],
      mark ";"])

/-- A module. -/
def moduleDeclaration : JavaRule :=
  node .moduleDeclaration (all
    [annotations, opt (word "open"), word "module", qualifiedName [],
      node .moduleBody (all [mark "\x7b", many moduleDirective, mark "\x7d"])])

/-! ### Types -/

/-- The name of a declared type. -/
def declaredName : JavaRule :=
  role .name (identifier [])

/-- The interfaces that a type implements. -/
def superInterfaces : JavaRule :=
  role .interfaces (node .superInterfaces (all [word "implements", typeList]))

/-- The types that may extend a type. -/
def permits : JavaRule :=
  node .permits (all [word "permits", typeList])

/-- A class, after its modifiers. -/
def classTail : JavaRule :=
  extend .classDeclaration (all
    [word "class", declaredName, opt typeParameters,
      opt (role .superclass (node .superclass (all [word "extends", call .type]))),
      opt superInterfaces, opt permits, role .body (call .classBody)])

/-- An interface, after its modifiers. -/
def interfaceTail : JavaRule :=
  extend .interfaceDeclaration (all
    [word "interface", declaredName, opt typeParameters,
      opt (node .extendsInterfaces (all [word "extends", typeList])),
      opt permits, role .body (call .interfaceBody)])

/-- A constant of an enum. -/
def enumConstant : JavaRule :=
  node .enumConstant (all
    [opt modifiers, role .name (identifier []), opt (role .arguments (call .argumentList)),
      opt (role .body (call .classBody))])

/-- A record, after its modifiers. -/
def recordTail : JavaRule :=
  extend .recordDeclaration (all
    [word "record", declaredName, opt typeParameters,
      role .parameters (call .formalParameters), opt superInterfaces,
      role .body (call .classBody)])

/-- An annotation type, after its modifiers. -/
def annotationTypeTail : JavaRule :=
  extend .annotationTypeDeclaration (all
    [mark "@interface", declaredName, role .body (call .annotationTypeBody)])

/-! ### Members -/

/-- The type and the name of a method, after its modifiers.  A lone underscore names no method, but
for a generic one. -/
def methodStart : JavaRule :=
  any
    [all [typeParameters, annotations, role .type (call .plainType), role .name (identifier [])],
      all [role .type (call .plainType), role .name (identifier ["_"])]]

/-- A method, after its modifiers. -/
def methodTail : JavaRule :=
  extend .methodDeclaration (all
    [methodStart, role .parameters (call .formalParameters), opt (call .dimensions),
      opt throwsClause, any [role .body (call .block), mark ";"]])

/-- The start of a method, as far as it tells a method from a field. -/
def methodAhead : JavaRule :=
  all [methodStart, mark "("]

/-- A call of another constructor. -/
def constructorCall : JavaRule :=
  node .constructorCall (all
    [any
        [all [opt (call .typeArguments), any [selfReference, superReference], call .argumentList],
          all
            [call .primary, mark ".", opt (call .typeArguments), superReference,
              call .argumentList]],
      mark ";"])

/-- A constructor, after its modifiers. -/
def constructorTail : JavaRule :=
  extend .constructorDeclaration (all
    [opt typeParameters, declaredName, call .formalParameters, opt throwsClause,
      node .constructorBody (all
        [mark "\x7b", opt constructorCall, many (call .statement), mark "\x7d"])])

/-- A constructor of a record without parameters of its own, after its modifiers. -/
def compactConstructorTail : JavaRule :=
  extend .compactConstructor (all [declaredName, call .block])

/-- Variables of a type, after their modifiers. -/
def variablesTail (k : NodeKind) : JavaRule :=
  extend k (all [role .type (call .plainType), variableDeclarators, mark ";"])

/-- Fits if no word that starts the declaration of a type is next. -/
def noTypeDeclaration : JavaRule :=
  notWords typeDeclarationWords

/-- A member of a class. -/
def classMember : JavaRule :=
  any
    [mark ";",
      call .block,
      node .staticInitializer (all [word "static", call .block]),
      branch (opt modifiers) (any
        [call .typeDeclaration,
          all [noTypeDeclaration,
            guard (all [opt typeParameters, identifier builtInTypeWords, mark "("])
              constructorTail
              (guard (all [identifier builtInTypeWords, mark "\x7b"]) compactConstructorTail
                (guard methodAhead methodTail (variablesTail .fieldDeclaration)))]])]

/-- The body of a class. -/
def classBody : JavaRule :=
  node .classBody (all [mark "\x7b", many classMember, mark "\x7d"])

/-- The body of an enum: constants, then members. -/
def enumBody : JavaRule :=
  node .enumBody (all
    [mark "\x7b", list enumConstant, opt (mark ","),
      opt (node .enumBodyDeclarations (all [mark ";", many classMember])),
      mark "\x7d"])

/-- An enum, after its modifiers. -/
def enumTail : JavaRule :=
  extend .enumDeclaration (all
    [word "enum", declaredName, opt superInterfaces, role .body enumBody])

/-- A type, after its modifiers. -/
def typeDeclaration : JavaRule :=
  any
    [classTail, interfaceTail, enumTail, annotationTypeTail,
      ifAhead (all [word "record", identifier [], anyMark ["(", "<"]]) recordTail]

/-- The body of an interface. -/
def interfaceBody : JavaRule :=
  node .interfaceBody (all
    [mark "\x7b",
      many (any
        [mark ";",
          branch (opt modifiers) (any
            [call .typeDeclaration,
              all [noTypeDeclaration,
                guard methodAhead methodTail (variablesTail .constantDeclaration)]])]),
      mark "\x7d"])

/-- An element of an annotation type, after its modifiers. -/
def annotationElementTail : JavaRule :=
  extend .annotationElement (all
    [role .type (call .plainType), role .name (identifier ["_"]), mark "(", mark ")",
      opt (call .dimensions),
      opt (all [word "default", call .elementValue]), mark ";"])

/-- The body of an annotation type. -/
def annotationTypeBody : JavaRule :=
  node .annotationTypeBody (all
    [mark "\x7b",
      many (any
        [mark ";",
          branch (opt modifiers) (any
            [all [notWords ["record"], call .typeDeclaration],
              all [notWords plainTypeDeclarationWords,
                guard methodAhead annotationElementTail
                  (variablesTail .constantDeclaration)]])]),
      mark "\x7d"])

/-! ### Statements and the compilation unit -/

/-- A declaration that may stand where a statement may. -/
def declarationStatement : JavaRule :=
  any
    [packageDeclaration,
      importDeclaration,
      ifAhead (all [annotations, opt (word "open"), word "module", identifier []])
        moduleDeclaration,
      branch (opt modifiers) (call .typeDeclaration)]

/-- A statement. -/
def statement : JavaRule :=
  any
    [mark ";", call .block, ifStatement, whileStatement, doStatement,
      ifAhead (word "for") (any [enhancedFor, forStatement]),
      assertStatement, breakStatement, continueStatement, returnStatement, throwStatement,
      tryStatement, tryWithResources, synchronizedStatement, yieldStatement,
      switchStatement,
      labeledStatement,
      declarationStatement,
      localVariableOr localStart
        (all
          [notWords ("switch" :: statementOnlyWords), unlessAhead yieldAhead empty,
            expressionStatement])]

/-- The start of a method outside of all types. -/
def looseMethodAhead : JavaRule :=
  afterStatementModifiers methodAhead

/-- The parts of a whole source text, with its end. -/
def compilationUnit : JavaRule :=
  all
    [many (any
        [ifAhead looseMethodAhead (branch (opt modifiers) methodTail), call .statement]),
      terminal (.kind .finish)]

/-! ### The table of rules -/

/-- The rule of a symbol. -/
def production : Symbol → JavaRule
  | .annotationUse => annotationUse
  | .elementValue => elementValue
  | .type => type []
  | .plainType => plainType []
  | .typeArguments => typeArguments
  | .dimensions => dimensions
  | .expression inLabel => expression inLabel
  | .operation inLabel level => operation inLabel level
  | .operand inLabel => operand inLabel
  | .prefixed inLabel => prefixedOperand inLabel
  | .primary => primary
  | .argumentList => argumentList
  | .arrayInitializer => arrayInitializer
  | .switchExpression => switchExpression
  | .recordPattern => recordPattern
  | .recordPatternStart => recordPatternStart
  | .formalParameters => formalParameters
  | .block => block
  | .statement => statement
  | .classBody => classBody
  | .interfaceBody => interfaceBody
  | .annotationTypeBody => annotationTypeBody
  | .typeDeclaration => typeDeclaration
  | .bracketed => bracketed

/-- The depth of rules that reading a list of tokens may need.  Between two tokens the rules go
through the levels of operators a few times at most. -/
def depthFor (tokens : List Token) : Nat :=
  400 * (tokens.length + 1)

/-- The parse tree of a list of tokens; none if the grammar does not derive it. -/
def parse? (tokens : List Token) : Option ParseTree :=
  match Rule.read production (depthFor tokens) compilationUnit [] tokens with
  | some (trees, []) => some (.node .compilationUnit none trees)
  | _ => none

end CallPaths.Grammar
