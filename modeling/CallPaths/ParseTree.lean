import CallPaths.Text.Blank
import CallPaths.Token.Basic

/-!
# Parse trees

A parse tree has the tokens of a source as its leaves.  A node has a kind and may have a role in the
node above it.  Comments are nodes of their own, wherever they stand between the tokens of a node.
-/

namespace CallPaths

/-- The kinds of nodes. -/
inductive NodeKind where
  | compilationUnit
  | comment
  -- literals and names
  | integerLiteral | floatingLiteral | characterLiteral | stringLiteral | booleanLiteral
  | nullLiteral | identifier | typeIdentifier | scopedIdentifier | asterisk
  -- expressions
  | selfReference | superReference | parenthesized | assignment | binaryOperation
  | instanceTest | lambda | inferredParameters | conditional | updateOperation
  | unaryOperation | cast | switchExpression | objectCreation | arrayCreation
  | arrayDimension | fieldAccess | arrayAccess | methodInvocation | methodReference
  | templateExpression | classLiteral | argumentList | arrayInitializer
  -- switches and patterns
  | switchBlock | switchGroup | switchRule | switchLabel | typePattern | recordPattern
  | recordPatternBody | recordPatternComponent | labelGuard
  -- types
  | primitiveType | voidType | scopedType | genericType | arrayType | annotatedType
  | typeArguments | wildcard | dimensions | typeParameters | typeParameter | typeBound
  | typeList
  -- statements
  | block | expressionStatement | labeledStatement | assertStatement | doStatement
  | breakStatement | continueStatement | returnStatement | yieldStatement
  | synchronizedStatement | throwStatement | tryStatement | tryWithResources | resourceList
  | resource | catchClause | catchParameter | catchType | finallyClause | ifStatement
  | whileStatement | forStatement | enhancedFor | localVariable
  -- annotations
  | annotationUse | annotationArguments | elementPair | elementArray
  -- declarations
  | moduleDeclaration | moduleBody | moduleDirective | packageDeclaration | importDeclaration
  | classDeclaration | interfaceDeclaration | enumDeclaration | recordDeclaration
  | annotationTypeDeclaration | modifiers | superclass | superInterfaces
  | extendsInterfaces | permits | classBody | interfaceBody | enumBody | enumConstant
  | enumBodyDeclarations | annotationTypeBody | annotationElement | fieldDeclaration
  | constantDeclaration | variableDeclarator | methodDeclaration | constructorDeclaration
  | compactConstructor | constructorBody | constructorCall | staticInitializer
  | formalParameters | formalParameter | spreadParameter | receiverParameter | throws
deriving DecidableEq, Repr, Inhabited

/-- The roles of nodes in the nodes above them. -/
inductive Role where
  | name | type | dimensions | value | declarator | parameters | body | superclass | interfaces
  | object | arguments | member
deriving DecidableEq, Repr, Inhabited

/-- A parse tree. -/
inductive ParseTree where
  | leaf (token : Token)
  | node (kind : NodeKind) (role : Option Role) (children : List ParseTree)
deriving Repr, Inhabited

namespace ParseTree

/-- The comment of a token. -/
def ofComment (t : Token) : ParseTree :=
  node .comment none [leaf t]

/-- The kind of a node; a leaf has none. -/
def kind? : ParseTree → Option NodeKind
  | leaf _ => none
  | node k _ _ => some k

/-- Whether a tree is a node of a kind. -/
def isKind (k : NodeKind) (t : ParseTree) : Bool :=
  t.kind? = some k

/-- Whether a tree is a comment. -/
def isComment (t : ParseTree) : Bool :=
  t.isKind .comment

/-- The role of a node. -/
def role? : ParseTree → Option Role
  | leaf _ => none
  | node _ r _ => r

/-- The trees directly below a node. -/
def children : ParseTree → List ParseTree
  | leaf _ => []
  | node _ _ cs => cs

/-- Whether a tree is a node. -/
def isNode (t : ParseTree) : Bool :=
  t.kind?.isSome

/-- The nodes directly below a node, comments included. -/
def nodes (t : ParseTree) : List ParseTree :=
  t.children.filter isNode

/-- The first node below with a role. -/
def child? (t : ParseTree) (r : Role) : Option ParseTree :=
  t.children.find? fun c => c.role? = some r

/-- The first node below of a kind. -/
def childOfKind? (t : ParseTree) (k : NodeKind) : Option ParseTree :=
  t.children.find? (isKind k)

/-- Gives a node a role; comments and leaves have none. -/
def withRole (r : Role) : ParseTree → ParseTree
  | leaf t => leaf t
  | node .comment old cs => node .comment old cs
  | node k _ cs => node k (some r) cs

/-- Puts trees under a node.  Comments before the first other tree stay outside, in front of the
node. -/
def enclose (k : NodeKind) (items : List ParseTree) : List ParseTree :=
  items.takeWhile isComment ++ [node k none (items.dropWhile isComment)]

mutual

/-- The tokens of a tree from left to right. -/
def tokens : ParseTree → List Token
  | leaf t => [t]
  | node _ _ cs => tokensAll cs

/-- The tokens of several trees from left to right. -/
def tokensAll : List ParseTree → List Token
  | [] => []
  | t :: ts => tokens t ++ tokensAll ts

end

mutual

/-- The nodes of a tree in pre-order. -/
def preorder : ParseTree → List ParseTree
  | leaf _ => []
  | node k r cs => node k r cs :: preorderAll cs

/-- The nodes of several trees in pre-order. -/
def preorderAll : List ParseTree → List ParseTree
  | [] => []
  | t :: ts => preorder t ++ preorderAll ts

end

/-- The text of the tokens, without the white space between them. -/
def text (t : ParseTree) : String :=
  String.join (t.tokens.map (·.text))

/-- The text without any blank. -/
def compactText (t : ParseTree) : String :=
  Text.removeBlanks t.text

/-- The row of the first token. -/
def firstRow (t : ParseTree) : Nat :=
  (t.tokens.head?.map (·.firstRow)).getD 0

/-- The row of the last token. -/
def lastRow (t : ParseTree) : Nat :=
  (t.tokens.getLast?.map (·.lastRow)).getD 0

end ParseTree

end CallPaths
