import CallPaths.ParseTree
import CallPaths.Source

/-!
# Declarations of a parse tree

`CompilationUnit.ofTree` reads the declarations that an analysis needs off the parse tree of a
source text.  Types are those directly in the compilation unit and the types nested in their bodies;
types declared inside methods are not listed, but the calls and variables in them belong to the
method.

A comment counts as a part of the node around it: where the first part of a node is asked for, that
may be a comment.
-/

namespace CallPaths

open Text

namespace ParseTree

/-! ### Lines -/

/-- The rows from one to another, joined by line feeds; rows after the last one are left out. -/
def rowsText (rows : List String) (first last : Nat) : String :=
  let last := min last (rows.length - 1)
  if last < first then "" else joinWith "\n" ((rows.drop first).take (last + 1 - first))

/-- The whole lines that a node stands on. -/
def lineText (rows : List String) (t : ParseTree) : String :=
  rowsText rows t.firstRow t.lastRow

/-- The lines of a node, counted from one. -/
def lineRange (t : ParseTree) : LineRange :=
  ⟨t.firstRow + 1, t.lastRow + 1⟩

/-- The largest number of rows from the end of a comment to the start of what it belongs to. -/
def commentWindow : Nat := 3

/-- The lines of the comments that belong to what starts on a row, the last comment first.  The
trees before it are given from the last one on; each comment has to end near the start of the next
one. -/
def commentsBefore (rows : List String) : Nat → List ParseTree → List String
  | _, [] => []
  | row, t :: before =>
    if t.isComment && row - t.lastRow ≤ commentWindow then
      trim (t.lineText rows) :: commentsBefore rows t.firstRow before
    else []

/-- The comments right before a node, whose preceding siblings are given from the last one on. -/
def leadingComments (rows : List String) (before : List ParseTree) (t : ParseTree) :
    Option String :=
  match (commentsBefore rows t.firstRow before).reverse with
  | [] => none
  | comments => some (joinWith "\n" comments)

/-! ### Variables and parameters -/

/-- The type of a variable declared as `var`: that of the created object if it starts with one. -/
def inferredType (declarator : ParseTree) : String :=
  match declarator.child? .value with
  | some value =>
    if value.isKind .objectCreation then
      ((value.child? .type).map compactText).getD "var"
    else "var"
  | none => "var"

/-- The text of the dimensions after a name. -/
def dimensionsText (t : ParseTree) : String :=
  ((t.child? .dimensions).map compactText).getD ""

/-- The variable of a declarator whose declaration gives a type. -/
def declaratorVariable? (declared : String) (declarator : ParseTree) : Option Variable :=
  (declarator.child? .name).map fun name =>
    { name := name.text
      typeName :=
        (if declared = "var" then inferredType declarator else declared) ++
          declarator.dimensionsText }

/-- The variables of a declaration. -/
def declaredVariables (t : ParseTree) : List Variable :=
  match t.child? .type with
  | none => []
  | some type =>
    (t.children.filter fun c => c.role? = some .declarator).filterMap
      (declaratorVariable? type.compactText)

/-- A parameter with a type and a name. -/
def formalParameter (t : ParseTree) : Parameter where
  name := ((t.child? .name).map text).getD ""
  typeName := ((t.child? .type).map compactText).getD "" ++ t.dimensionsText
  varargs := false

/-- A parameter that takes any number of arguments.  Its type is its first part that is neither
modifiers nor the declared name and that has a text. -/
def spreadParameter (t : ParseTree) : Parameter where
  name :=
    (((t.nodes.filter (isKind .variableDeclarator)).filterMap (·.child? .name)).getLast?.map
      text).getD ""
  typeName :=
    (((t.nodes.filter fun c => !c.isKind .modifiers && !c.isKind .variableDeclarator).map
      compactText).find? (· ≠ "")).getD ""
  varargs := true

/-- The parameter that a part of a parameter list declares. -/
def parameter? (t : ParseTree) : Option Parameter :=
  match t.kind? with
  | some .formalParameter => some t.formalParameter
  | some .spreadParameter => some t.spreadParameter
  | _ => none

/-! ### Calls -/

/-- The names of a chain of field accesses, and whether it starts at the object itself. -/
def fieldPath? : ParseTree → Option (Bool × List String)
  | leaf _ => none
  | node .identifier _ cs => some (false, [String.join ((tokensAll cs).map (·.text))])
  | node .selfReference _ _ => some (true, [])
  | node .fieldAccess _ cs =>
    match objectPath? cs, cs.find? fun c => c.role? = some .member with
    | some (fromSelf, path), some member => some (fromSelf, path ++ [member.text])
    | _, _ => none
  | node _ _ _ => none
where
  /-- The names of the object among the parts of a field access. -/
  objectPath? : List ParseTree → Option (Bool × List String)
    | [] => none
    | c :: cs => if c.role? = some .object then fieldPath? c else objectPath? cs

/-- The type that a node gives for itself. -/
def ownType? (t : ParseTree) : Option String :=
  (t.child? .type).map compactText

/-- The receiver that an object expression makes. -/
def receiver : ParseTree → Receiver
  | leaf _ => .unresolvable
  | node .selfReference _ _ => .self
  | node .superReference _ _ => .parent
  | node .identifier r cs => .path [text (node .identifier r cs)]
  | node .fieldAccess r cs =>
    match fieldPath? (node .fieldAccess r cs) with
    | some (true, [field]) => .selfField field
    | some (_, path) => .path path
    | none => .unresolvable
  | node .objectCreation r cs =>
    ((ownType? (node .objectCreation r cs)).map .typed).getD .unresolvable
  | node .parenthesized _ cs => firstReceiver cs
  | node _ _ _ => .unresolvable
where
  /-- The receiver that the first node in parentheses makes. -/
  firstReceiver : List ParseTree → Receiver
    | [] => .unresolvable
    | leaf _ :: cs => firstReceiver cs
    | node .cast r cs :: _ => ((ownType? (node .cast r cs)).map .typed).getD .unresolvable
    | node k r cs :: _ => receiver (node k r cs)

/-- Whether a text ends with one of two characters. -/
def endsWithEither (a b : Char) (s : String) : Bool :=
  match s.toList.getLast? with
  | some c => c = a || c = b
  | none => false

/-- What an argument tells of its type. -/
def argumentHint (t : ParseTree) : ArgumentHint :=
  match t.kind? with
  | some .integerLiteral => .literal (if endsWithEither 'l' 'L' t.text then "long" else "int")
  | some .floatingLiteral => .literal (if endsWithEither 'f' 'F' t.text then "float" else "double")
  | some .stringLiteral => .literal "java.lang.String"
  | some .characterLiteral => .literal "char"
  | some .booleanLiteral => .literal "boolean"
  | some .identifier => .variable t.text
  | some .objectCreation => (t.ownType?.map .typed).getD .unknown
  | some .cast => (t.ownType?.map .typed).getD .unknown
  | _ => .unknown

/-- The arguments in a call. -/
def argumentHints (t : ParseTree) : List ArgumentHint :=
  match t.child? .arguments with
  | some list => (list.nodes.filter fun c => !c.isComment).map argumentHint
  | none => []

/-- The call that a node makes. -/
def callSite? (t : ParseTree) : Option CallSite :=
  if t.isKind .methodInvocation then
    (t.child? .name).map fun name =>
      { receiver := ((t.child? .object).map receiver).getD .implicit
        name := name.text
        arguments := t.argumentHints
        line := t.firstRow + 1 }
  else none

/-- The variable of a node that names a single one. -/
def singleVariable (type name : Option ParseTree) : List Variable :=
  match type, name with
  | some type, some name => [⟨name.text, type.compactText⟩]
  | _, _ => []

/-- The local variables that a node declares. -/
def localVariables (t : ParseTree) : List Variable :=
  match t.kind? with
  | some .localVariable => t.declaredVariables
  | some .enhancedFor | some .resource => singleVariable (t.child? .type) (t.child? .name)
  | some .catchParameter =>
    singleVariable ((t.childOfKind? .catchType).bind (·.nodes.head?)) (t.child? .name)
  | _ => []

/-! ### Members and types -/

/-- The declaration of a method, whose preceding siblings are given from the last one on. -/
def method? (rows : List String) (before : List ParseTree) (t : ParseTree) :
    Option MethodDecl :=
  (t.child? .name).map fun name =>
    let body := t.child? .body
    let inside := (body.map preorder).getD []
    { name := name.text
      parameters := ((t.child? .parameters).map fun p => p.nodes.filterMap parameter?).getD []
      lineRange := t.lineRange
      source := t.lineText rows
      body := body.map (·.lineText rows)
      comments := t.leadingComments rows before
      locals := inside.flatMap localVariables
      calls := inside.filterMap callSite? }

/-- The trees of a list, each with those before it from the last one on. -/
def withPreceding : List ParseTree → List ParseTree → List (List ParseTree × ParseTree)
  | _, [] => []
  | before, t :: ts => (before, t) :: withPreceding (t :: before) ts

/-- The members of a body with their preceding siblings.  The members of an enum stand in a node of
their own. -/
def members (body : ParseTree) : List (List ParseTree × ParseTree) :=
  (withPreceding [] body.children).flatMap fun (before, t) =>
    if t.isKind .enumBodyDeclarations then withPreceding [] t.children else [(before, t)]

/-- Whether a node declares fields. -/
def declaresFields (t : ParseTree) : Bool :=
  t.isKind .fieldDeclaration || t.isKind .constantDeclaration

/-- The kind of type that a node of a kind declares. -/
def typeKind? : NodeKind → Option TypeKind
  | .classDeclaration | .recordDeclaration => some .classDecl
  | .interfaceDeclaration => some .interfaceDecl
  | .enumDeclaration => some .enumDecl
  | _ => none

/-- The types that a node lists. -/
def listedTypes (t : ParseTree) : List String :=
  (((t.childOfKind? .typeList).getD t).nodes.filter fun c => !c.isComment).map compactText

/-- The interfaces that a type declaration lists. -/
def listedInterfaces (kind : TypeKind) (t : ParseTree) : List String :=
  let clause :=
    if kind = .interfaceDecl then t.childOfKind? .extendsInterfaces else t.child? .interfaces
  (clause.map listedTypes).getD []

/-- The declaration of a type, without the types nested in it. -/
def typeDecl (rows : List String) (kind : TypeKind) (name : String) (t : ParseTree) :
    TypeDecl :=
  let members := ((t.child? .body).map members).getD []
  { name, kind
    superclass := ((t.child? .superclass).bind (·.nodes.head?)).map compactText
    interfaces := t.listedInterfaces kind
    fields := (members.filter (·.2.declaresFields)).flatMap (·.2.declaredVariables)
    methods := (members.filter (·.2.isKind .methodDeclaration)).filterMap fun (before, m) =>
      m.method? rows before
    lineRange := t.lineRange }

/-- A name inside an outer type. -/
def nestedName (outer : Option String) (name : String) : String :=
  match outer with
  | some outer => outer ++ "." ++ name
  | none => name

/-- The name that the parts of a declaration give. -/
def declaredName? (parts : List ParseTree) : Option String :=
  (parts.find? fun c => c.role? = some .name).map text

mutual

/-- The types that a node declares: one and those nested in it, each before its own. -/
def typeDecls (rows : List String) (outer : Option String) : ParseTree → List TypeDecl
  | leaf _ => []
  | node k r cs =>
    match typeKind? k, declaredName? cs with
    | some kind, some name =>
      let name := nestedName outer name
      typeDecl rows kind name (node k r cs) :: bodyTypes rows name cs
    | _, _ => []

/-- The types declared in the body among the parts of a type declaration. -/
def bodyTypes (rows : List String) (outer : String) : List ParseTree → List TypeDecl
  | [] => []
  | leaf _ :: cs => bodyTypes rows outer cs
  | node _ r body :: cs =>
    if r = some .body then memberTypes rows outer body else bodyTypes rows outer cs

/-- The types among the members of a body.  The members of an enum stand in a node of their own. -/
def memberTypes (rows : List String) (outer : String) : List ParseTree → List TypeDecl
  | [] => []
  | leaf _ :: cs => memberTypes rows outer cs
  | node k r inner :: cs =>
    (if k = .enumBodyDeclarations then nestedTypes rows outer inner
      else typeDecls rows (some outer) (node k r inner)) ++ memberTypes rows outer cs

/-- The types that some nodes declare inside an outer type. -/
def nestedTypes (rows : List String) (outer : String) : List ParseTree → List TypeDecl
  | [] => []
  | c :: cs => typeDecls rows (some outer) c ++ nestedTypes rows outer cs

end

/-! ### Compilation units -/

/-- The package that a declaration names. -/
def packageName? (t : ParseTree) : Option String :=
  (t.nodes.find? fun c => c.isKind .identifier || c.isKind .scopedIdentifier).map compactText

/-- Whether a tree is a given word. -/
def isWord (s : String) : ParseTree → Bool
  | leaf t => t.text = s
  | node _ _ _ => false

/-- The import that a declaration makes. -/
def import? (t : ParseTree) : Option Import :=
  ((t.nodes.filter fun c => c.isKind .identifier || c.isKind .scopedIdentifier).getLast?).map
    fun path =>
      { path := path.compactText
        isStatic := t.children.any (isWord "static")
        onDemand := t.nodes.any (isKind .asterisk) }

end ParseTree

namespace CompilationUnit

open ParseTree

/-- The declarations of the parse tree of a source text, whose lines are given.  Of several packages
the last one counts. -/
def ofTree (rows : List String) (root : ParseTree) : CompilationUnit where
  package := ((root.nodes.filter (isKind .packageDeclaration)).getLast?).bind packageName?
  imports := (root.nodes.filter (isKind .importDeclaration)).filterMap import?
  types := root.nodes.flatMap (typeDecls rows none)

end CompilationUnit

end CallPaths
