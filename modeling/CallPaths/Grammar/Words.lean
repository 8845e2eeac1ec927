/-!
# Words with a meaning of their own

Java reserves few words everywhere: a word is a keyword where the keyword could stand, and a name
elsewhere.  The lists here are the words that are no names at certain places.
-/

namespace CallPaths.Grammar

/-- The names of the primitive types. -/
def primitiveWords : List String :=
  ["byte", "short", "int", "long", "char", "float", "double", "boolean"]

/-- The words that name a type by themselves. -/
def builtInTypeWords : List String :=
  "void" :: primitiveWords

/-- The modifiers of declarations that are no names where a modifier may stand. -/
def plainModifierWords : List String :=
  ["public", "protected", "private", "abstract", "static", "final", "strictfp", "default",
    "synchronized", "native", "transient", "volatile"]

/-- The modifiers of declarations. -/
def modifierWords : List String :=
  plainModifierWords ++ ["sealed"]

/-- The words that start an expression and name no type. -/
def operandWords : List String :=
  ["new", "this", "super", "switch", "true", "false", "null"]

/-- The words that are no names at the start of an expression. -/
def expressionWords : List String :=
  operandWords ++ builtInTypeWords

/-- The words that are no names after a dot in an expression. -/
def memberWords : List String :=
  ["this", "super", "new"]

/-- The words that end the dotted name of a type in an expression. -/
def typePathEnds : List String :=
  memberWords ++ ["class"]

/-- Words that may be names, and are no type names where an expression may start. -/
def contextualWords : List String :=
  ["open", "module", "record", "with", "yield", "sealed"]

/-- The words that start the declaration of a type where a record may be none. -/
def plainTypeDeclarationWords : List String :=
  ["class", "interface", "enum"]

/-- The words that start the declaration of a type, also as a member of another type. -/
def typeDeclarationWords : List String :=
  plainTypeDeclarationWords ++ ["record"]

/-- The words that start the declaration of a module or a package. -/
def unitWords : List String :=
  ["open", "module", "package"]

/-- The words that start a statement, and start no expression. -/
def statementOnlyWords : List String :=
  plainTypeDeclarationWords ++ plainModifierWords ++
    ["assert", "break", "continue", "do", "for", "if", "import", "package", "return", "throw",
      "try", "while"]

/-- The words that are no type names where an expression may start. -/
def expressionTypeExclusions : List String :=
  operandWords ++ contextualWords

/-- The words that are no type names where an expression or a modifier may start. -/
def variableTypeExclusions : List String :=
  plainModifierWords ++ expressionTypeExclusions

/-- The words that are no type names at the start of a statement. -/
def localTypeExclusions : List String :=
  statementOnlyWords ++ expressionTypeExclusions

end CallPaths.Grammar
