import CallPaths.Grammar.Basic

/-!
# Types

The rules of types and of what declarations share with them: type arguments and parameters, array
dimensions, variable names and parameter lists.
-/

namespace CallPaths.Grammar

open Rule

/-- Dimensions of an array type.  A bracket after them can only be one more of them. -/
def dimensions : JavaRule :=
  node .dimensions (all
    [many1 (all [annotations, mark "[", mark "]"]), unlessAhead (mark "[") empty])

/-- A type argument that stands for any type, within bounds. -/
def wildcard : JavaRule :=
  node .wildcard (all
    [annotations, mark "?",
      opt (any
        [all [word "extends", call .type],
          all [node .superReference (word "super"), call .type]])])

/-- The arguments of a generic type. -/
def typeArguments : JavaRule :=
  node .typeArguments (all [mark "<", list (any [call .type, wildcard]), mark ">"])

/-- The name of a class type, with type arguments anywhere in it.  The words that end it stand after
no dot in it. -/
def classType (ends : List String) : JavaRule :=
  branch (node .typeIdentifier (terminal (.name builtInTypeWords)))
    (many (any
      [extend .scopedType (all
          [mark ".", annotations, node .typeIdentifier (terminal (.name ends))]),
        grow .genericType none [.typeIdentifier, .scopedType] (call .typeArguments)]))

/-- A type that is no array, with words that end its name. -/
def simpleType (ends : List String) : JavaRule :=
  any
    [node .primitiveType (terminal (.oneOf primitiveWords)),
      node .voidType (word "void"),
      classType ends]

/-- A type without annotations in front, with words that end its name. -/
def plainType (ends : List String) : JavaRule :=
  branch (simpleType ends) (opt (extend .arrayType (call .dimensions)))

/-- A type, with words that end its name. -/
def type (ends : List String) : JavaRule :=
  any
    [plainType ends,
      node .annotatedType (all [many1 (call .annotationUse), plainType ends])]

/-- Types with commas between. -/
def typeList : JavaRule :=
  node .typeList (list1 (call .type))

/-- A type parameter with its bounds. -/
def typeParameter : JavaRule :=
  node .typeParameter (all
    [annotations,
      node .typeIdentifier (terminal (.name [])),
      opt (node .typeBound (all
        [word "extends", call .type, many (all [mark "&", call .type])]))])

/-- The parameters of a generic declaration. -/
def typeParameters : JavaRule :=
  node .typeParameters (all [mark "<", list1 typeParameter, mark ">"])

/-! ### Variables and parameters -/

/-- The name of a declared variable, with dimensions after it. -/
def variableName : JavaRule :=
  all [role .name (identifier []), opt (role .dimensions (call .dimensions))]

/-- The value that a variable starts with. -/
def initializer : JavaRule :=
  any [call .arrayInitializer, call (.expression false)]

/-- Values in braces. -/
def arrayInitializer : JavaRule :=
  node .arrayInitializer (all
    [mark "\x7b", list initializer, opt (mark ","), mark "\x7d"])

/-- A declared variable. -/
def variableDeclarator : JavaRule :=
  node .variableDeclarator (all
    [variableName, opt (all [mark "=", role .value initializer])])

/-- Declared variables with commas between. -/
def variableDeclarators : JavaRule :=
  list1 (role .declarator variableDeclarator)

/-- The parameter that stands for the object itself.  Without annotations, the dotted name before
the word `this` starts with none of the words that may also name a parameter. -/
def receiverParameter : JavaRule :=
  let path := many (all [identifier ["this"], mark "."])
  node .receiverParameter (all
    [unlessAhead (all [opt (call .annotationUse), terminal (.oneOf modifierWords)]) empty,
      any
        [all [many1 (call .annotationUse), call .plainType, path],
          all [call .plainType, notWords ("_" :: contextualWords), path]],
      node .selfReference (word "this")])

/-- A parameter; dots after the type make it take any number of arguments. -/
def parameter : JavaRule :=
  branch (all [opt modifiers, role .type (call .plainType)])
    (any
      [extend .spreadParameter (all [mark "...", variableDeclarator]),
        extend .formalParameter variableName])

/-- A parameter list that starts with the object itself, without the opening parenthesis. -/
def receiverFirst : JavaRule :=
  all [receiverParameter, opt (all [mark ",", list parameter]), mark ")"]

/-- An annotated parameter named `this` and further ones, so that the annotations and the further
parameters are odd in number together. -/
def oddReceiver : JavaRule :=
  let self := all [call .plainType, word "this"]
  let further := all [mark ",", parameter]
  any
    [all [oddly (call .annotationUse), self, evenly further, mark ")"],
      all [evenly (call .annotationUse), self, oddly further, mark ")"]]

/-- The parameters of a method.  After annotations, a parameter named `this` is an ordinary one if
it can be, unless there are further ones and the number of these and of the annotations is odd. -/
def formalParameters : JavaRule :=
  node .formalParameters (all
    [mark "(",
      any
        [ifAhead (any [unlessAhead (mark "@") empty, oddReceiver]) receiverFirst,
          all [list parameter, mark ")"],
          receiverFirst]])

/-- The exceptions that a method throws. -/
def throwsClause : JavaRule :=
  node .throws (all [word "throws", list1 (call .type)])

end CallPaths.Grammar
