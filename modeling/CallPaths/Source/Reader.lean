import CallPaths.Grammar.Declarations
import CallPaths.Source.OfTree
import CallPaths.Token.Lexer

/-!
# Reading source texts

From the text of a source file to its declarations.
-/

namespace CallPaths

/-- The parse tree of a source text; none if the grammar does not derive it. -/
def parseTree? (source : String) : Option ParseTree :=
  (Token.scan? source).bind Grammar.parse?

namespace CompilationUnit

/-- The declarations of a source text; none if the grammar does not derive it. -/
def read? (source : String) : Option CompilationUnit :=
  (parseTree? source).map (ofTree (Text.lines source))

end CompilationUnit

namespace SourceFile

/-- The source file with a path and a text. -/
def read (path text : String) : Except Failure SourceFile :=
  match CompilationUnit.read? text with
  | some declarations => .ok { toCompilationUnit := declarations, path, text }
  | none => .error (.malformedSource path)

end SourceFile

end CallPaths
