import Folio.Diagnostic
import Folio.Html
import Folio.Lint
import Folio.ParseError

/-!
# Rendering whatever was parsed

A source that cannot be parsed renders to nothing, and the reason becomes a diagnostic.
-/

namespace Folio

structure Rendering where
  html : String
  diagnostics : List Diagnostic
deriving DecidableEq, Repr

namespace ParseError

def diagnostic (e : ParseError) : Diagnostic :=
  ⟨.error, e.message, some "E001"⟩

end ParseError

namespace Rendering

def ofParsed : Except ParseError Document → Rendering
  | .ok d => ⟨d.render, []⟩
  | .error e => ⟨"", [e.diagnostic]⟩

/-- No diagnostic is an error. -/
def isOk (r : Rendering) : Bool :=
  r.diagnostics.all (·.severity != .error)

end Rendering

/-- The findings in what a parser yields; a failure is the only finding. -/
def lintParsed : Except ParseError Document → List Diagnostic
  | .ok d => d.lint
  | .error e => [e.diagnostic]

end Folio
