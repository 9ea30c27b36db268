import Folio.Document.Json
import Folio.Parse
import Folio.Rendering

/-!
# Embedding

For hosts that hand over a source and take back one string. Everything is parsed with the default
options.
-/

namespace Folio.Embedding

def renderHtml (source : String) : String :=
  (Rendering.ofParsed (Document.parse .default source)).html

/-- The tree of a source as JSON, or an object with the reason why there is none. -/
def tree (source : String) : String :=
  match Document.parse .default source with
  | .ok d => d.toJson.compact
  | .error e => (Json.object [("error", .string e.message)]).compact

/-- The findings in a source as JSON. -/
def findings (source : String) : String :=
  (Json.array ((lintParsed (Document.parse .default source)).map Diagnostic.toJson)).compact

end Folio.Embedding
