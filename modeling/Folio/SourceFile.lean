import Folio.Effect.Program
import Folio.Parse

/-!
# Source files

Source texts come from files, and what is parsed from them is noted in the log.
-/

namespace Folio

inductive SourceError where
  | unreadable (file : String) (cause : IoError)
deriving DecidableEq, Repr

namespace SourceError

def message : SourceError → String
  | unreadable file cause => "Failed to read '" ++ file ++ "': " ++ cause.message

end SourceError

namespace SourceFile

def read (file : String) : ExceptT SourceError Program String :=
  (Program.readText file).elseFail (.unreadable file)

/-- Parses a text and logs how many top-level nodes it has. -/
def parse (options : ParseOptions) (text : String) : Program (Except ParseError Document) := do
  match Document.parse options text with
  | .error e => return .error e
  | .ok d =>
    Effect.act (.log .debug "mdseo::parse"
      ("parsed " ++ toString d.children.length ++ " top-level nodes"))
    return .ok d

end SourceFile

end Folio
