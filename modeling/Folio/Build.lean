import Folio.Page
import Folio.SourceFile

/-!
# Building pages

A build writes the page of a source file into an output directory and puts a copy of the source
beside it. A source that cannot be parsed still gets a page, without a body.
-/

namespace Folio

inductive BuildError where
  | source (e : SourceError)
  | directoryNotMade (path : String) (cause : IoError)
  | pageNotWritten (path : String) (cause : IoError)
  | sourceNotCopied (path : String) (cause : IoError)
deriving DecidableEq, Repr

namespace BuildError

def message : BuildError → String
  | source e => e.message
  | directoryNotMade path cause => "Failed to create '" ++ path ++ "': " ++ cause.message
  | pageNotWritten path cause => "Failed to write '" ++ path ++ "': " ++ cause.message
  | sourceNotCopied path cause => "Failed to copy source to '" ++ path ++ "': " ++ cause.message

end BuildError

namespace Build

def indexPath (out : String) : String :=
  Path.join out "index.html"

def copyPath (file out : String) : String :=
  Path.join out ((Path.fileName? file).getD "source.md")

/-- The document of a source, or an empty one and a report of the reason. -/
def document (file : String) (options : ParseOptions) (text : String) : Program Document := do
  match ← SourceFile.parse options text with
  | .ok d => return d
  | .error e =>
    Effect.act (.report (file ++ ": " ++ e.message))
    return ⟨[]⟩

def run (file out : String) (options : ParseOptions) (page : PageSettings) (quiet : Bool) :
    ExceptT BuildError Program Unit := do
  let text ← (SourceFile.read file).adapt .source
  let d ← document file options text
  (Program.makeDirectories out).elseFail (.directoryNotMade out)
  (Program.writeText (indexPath out) (d.page page)).elseFail (.pageNotWritten (indexPath out))
  (Program.copyFile file (copyPath file out)).elseFail (.sourceNotCopied (copyPath file out))
  Effect.act (.log .info "mdseo::build" ("built " ++ indexPath out ++ " from " ++ file))
  unless quiet do
    Effect.act (.print ("Built " ++ indexPath out ++ "\n"))
    Effect.act (.print ("  source: " ++ copyPath file out ++ "\n"))

end Build

end Folio
