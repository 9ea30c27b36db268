import Folio.Diagram
import Folio.Json.Writer
import Folio.Text.Basic
import Folio.Text.Utf8

/-!
# Drawing diagrams with Mermaid

The renderer is a command of its own. It reads the source and its settings from files in a
directory made for it, and leaves its picture there.
-/

namespace Folio

structure Mermaid where
  command : String
  theme : String
  fontFamily : String
  securityLevel : String
deriving DecidableEq, Repr

namespace Mermaid

def default : Mermaid := ⟨"mmdc", "neutral", "sans-serif", "loose"⟩

/-- The settings as the command reads them. Labels are plain text, so that the picture consists of
text and shapes only. -/
def settings (m : Mermaid) : Json :=
  .object [("flowchart", .object [("htmlLabels", .bool false)]),
    ("fontFamily", .string m.fontFamily), ("htmlLabels", .bool false),
    ("securityLevel", .string m.securityLevel), ("startOnLoad", .bool false),
    ("theme", .string m.theme)]

/-- Letters, digits and hyphens of ASCII stay in the name of a directory, all else is replaced. -/
def nameChar (c : Char) : Char :=
  if c.isAlphanum || c = '-' then c else '_'

def nameLimit : Nat := 32

def directoryStem (id : String) : String :=
  "mdseo-diagram-" ++ String.ofList ((id.toList.map nameChar).take nameLimit) ++ "-"

def temporaryDirectory : String := "/tmp"

/-- What the command wrote to its error output, without blanks around it. -/
def reportText (bytes : ByteArray) : String :=
  String.ofList (Text.trim (Text.ofBytes bytes.toList))

def drawIn (m : Mermaid) (directory source : String) : ExceptT DiagramError Program String := do
  let input := Path.join directory "diagram.mmd"
  let output := Path.join directory "diagram.svg"
  let config := Path.join directory "config.json"
  (Program.writeText input source).elseFail (.io input)
  (Program.writeText config m.settings.compact).elseFail (.io config)
  let finished ← (Effect.act (.launch m.command
    ["-i", input, "-o", output, "-c", config, "-q"])).elseFail (.notStarted m.command)
  if finished.status ≠ .code 0 then
    throw (.failed finished.status.text (reportText finished.errorOutput))
  let picture ← (Program.readText output).elseFail (.io output)
  if picture.toList.all Text.isBlank then throw .noPicture
  return picture

/-- Draws a diagram. The directory is removed in the end, whatever happens. -/
def renderer (m : Mermaid) : DiagramRenderer := fun id source =>
  ExceptT.mk do
    match ← Effect.act (.createTemporaryDirectory temporaryDirectory (directoryStem id)) with
    | .error e => return .error (.io temporaryDirectory e)
    | .ok directory =>
      let result ← (m.drawIn directory source).run
      match ← Effect.act (.removeTree directory) with
      | .ok () => return result
      | .error e =>
        Effect.act (.log .warn Diagram.logArea
          ("Failed to remove " ++ directory ++ ": " ++ e.message))
        return result

end Mermaid

end Folio
