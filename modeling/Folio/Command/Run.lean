import Folio.Build
import Folio.Command.Arguments
import Folio.Config
import Folio.Document.Json
import Folio.Rendering
import Folio.Workspace.Migration
import Folio.Workspace.Scan

/-!
# Running commands

Each command is a program. What keeps it from its end is an error, whose message is reported.
-/

namespace Folio

inductive CommandError where
  | source (e : SourceError)
  | config (e : ConfigError)
  | unparsable (file : String) (e : ParseError)
  | notWritten (path : String)
  | build (e : BuildError)
  | scan (e : ScanError)
  | storage (e : StorageError)
  | storeNotOpened (directory : String)
  | treeNotSaved (directory : String)
  | notMigrated (path : String)
deriving DecidableEq, Repr

namespace CommandError

def message : CommandError → String
  | source e => e.message
  | config e => e.message
  | unparsable file e => "Failed to parse '" ++ file ++ "': " ++ e.message
  | notWritten path => "Failed to write " ++ path
  | build e => e.message
  | scan e => e.message
  | storage e => e.message
  | storeNotOpened directory => "Failed to open store in " ++ directory
  | treeNotSaved directory => "Failed to save file tree to " ++ directory
  | notMigrated path => "Failed to migrate from " ++ path

end CommandError

namespace Command

/-- Writes a text to a file, or prints it and ends the line. -/
def emit (out : Option String) (text : String) : ExceptT CommandError Program Unit :=
  match out with
  | some path => (Program.writeText path text).elseFail fun _ => .notWritten path
  | none => Effect.act (.print (text ++ "\n"))

def renderFile (file : String) (out : Option String) (options : ParseOptions) :
    ExceptT CommandError Program Unit := do
  let text ← (SourceFile.read file).adapt .source
  let r := Rendering.ofParsed (← SourceFile.parse options text)
  r.diagnostics.forM fun d => Effect.act (.report (file ++ ": " ++ d.message))
  emit out r.html

def printTree (file : String) (options : ParseOptions) : ExceptT CommandError Program Unit := do
  let text ← (SourceFile.read file).adapt .source
  match ← SourceFile.parse options text with
  | .ok d => Effect.act (.print (d.toJson.indented ++ "\n"))
  | .error e => throw (.unparsable file e)

def findingLine (file : String) (d : Diagnostic) : String :=
  file ++ ": " ++ d.severity.name ++ ": " ++ ((d.code.map fun c => "[" ++ c ++ "] ").getD "") ++
    d.message ++ "\n"

/-- Prints the findings in a file, and yields whether there is an error among them. -/
def validateFile (file : String) (options : ParseOptions) :
    ExceptT CommandError Program Bool := do
  let text ← (SourceFile.read file).adapt .source
  let findings := lintParsed (← SourceFile.parse options text)
  if findings.isEmpty then Effect.act (.print (file ++ ": OK\n"))
  findings.forM fun d => Effect.act (.print (findingLine file d))
  return findings.any (·.severity == .error)

def validateFiles (options : ParseOptions) : List String → ExceptT CommandError Program Bool
  | [] => return false
  | file :: files => do
    let here ← validateFile file options
    let further ← validateFiles options files
    return here || further

def drawFile (file id : String) (out : Option String) (m : Mermaid) :
    ExceptT CommandError Program Unit := do
  let text ← (SourceFile.read file).adapt .source
  emit out (← Diagram.draw m.renderer id text)

def openStore (s : StorageSettings) : ExceptT CommandError Program Store :=
  s.openStore.adapt fun _ => .storeNotOpened s.dataDirectory

def importTree (directory : String) (s : StorageSettings) (quiet : Bool) :
    ExceptT CommandError Program Unit := do
  let nodes ← (Scan.run directory).adapt .scan
  let store ← openStore s
  (store.save nodes).adapt fun _ => .treeNotSaved store.directory
  unless quiet do
    Effect.act (.print ("Imported " ++ toString (FileNode.countAll nodes) ++ " nodes from " ++
      directory ++ " into " ++ store.directory ++ "\n"))

mutual

def nodeLines (depth : Nat) : FileNode → List String
  | .file _ name content =>
    [String.ofList (List.replicate (2 * depth) ' ') ++ name ++ " (" ++
      toString content.utf8ByteSize ++ " bytes)\n"]
  | .folder _ name children =>
    (String.ofList (List.replicate (2 * depth) ' ') ++ name ++ "/\n") ::
      forestLines (depth + 1) children

def forestLines (depth : Nat) : List FileNode → List String
  | [] => []
  | n :: ns => nodeLines depth n ++ forestLines depth ns

end

def printStored (s : StorageSettings) : ExceptT CommandError Program Unit := do
  let store ← openStore s
  match ← store.load.adapt .storage with
  | none => Effect.act (.print "No file tree stored\n")
  | some nodes =>
    (forestLines 0 nodes).forM fun line => Effect.act (.print line)
    Effect.act (.print (toString (FileNode.countAll nodes) ++ " nodes\n"))

def migrationLine (path : String) : Migration → String
  | .migrated count => "Migrated " ++ toString count ++ " nodes from " ++ path ++ "\n"
  | .alreadyMigrated => "Skipped store already has a file tree; cleared legacy copy\n"
  | .nothingToMigrate => "Nothing to migrate\n"

def migrateTree (s : StorageSettings) (quiet : Bool) : ExceptT CommandError Program Unit := do
  let store ← openStore s
  let m ← (Migration.run store ⟨s.legacyPath⟩).adapt fun _ => .notMigrated s.legacyPath
  unless quiet do
    Effect.act (.print (migrationLine s.legacyPath m))

/-- Carries a command out, and yields the exit code. -/
def run (c : Config) (quiet : Bool) : Command → ExceptT CommandError Program Nat
  | render file out => do
    renderFile file out c.parse
    return 0
  | tree file => do
    printTree file c.parse
    return 0
  | validate files => do
    return if ← validateFiles c.parse files then 1 else 0
  | build file out title => do
    (Build.run file out c.parse (c.pageSettings title) quiet).adapt .build
    return 0
  | diagram file id out => do
    drawFile file id out c.diagram
    return 0
  | store (.importFrom directory) => do
    importTree directory c.storage quiet
    return 0
  | store .print => do
    printStored c.storage
    return 0
  | store .migrate => do
    migrateTree c.storage quiet
    return 0

end Command

namespace Invocation

def logLevel (i : Invocation) : LogLevel :=
  if i.settings.verbose then .debug else .warn

def carryOut (i : Invocation) : ExceptT CommandError Program Nat := do
  Effect.act (.startLogging i.logLevel)
  let c ← (Config.load i.settings.config).adapt .config
  i.command.run c i.settings.quiet

/-- The text for those who ask for help or get their arguments wrong. -/
def usage : String :=
  "Render markdown to restricted, search-engine friendly HTML\n\n" ++
    "Usage: mdseo [--quiet] [--verbose] [--config FILE] COMMAND\n\n" ++
    "Commands:\n" ++
    "  render FILE [--out FILE]\n" ++
    "  tree FILE\n" ++
    "  validate FILES\n" ++
    "  build FILE [--out DIR] [--title TITLE]\n" ++
    "  diagram FILE [--id ID] [--out FILE]\n" ++
    "  store import DIR\n" ++
    "  store show\n" ++
    "  store migrate\n"

def program (args : List String) : Program Nat :=
  match ofArguments args with
  | .error .help => do
    Effect.act (.print usage)
    return 0
  | .error .version => do
    Effect.act (.print ("mdseo " ++ Page.version ++ "\n"))
    return 0
  | .error .usage => do
    Effect.act (.report usage)
    return 2
  | .ok i => do
    match ← i.carryOut.run with
    | .ok code => return code
    | .error e =>
      Effect.act (.report ("Error: " ++ e.message))
      return 1

end Invocation

end Folio
