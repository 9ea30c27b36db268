import Folio.Diagram.Mermaid
import Folio.Effect.Program
import Folio.Json.Reader
import Folio.Json.Record
import Folio.Page
import Folio.Parse
import Folio.Workspace.Store

/-!
# Configuration

A configuration file holds a section each for parsing, storage, diagrams and pages. Every section
and every setting may be left out and then has its default.
-/

namespace Folio

structure StorageSettings where
  dataDirectory : String
  database : String
  collection : String
  legacyFile : Option String
deriving DecidableEq, Repr

namespace StorageSettings

def default : StorageSettings :=
  ⟨".mdseo", Store.defaultDatabase, Store.defaultCollection, none⟩

/-- The legacy file, by default one in the data directory. -/
def legacyPath (s : StorageSettings) : String :=
  s.legacyFile.getD (Path.join s.dataDirectory "legacy.json")

def openStore (s : StorageSettings) : ExceptT StorageError Program Store :=
  Store.openNamed s.dataDirectory s.database s.collection

end StorageSettings

structure Config where
  parse : ParseOptions
  storage : StorageSettings
  diagram : Mermaid
  /-- What is said about every page; the title is left open. -/
  page : PageSettings

inductive ConfigError where
  | unreadable (path : String)
  | invalid (path : String)
deriving DecidableEq, Repr

namespace ConfigError

def message : ConfigError → String
  | unreadable path => "Failed to read " ++ path
  | invalid path => "Failed to parse " ++ path

end ConfigError

namespace Config

def default : Config :=
  ⟨.default, .default, .default, ⟨none, none, none, none⟩⟩

def pageSettings (c : Config) (title : Option String) : PageSettings :=
  { c.page with title }

/-- A setting that may be left out, but not be `null`. -/
def setting (read : Json → Option α) (otherwise : α) : Option Json → Option α
  | none => some otherwise
  | some v => read v

def parseOfJson? (v : Json) : Option ParseOptions := do
  match ← Json.record? ["gfm", "math", "maxInputBytes", "deepHeadings"] v with
  | [extended, math, maxBytes, deepHeadings] =>
    let d := ParseOptions.default
    return ⟨← setting Json.bool? d.extended extended, ← setting Json.bool? d.math math,
      (← Json.optional? Json.uint64? maxBytes).map UInt64.toNat,
      ← setting Json.bool? d.deepHeadings deepHeadings⟩
  | _ => none

def storageOfJson? (v : Json) : Option StorageSettings := do
  match ← Json.record? ["dataDir", "dbName", "storeName", "legacyFile"] v with
  | [dataDirectory, database, collection, legacyFile] =>
    let d := StorageSettings.default
    return ⟨← setting Json.string? d.dataDirectory dataDirectory,
      ← setting Json.string? d.database database,
      ← setting Json.string? d.collection collection,
      ← Json.optional? Json.string? legacyFile⟩
  | _ => none

def diagramOfJson? (v : Json) : Option Mermaid := do
  match ← Json.record? ["command", "theme", "fontFamily", "securityLevel"] v with
  | [command, theme, fontFamily, securityLevel] =>
    let d := Mermaid.default
    return ⟨← setting Json.string? d.command command, ← setting Json.string? d.theme theme,
      ← setting Json.string? d.fontFamily fontFamily,
      ← setting Json.string? d.securityLevel securityLevel⟩
  | _ => none

def pageOfJson? (v : Json) : Option PageSettings := do
  match ← Json.record? ["lang", "description", "canonicalUrl"] v with
  | [lang, description, canonicalUrl] =>
    return ⟨none, ← Json.optional? Json.string? canonicalUrl,
      ← Json.optional? Json.string? description, ← Json.optional? Json.string? lang⟩
  | _ => none

def ofJson? (v : Json) : Option Config := do
  match ← Json.record? ["parse", "storage", "diagram", "page"] v with
  | [parse, storage, diagram, page] =>
    return ⟨← setting parseOfJson? default.parse parse,
      ← setting storageOfJson? default.storage storage,
      ← setting diagramOfJson? default.diagram diagram,
      ← setting pageOfJson? default.page page⟩
  | _ => none

def read? (s : String) : Option Config :=
  Json.read? s >>= ofJson?

/-- The file that is read if there is one and no other one is asked for. -/
def defaultPath : String := "mdseo.json"

def loadFile (path : String) : ExceptT ConfigError Program Config := do
  let text ← (Program.readText path).elseFail fun _ => .unreadable path
  match read? text with
  | some c =>
    Effect.act (.log .debug "mdseo::config" ("loaded config from " ++ path))
    return c
  | none => throw (.invalid path)

/-- Loads the configuration file that is asked for, or else the default one if it is there. -/
def load (asked : Option String) : ExceptT ConfigError Program Config := do
  match asked with
  | some path => loadFile path
  | none =>
    let isThere : Bool ← Effect.act (.isPresent defaultPath)
    if isThere then loadFile defaultPath else return default

end Config

end Folio
