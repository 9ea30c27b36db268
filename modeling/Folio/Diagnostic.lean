import Folio.Json.Reader
import Folio.Json.Record
import Folio.Json.Writer

/-!
# Diagnostics

A diagnostic reports something about a document without stopping the work on it.
-/

namespace Folio

inductive Severity where
  | error
  | warning
  | info
deriving DecidableEq, Repr

structure Diagnostic where
  severity : Severity
  message : String
  code : Option String
deriving DecidableEq, Repr

namespace Severity

def name : Severity → String
  | error => "error"
  | warning => "warning"
  | info => "info"

def ofName? : String → Option Severity
  | "error" => some error
  | "warning" => some warning
  | "info" => some info
  | _ => none

/-- A severity is read from its name, or from an object that maps its name to `null`. -/
def ofJson? : Json → Option Severity
  | .string s => ofName? s
  | .object [(s, .null)] => ofName? s
  | _ => none

end Severity

namespace Diagnostic

def toJson (d : Diagnostic) : Json :=
  .object ([("severity", .string d.severity.name), ("message", .string d.message)] ++
    (d.code.map fun c => ("code", Json.string c)).toList)

/-- An object may leave the code out; an array has all three fields. -/
def ofJson? (v : Json) : Option Diagnostic := do
  match ← Json.record? ["severity", "message", "code"] v with
  | [some severity, some message, code] =>
    if v.isArray && code.isNone then none
    return ⟨← Severity.ofJson? severity, ← message.string?, ← Json.optional? Json.string? code⟩
  | _ => none

def read? (s : String) : Option Diagnostic :=
  Json.read? s >>= ofJson?

end Diagnostic

end Folio
