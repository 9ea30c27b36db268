import Folio.Files.IoError
import Folio.Files.Path

/-!
# Programs

What reads or changes anything outside is a program: a tree of effects, each with a branch for every
answer. A program does nothing by itself. It is run by handing its effects to something that
performs them, a model of a computer or the real one.
-/

namespace Folio

inductive LogLevel where
  | error
  | warn
  | info
  | debug
deriving DecidableEq, Repr

namespace LogLevel

def rank : LogLevel → Nat
  | error => 1
  | warn => 2
  | info => 3
  | debug => 4

/-- The name of a level, filled up to the longest one. -/
def label : LogLevel → String
  | error => "ERROR"
  | warn => "WARN "
  | info => "INFO "
  | debug => "DEBUG"

end LogLevel

inductive ExitStatus where
  | code (n : Nat)
  | signal (n : Nat)
deriving DecidableEq, Repr

/-- What a command that ran to its end leaves behind. -/
structure Finished where
  status : ExitStatus
  errorOutput : ByteArray

structure Listed where
  /-- The names that lead to it from the directory. -/
  names : List String
  isFile : Bool
deriving DecidableEq, Repr

/-- What is met when a directory is walked through. -/
inductive Walked where
  | found (entry : Listed)
  /-- The directory with these names cannot be opened. -/
  | unopened (names : List String) (cause : IoError)
deriving DecidableEq, Repr

/-- What a program can ask for. -/
inductive Effect where
  | readFile (path : String)
  | isDirectory (path : String)
  | isPresent (path : String)
  | makeDirectory (path : String)
  /-- Lists what is below a directory: a directory before what is in it, and the names of each
  directory in order. Each directory is opened by its path; if that fails, the failure stands in
  place of what is in it. -/
  | walk (path : String)
  /-- Makes an empty file with a fresh name in a directory. -/
  | createTemporary (directory : String)
  /-- Makes a directory with a fresh name that starts with `stem`. -/
  | createTemporaryDirectory (directory stem : String)
  /-- Empties a file, or makes an empty one. -/
  | truncate (path : String)
  | append (path : String) (bytes : ByteArray)
  /-- Moves a file in one step, over another one if there is one. -/
  | rename (source target : String)
  | remove (path : String)
  | removeTree (path : String)
  | launch (command : String) (arguments : List String)
  | print (text : String)
  | report (line : String)
  /-- From here on messages up to a level are logged. -/
  | startLogging (level : LogLevel)
  | log (level : LogLevel) (area text : String)

@[reducible] def Effect.Answer : Effect → Type
  | readFile _ => Except IoError ByteArray
  | isDirectory _ => Bool
  | isPresent _ => Bool
  | walk _ => Except IoError (List Walked)
  | createTemporary _ => Except IoError String
  | createTemporaryDirectory .. => Except IoError String
  | launch .. => Except IoError Finished
  | print _ | report _ | startLogging _ | log .. => Unit
  | makeDirectory _ | truncate _ | append .. | rename .. | remove _ | removeTree _ =>
    Except IoError Unit

/-- A program that yields a value. -/
inductive Program (α : Type) where
  | done (a : α)
  | perform (e : Effect) (next : e.Answer → Program α)

namespace Program

def bind : Program α → (α → Program β) → Program β
  | done a, f => f a
  | perform e next, f => perform e fun r => (next r).bind f

instance : Monad Program where
  pure := done
  bind := bind

/-- Runs a program by performing its effects one after another. -/
def runWith [Monad m] (handle : (e : Effect) → m e.Answer) : Program α → m α
  | done a => pure a
  | perform e next => do
    let r ← handle e
    (next r).runWith handle

end Program

def Effect.act (e : Effect) : Program e.Answer :=
  .perform e .done

namespace Program

/-- Fails with what `f` makes of the reason. -/
def elseFail (p : Program (Except IoError α)) (f : IoError → ε) : ExceptT ε Program α :=
  ExceptT.mk do
    match ← p with
    | .ok a => return .ok a
    | .error e => return .error (f e)

def readText (path : String) : Program (Except IoError String) := do
  match ← Effect.act (.readFile path) with
  | .error e => return .error e
  | .ok bytes =>
    match String.fromUTF8? bytes with
    | some text => return .ok text
    | none => return .error .invalidText

def writeFile (path : String) (bytes : ByteArray) : Program (Except IoError Unit) := do
  match ← Effect.act (.truncate path) with
  | .error e => return .error e
  | .ok () => Effect.act (.append path bytes)

def writeText (path text : String) : Program (Except IoError Unit) :=
  writeFile path text.toUTF8

/-- Copies a file: the target is emptied before the source is read. -/
def copyFile (source target : String) : Program (Except IoError Unit) := do
  match ← Effect.act (.readFile source) with
  | .error e => return .error e
  | .ok _ =>
    match ← Effect.act (.truncate target) with
    | .error e => return .error e
    | .ok () =>
      match ← Effect.act (.readFile source) with
      | .error e => return .error e
      | .ok bytes => Effect.act (.append target bytes)

/-- Makes one directory unless it is there. -/
def makeDirectoryOnce (path : String) : Program (Except IoError Unit) := do
  match ← Effect.act (.makeDirectory path) with
  | .ok () => return .ok ()
  | .error e =>
    let isThere : Bool ← Effect.act (.isDirectory path)
    return if isThere then .ok () else .error e

/-- Makes a directory unless it is there, given the directories above it, the nearest first, which
are made if need be. -/
def makeDirectoryBelow (path : String) : List String → Program (Except IoError Unit)
  | [] => makeDirectoryOnce path
  | parent :: outer => do
    match ← Effect.act (.makeDirectory path) with
    | .ok () => return .ok ()
    | .error .notFound =>
      match ← makeDirectoryBelow parent outer with
      | .error e => return .error e
      | .ok () => makeDirectoryOnce path
    | .error e =>
      let isThere : Bool ← Effect.act (.isDirectory path)
      return if isThere then .ok () else .error e

def makeDirectories (path : String) : Program (Except IoError Unit) :=
  if path.isEmpty then return .ok () else makeDirectoryBelow path (Path.ancestors path)

end Program

end Folio
