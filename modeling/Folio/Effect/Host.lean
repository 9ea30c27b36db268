import Folio.Effect.Program
import Folio.Files.Disk

/-!
# Hosts

A host is a model of the computer on which a program runs: a disk, what was written to the two
outputs, and the commands that can be launched.
-/

namespace Folio

structure Launch where
  command : String
  arguments : List String
  disk : Disk

structure Host where
  disk : Disk
  workingDirectory : List String
  /-- What an executable file does, given its place, its arguments and the disk. -/
  execute : List String → List String → Disk → Except IoError (Finished × Disk)
  output : String
  /-- The lines of the error output, latest first. -/
  reports : List String
  logLevel : Option LogLevel
  /-- The commands that were started, latest first. -/
  launches : List Launch

namespace Host

def commandDirectories : List String :=
  ["/bin", "/usr/bin"]

def executable? (h : Host) (path : String) : Except IoError (List String) :=
  match h.disk.file? h.workingDirectory path with
  | .error .isADirectory => .error .permissionDenied
  | .error e => .error e
  | .ok (place, _, executable) => if executable then .ok place else .error .permissionDenied

/-- Looks for a command in some directories; `denied` tells that something was found before that
is no executable file. -/
def search (h : Host) (command : String) (denied : Bool) :
    List String → Except IoError (List String)
  | [] => .error (if denied then .permissionDenied else .notFound)
  | directory :: rest =>
    match h.executable? (Path.join directory command) with
    | .ok place => .ok place
    | .error .permissionDenied => h.search command true rest
    | .error .notFound | .error .notADirectory => h.search command denied rest
    | .error e => .error e

def command? (h : Host) (command : String) : Except IoError (List String) :=
  if command.toList.contains '\x00' then .error .nulInCommand
  else if command.toList.contains '/' then h.executable? command
  else if command.isEmpty then .error .notFound
  else h.search command false commandDirectories

def launch (h : Host) (command : String) (arguments : List String) :
    Except IoError Finished × Host :=
  match h.command? command with
  | .error e => (.error e, h)
  | .ok place =>
    match h.execute place arguments h.disk with
    | .error e => (.error e, h)
    | .ok (finished, disk) =>
      (.ok finished, { h with disk, launches := ⟨command, arguments, h.disk⟩ :: h.launches })

/-- The line for a message; further lines of the message are indented. -/
def logLine (level : LogLevel) (area text : String) : String :=
  "[" ++ level.label ++ " " ++ area ++ "] " ++
    String.ofList (text.toList.flatMap fun c => if c = '\n' then "\n    ".toList else [c])

/-- Changes the disk if that works. -/
def change (h : Host) (f : Disk → List String → Except IoError Disk) : Except IoError Unit × Host :=
  match f h.disk h.workingDirectory with
  | .ok disk => (.ok (), { h with disk })
  | .error e => (.error e, h)

/-- Makes something new under a fresh name. -/
def create (h : Host) (directory stem : String) (e : Disk.Entry) : Except IoError String × Host :=
  match h.disk.createFresh h.workingDirectory directory stem e with
  | .ok (path, disk) => (.ok path, { h with disk })
  | .error e => (.error e, h)

/-- Opens the directory that some names lead to from a path. -/
def openDirectory (h : Host) (path : String) (names : List String) :
    Except IoError (List String) :=
  h.disk.directory? h.workingDirectory (Path.join path ("/".intercalate names))

/-- What is met of an entry on a walk that starts at a path: nothing if the directory that holds it
cannot be opened. -/
def meet (h : Host) (path : String) (x : List String × Disk.Entry) : List Walked :=
  if x.1.length ≤ 1 || (h.openDirectory path x.1.dropLast).isOk then
    .found ⟨x.1, !x.2.isDirectory⟩ ::
      match x.2 with
      | .file .. => []
      | .directory =>
        match h.openDirectory path x.1 with
        | .ok _ => []
        | .error cause => [.unopened x.1 cause]
  else []

def temporaryStem : String := ".tmp"

/-- The answer to an effect, and the host after it. -/
def step (h : Host) : (e : Effect) → e.Answer × Host
  | .readFile path => (h.disk.read h.workingDirectory path, h)
  | .isDirectory path => (h.disk.isDirectory h.workingDirectory path, h)
  | .isPresent path => ((h.disk.find? h.workingDirectory path).isSome, h)
  | .makeDirectory path => h.change (·.makeDirectory · path)
  | .walk path =>
    ((h.disk.directory? h.workingDirectory path).map fun place =>
      (h.disk.below place).flatMap (h.meet path), h)
  | .createTemporary directory =>
    h.create directory temporaryStem (.file ByteArray.empty false)
  | .createTemporaryDirectory directory stem => h.create directory stem .directory
  | .truncate path => h.change (·.truncate · path)
  | .append path bytes => h.change (·.append · path bytes)
  | .rename source target => h.change (·.rename · source target)
  | .remove path => h.change (·.remove · path)
  | .removeTree path => h.change (·.removeTree · path)
  | .launch command arguments => h.launch command arguments
  | .print text => ((), { h with output := h.output ++ text })
  | .report line => ((), { h with reports := line :: h.reports })
  | .startLogging level => ((), { h with logLevel := some level })
  | .log level area text =>
    ((), if h.logLevel.any (level.rank ≤ ·.rank) then
        { h with reports := logLine level area text :: h.reports }
      else h)

def perform (e : Effect) : StateM Host e.Answer :=
  fun h => h.step e

def run (h : Host) (p : Program α) : α × Host :=
  p.runWith perform h

end Host

end Folio
