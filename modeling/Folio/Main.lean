import Folio.Command.Run
import Folio.Effect.Host

/-!
# The program

Performs the effects of a command on the computer that the program runs on. Other programs are not
started: diagrams come out as the fixed picture.
-/

namespace Folio.Main

def errorNumber : IO.Error → UInt32
  | .alreadyExists _ n _ | .otherError n _ | .resourceBusy n _ | .resourceVanished n _
  | .unsupportedOperation n _ | .hardwareFault n _ | .unsatisfiedConstraints n _
  | .illegalOperation n _ | .protocolError n _ | .timeExpired n _ | .interrupted _ n _
  | .noFileOrDirectory _ n _ | .invalidArgument _ n _ | .permissionDenied _ n _
  | .resourceExhausted _ n _ | .inappropriateType _ n _ | .noSuchThing _ n _ => n
  | .unexpectedEof | .userError _ => 0

def ioError (e : IO.Error) : IoError :=
  match errorNumber e with
  | 2 => .notFound
  | 13 => .permissionDenied
  | 17 => .alreadyExists
  | 20 => .notADirectory
  | 21 => .isADirectory
  | 36 => .nameTooLong
  | 39 => .directoryNotEmpty
  | _ => .other (toString e)

def attempt (act : IO α) : IO (Except IoError α) := do
  try
    return .ok (← act)
  catch e =>
    return .error (ioError e)

/-- Tries something out with a path; no path contains the character that ends paths. -/
def attemptAt (path : String) (act : IO α) : IO (Except IoError α) :=
  if path.toList.contains '\x00' then return .error .nulInPath else attempt act

def seen (path : String) : IO.FS.DirEntry :=
  ⟨".", path⟩

partial def below (directory : String) (names : List String) : IO (List Walked) := do
  let entries ← (seen directory).path.readDir
  let sorted := (entries.toList.map (·.fileName)).mergeSort
  sorted.flatMapM fun name => do
    let path := Path.join directory name
    let inner := names ++ [name]
    match ← attempt (seen path).path.symlinkMetadata with
    | .error cause => return [.unopened inner cause]
    | .ok found =>
      let entry := .found ⟨inner, found.type == .file⟩
      if found.type == .dir then
        match ← attempt (below path inner) with
        | .error cause => return [entry, .unopened inner cause]
        | .ok rest => return entry :: rest
      else
        return [entry]

partial def createFresh (directory stem : String) (make : String → IO Unit) :
    IO (Except IoError String) := do
  let digits := toString (← IO.rand 0 999999)
  let path := Path.join directory
    (stem ++ String.ofList (List.replicate (6 - digits.length) '0') ++ digits)
  match ← attemptAt path (make path) with
  | .ok () => return .ok path
  | .error .alreadyExists => createFresh directory stem make
  | .error e => return .error e

/-- Performs an effect; the level up to which messages are logged is carried along. -/
def perform : (e : Effect) → StateT (Option LogLevel) IO e.Answer
  | .readFile path => attemptAt path (IO.FS.readBinFile path)
  | .isDirectory path => do
    if path.isEmpty || path.toList.contains '\x00' then return false
    (seen path).path.isDir
  | .isPresent path => do
    if path.isEmpty || path.toList.contains '\x00' then return false
    (seen path).path.pathExists
  | .makeDirectory path => attemptAt path (IO.FS.createDir path)
  | .walk path => attemptAt path (below path [])
  | .createTemporary directory =>
    createFresh directory Host.temporaryStem fun path => do
      let _ ← IO.FS.Handle.mk path .writeNew
  | .createTemporaryDirectory directory stem =>
    createFresh directory stem fun path => IO.FS.createDir path
  | .truncate path => attemptAt path (IO.FS.writeBinFile path ByteArray.empty)
  | .append path bytes => attemptAt path do
    let handle ← IO.FS.Handle.mk path .append
    handle.write bytes
  | .rename source target => attemptAt target (IO.FS.rename source target)
  | .remove path => attemptAt path (IO.FS.removeFile path)
  | .removeTree path => attemptAt path (IO.FS.removeDirAll path)
  | .launch _ _ => return .error (.other "no other program can be started")
  | .print text => do
    let stream ← IO.getStdout
    stream.putStr text
    stream.flush
  | .report line => IO.eprintln line
  | .startLogging level => set (some level)
  | .log level area text => do
    if (← get).any (level.rank ≤ ·.rank) then IO.eprintln (Host.logLine level area text)

end Folio.Main

def main (args : List String) : IO UInt32 := do
  let (code, _) ← ((Folio.Invocation.program args).runWith Folio.Main.perform).run none
  return UInt32.ofNat code
