import Folio.Effect.Program

/-!
# Diagrams

A diagram is drawn by something that can fail. Whoever asks for a picture gets one all the same: in
place of what cannot be drawn stands a fixed picture.
-/

namespace Folio

namespace ExitStatus

def signalName? : Nat → Option String
  | 1 => some "SIGHUP"
  | 2 => some "SIGINT"
  | 3 => some "SIGQUIT"
  | 4 => some "SIGILL"
  | 5 => some "SIGTRAP"
  | 6 => some "SIGABRT"
  | 7 => some "SIGBUS"
  | 8 => some "SIGFPE"
  | 9 => some "SIGKILL"
  | 10 => some "SIGUSR1"
  | 11 => some "SIGSEGV"
  | 12 => some "SIGUSR2"
  | 13 => some "SIGPIPE"
  | 14 => some "SIGALRM"
  | 15 => some "SIGTERM"
  | 16 => some "SIGSTKFLT"
  | 17 => some "SIGCHLD"
  | 18 => some "SIGCONT"
  | 19 => some "SIGSTOP"
  | 20 => some "SIGTSTP"
  | 21 => some "SIGTTIN"
  | 22 => some "SIGTTOU"
  | 23 => some "SIGURG"
  | 24 => some "SIGXCPU"
  | 25 => some "SIGXFSZ"
  | 26 => some "SIGVTALRM"
  | 27 => some "SIGPROF"
  | 28 => some "SIGWINCH"
  | 29 => some "SIGIO"
  | 30 => some "SIGPWR"
  | 31 => some "SIGSYS"
  | _ => none

def text : ExitStatus → String
  | code n => "exit status: " ++ toString n
  | signal n =>
    "signal: " ++ toString n ++ ((signalName? n).map fun name => " (" ++ name ++ ")").getD ""

end ExitStatus

inductive DiagramError where
  | notStarted (command : String) (cause : IoError)
  | failed (status report : String)
  | io (path : String) (cause : IoError)
  | noPicture
deriving DecidableEq, Repr

namespace DiagramError

def message : DiagramError → String
  | notStarted command cause => "Failed to start '" ++ command ++ "': " ++ cause.message
  | failed status report => "Renderer exited with " ++ status ++ ": " ++ report
  | io path cause => "I/O error at " ++ path ++ ": " ++ cause.message
  | noPicture => "Renderer produced no SVG output"

end DiagramError

/-- Something that draws diagrams, given an identifier and the source of one. -/
abbrev DiagramRenderer := String → String → ExceptT DiagramError Program String

namespace Diagram

/-- The picture in place of one that cannot be drawn. -/
def fallback : String :=
  "<svg width=\"200\" height=\"50\" xmlns=\"http://www.w3.org/2000/svg\">" ++
    "<text x=\"10\" y=\"30\" fill=\"red\">Mermaid Error</text></svg>"

def logArea : String := "mdseo::diagram"

/-- Draws a diagram, or yields the fixed picture and logs the reason. -/
def draw (renderer : DiagramRenderer) (id source : String) : Program String := do
  match ← (renderer id source).run with
  | .ok picture => return picture
  | .error e =>
    Effect.act (.log .error logArea ("Mermaid render error for '" ++ id ++ "': " ++ e.message))
    return fallback

end Diagram

end Folio
