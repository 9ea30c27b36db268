import Folio.Command.Basic

/-!
# Reading the command line

Every level of the command line, the one in front of a command and the one behind it, has its own
options. The global ones are understood on every level.
-/

namespace Folio

/-- Why reading ends without a command. -/
inductive Stop where
  | usage
  | help
  | version
deriving DecidableEq, Repr

inductive OptionKind where
  | flag
  | text
  | path
deriving DecidableEq, Repr

/-- What is understood on a level. -/
structure Grammar where
  options : List (String × OptionKind)
  hasCommands : Bool
  hasVersion : Bool
  /-- The most arguments that are no options, if there is a limit. -/
  most : Option Nat
  /-- These arguments may be empty. -/
  mayBeEmpty : Bool

namespace Grammar

def globalOptions : List (String × OptionKind) :=
  [("quiet", .flag), ("verbose", .flag), ("config", .path)]

def kind? (g : Grammar) (name : String) : Option OptionKind :=
  (g.options ++ globalOptions).lookup name

def ofCommands (hasVersion : Bool) : Grammar := ⟨[], true, hasVersion, some 0, true⟩

def ofCommand (options : List (String × OptionKind)) (most : Option Nat) : Grammar :=
  ⟨options, false, false, most, true⟩

end Grammar

/-- What was read on a level. -/
structure Level where
  options : List (String × String)
  arguments : List String
  next : Option (String × List String)

inductive Argument where
  | plain
  | endOfOptions
  | help
  | version
  | option (name : String) (value : Option String)
  /-- Begins like an option but is none. -/
  | unknown
deriving DecidableEq, Repr

namespace Argument

/-- Tells what an argument is. A hyphen alone is an argument like any other. -/
def ofString (s : String) : Argument :=
  match s.toList with
  | ['-', '-'] => endOfOptions
  | '-' :: '-' :: cs =>
    let name := String.ofList (cs.takeWhile (· != '='))
    match cs.dropWhile (· != '=') with
    | [] => if name = "help" then help else if name = "version" then version else option name none
    | _ :: value => option name (some (String.ofList value))
  | '-' :: 'h' :: _ => help
  | '-' :: 'V' :: _ => version
  | '-' :: _ :: _ => unknown
  | _ => plain

end Argument

namespace Level

def empty : Level := ⟨[], [], none⟩

def addArgument (g : Grammar) (l : Level) (s : String) : Except Stop Level :=
  if g.most.any (· ≤ l.arguments.length) || (s.isEmpty && !g.mayBeEmpty) then .error .usage
  else .ok { l with arguments := l.arguments ++ [s] }

/-- Adds an option with its value; none may be repeated on a level. -/
def addOption (l : Level) (name value : String) : Except Stop Level :=
  if (l.options.lookup name).isSome then .error .usage
  else .ok { l with options := (name, value) :: l.options }

def addValue (l : Level) (kind : OptionKind) (name value : String) : Except Stop Level :=
  if kind = .flag || (kind = .path && value.isEmpty) then .error .usage
  else l.addOption name value

/-- Reads the arguments of a level; `awaited` is the option whose value comes next, if any. -/
def read (g : Grammar) (l : Level) (awaited : Option (String × OptionKind)) :
    List String → Except Stop Level
  | [] => if awaited.isSome then .error .usage else .ok l
  | s :: rest => do
    match awaited, Argument.ofString s with
    | some (name, kind), .plain => read g (← l.addValue kind name s) none rest
    | some _, _ => throw .usage
    | none, .endOfOptions => rest.foldlM (addArgument g) l
    | none, .help => throw .help
    | none, .version => throw (if g.hasVersion then .version else .usage)
    | none, .unknown => throw .usage
    | none, .plain =>
      if g.hasCommands then return { l with next := some (s, rest) }
      read g (← l.addArgument g s) none rest
    | none, .option name attached =>
      match g.kind? name, attached with
      | none, _ => throw .usage
      | some .flag, none => read g (← l.addOption name "") none rest
      | some kind, some value => read g (← l.addValue kind name value) none rest
      | some kind, none => read g l (some (name, kind)) rest

def ofArguments (g : Grammar) (args : List String) : Except Stop Level :=
  read g empty none args

def value? (l : Level) (name : String) : Option String :=
  l.options.lookup name

/-- The global settings after a level inside those that were made before. -/
def settings (l : Level) (outer : GlobalSettings) : GlobalSettings :=
  ⟨outer.quiet || (l.value? "quiet").isSome, outer.verbose || (l.value? "verbose").isSome,
    l.value? "config" <|> outer.config⟩

def command (l : Level) : Except Stop (String × List String) :=
  match l.next with
  | some c => .ok c
  | none => .error .usage

def onlyArgument (l : Level) : Except Stop String :=
  match l.arguments with
  | [s] => .ok s
  | _ => .error .usage

end Level

namespace Invocation

def storeActionNames : List String := ["import", "show", "migrate"]

def commandNames : List String := ["render", "tree", "validate", "build", "diagram", "store"]

/-- Help is asked for with the names of a command. -/
def ofHelp : List String → Stop
  | [] => .help
  | [name] => if name = "help" || name ∈ commandNames then .help else .usage
  | ["store", name] => if name = "help" || name ∈ storeActionNames then .help else .usage
  | _ => .usage

def ofStoreArguments (outer : GlobalSettings) (args : List String) : Except Stop Invocation := do
  let l ← Level.ofArguments (.ofCommands false) args
  let outer := l.settings outer
  let (name, args) ← l.command
  match name with
  | "import" =>
    let l ← Level.ofArguments { Grammar.ofCommand [] (some 1) with mayBeEmpty := false } args
    return ⟨l.settings outer, .store (.importFrom (← l.onlyArgument))⟩
  | "show" =>
    let l ← Level.ofArguments (.ofCommand [] (some 0)) args
    return ⟨l.settings outer, .store .print⟩
  | "migrate" =>
    let l ← Level.ofArguments (.ofCommand [] (some 0)) args
    return ⟨l.settings outer, .store .migrate⟩
  | "help" => throw (ofHelp ("store" :: args))
  | _ => throw .usage

def ofArguments (args : List String) : Except Stop Invocation := do
  let l ← Level.ofArguments (.ofCommands true) args
  let outer := l.settings ⟨false, false, none⟩
  let (name, args) ← l.command
  match name with
  | "render" =>
    let l ← Level.ofArguments (.ofCommand [("out", .path)] (some 1)) args
    return ⟨l.settings outer, .render (← l.onlyArgument) (l.value? "out")⟩
  | "tree" =>
    let l ← Level.ofArguments (.ofCommand [] (some 1)) args
    return ⟨l.settings outer, .tree (← l.onlyArgument)⟩
  | "validate" =>
    let l ← Level.ofArguments (.ofCommand [] none) args
    return ⟨l.settings outer, .validate l.arguments⟩
  | "build" =>
    let l ← Level.ofArguments (.ofCommand [("out", .text), ("title", .text)] (some 1)) args
    return ⟨l.settings outer,
      .build (← l.onlyArgument) ((l.value? "out").getD "dist") (l.value? "title")⟩
  | "diagram" =>
    let l ← Level.ofArguments (.ofCommand [("id", .text), ("out", .path)] (some 1)) args
    return ⟨l.settings outer,
      .diagram (← l.onlyArgument) ((l.value? "id").getD "diagram") (l.value? "out")⟩
  | "store" => ofStoreArguments outer args
  | "help" => throw (ofHelp args)
  | _ => throw .usage

end Invocation

end Folio
