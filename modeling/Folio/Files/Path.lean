/-!
# Paths

A path is a text of names separated by slashes. Empty names and names of one dot mean nothing, a
name of two dots leads back to the directory above.
-/

namespace Folio.Path

/-- The path of `b` seen from `a`; an absolute path stays as it is. -/
def join (a b : String) : String :=
  if b.startsWith '/' || a.isEmpty then b
  else if a.endsWith '/' then a ++ b
  else a ++ "/" ++ b

def pieces : List Char → List (List Char)
  | [] => [[]]
  | '/' :: cs => [] :: pieces cs
  | c :: cs =>
    match pieces cs with
    | [] => [[c]]
    | p :: ps => (c :: p) :: ps

def isAbsolute (path : String) : Bool :=
  path.startsWith '/'

/-- The names in a path, those of dots included. -/
def rawNames (path : String) : List String :=
  ((pieces path.toList).filter (!·.isEmpty)).map String.ofList

/-- The names in a path that mean something. -/
def names (path : String) : List String :=
  (rawNames path).filter (· != ".")

/-- Only a directory can be meant: the path ends with a separator or with dots. -/
def meansDirectory (path : String) : Bool :=
  path.endsWith '/' ||
    match (rawNames path).getLast? with
    | some name => name == "." || name == ".."
    | none => true

def ofNames (absolute : Bool) (names : List String) : String :=
  (if absolute then "/" else "") ++ "/".intercalate names

/-- The last name of a path, unless that leads upwards. -/
def fileName? (path : String) : Option String :=
  (names path).getLast?.filter (· != "..")

/-- What follows the last dot of a file's name. A dot in front makes no extension. -/
def extension? (name : String) : Option String :=
  let reversed := name.toList.reverse
  let ext := reversed.takeWhile (· != '.')
  match reversed.drop ext.length with
  | [] | ['.'] => none
  | _ => some (String.ofList ext.reverse)

/-- The directories above a path, the nearest one first. -/
def ancestors (path : String) : List String :=
  let ns := names path
  let lengths := (List.range ns.length).reverse
  let proper := (lengths.filter (0 < ·)).map fun n => ofNames (isAbsolute path) (ns.take n)
  if isAbsolute path && !ns.isEmpty then proper ++ ["/"] else proper

end Folio.Path
