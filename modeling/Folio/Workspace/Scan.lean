import Folio.Digest.Sha256
import Folio.Effect.Program
import Folio.Text.Basic
import Folio.Workspace.FileNode

/-!
# Scanning a directory

The markdown files below a directory form a file tree. A folder is there only for the sake of the
files in it.
-/

namespace Folio

inductive ScanError where
  | notADirectory (path : String)
  | unreadable (path : String)
  | unlisted (path : String) (cause : IoError)
deriving DecidableEq, Repr

namespace ScanError

def message : ScanError → String
  | notADirectory path => "'" ++ path ++ "' is not a directory"
  | unreadable path => "Failed to read " ++ path
  | unlisted path cause => "IO error for operation on " ++ path ++ ": " ++ cause.message

end ScanError

namespace Scan

def markdownExtensions : List String := ["md", "markdown", "mdx"]

def isMarkdown (name : String) : Bool :=
  (Path.extension? name).any fun ext => ext.map Char.toLower ∈ markdownExtensions

/-- The identifier of what some names lead to from the scanned directory: the first twelve digits
of the hash of its path. -/
def nodeId (names : List String) : String :=
  let path := "/".intercalate names
  String.ofList ((Text.hexOfBytes (Sha256.hash path.toUTF8.toList)).take 12)

/-- Changes what is in the first folder with a name; a new folder is added if there is none. -/
def changeFolder (id name : String) (f : List FileNode → List FileNode) :
    List FileNode → List FileNode
  | [] => [.folder id name (f [])]
  | .folder i n children :: rest =>
    if n = name then .folder i n (f children) :: rest
    else .folder i n children :: changeFolder id name f rest
  | n :: rest => n :: changeFolder id name f rest

/-- Adds a file under the given names, with folders where they are missing. `above` holds the
names that lead to the forest. -/
def insert (above : List String) (content : String) :
    List String → List FileNode → List FileNode
  | [], nodes => nodes
  | [name], nodes => nodes ++ [.file (nodeId (above ++ [name])) name content]
  | name :: rest, nodes =>
    changeFolder (nodeId (above ++ [name])) name (insert (above ++ [name]) content rest) nodes

/-- It is a file, and its name is that of a markdown file. -/
def accepts (entry : Listed) : Bool :=
  entry.isFile && entry.names.getLast?.any isMarkdown

def collect (directory : String) :
    List Walked → List FileNode → ExceptT ScanError Program (List FileNode)
  | [], nodes => return nodes
  | .unopened names cause :: _, _ =>
    throw (.unlisted (Path.join directory ("/".intercalate names)) cause)
  | .found entry :: rest, nodes => do
    if accepts entry then
      let path := Path.join directory ("/".intercalate entry.names)
      let content ← (Program.readText path).elseFail fun _ => .unreadable path
      collect directory rest (insert [] content entry.names nodes)
    else collect directory rest nodes

def run (directory : String) : ExceptT ScanError Program (List FileNode) := do
  let isThere : Bool ← Effect.act (.isDirectory directory)
  if isThere then
    let entries ← (Effect.act (.walk directory)).elseFail (.unlisted directory)
    collect directory entries []
  else throw (.notADirectory directory)

end Scan

end Folio
