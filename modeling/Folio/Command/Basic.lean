/-!
# Commands

What can be asked for on the command line.
-/

namespace Folio

inductive StoreAction where
  | importFrom (directory : String)
  | print
  /-- Move the tree out of the legacy file. -/
  | migrate
deriving DecidableEq, Repr

inductive Command where
  | render (file : String) (out : Option String)
  | tree (file : String)
  | validate (files : List String)
  | build (file out : String) (title : Option String)
  | diagram (file id : String) (out : Option String)
  | store (action : StoreAction)
deriving DecidableEq, Repr

structure GlobalSettings where
  quiet : Bool
  verbose : Bool
  config : Option String
deriving DecidableEq, Repr

structure Invocation where
  settings : GlobalSettings
  command : Command
deriving DecidableEq, Repr

end Folio
