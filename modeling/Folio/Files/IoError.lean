/-!
# Input and output errors

The reasons for which an operation on files can fail, with the texts that the system gives them.
-/

namespace Folio

inductive IoError where
  | notFound
  | permissionDenied
  | alreadyExists
  | notADirectory
  | isADirectory
  | directoryNotEmpty
  | nameTooLong
  /-- A path contains the character that ends paths. -/
  | nulInPath
  /-- A command contains the character that ends its words. -/
  | nulInCommand
  | invalidText
  /-- Anything else, with the system's text for it. -/
  | other (text : String)
deriving DecidableEq, Repr

namespace IoError

def message : IoError → String
  | notFound => "No such file or directory (os error 2)"
  | permissionDenied => "Permission denied (os error 13)"
  | alreadyExists => "File exists (os error 17)"
  | notADirectory => "Not a directory (os error 20)"
  | isADirectory => "Is a directory (os error 21)"
  | directoryNotEmpty => "Directory not empty (os error 39)"
  | nameTooLong => "File name too long (os error 36)"
  | nulInPath => "file name contained an unexpected NUL byte"
  | nulInCommand => "nul byte found in provided data"
  | invalidText => "stream did not contain valid UTF-8"
  | other text => text

end IoError

end Folio
