/-!
# Parse errors

What can keep a source text from becoming a document.
-/

namespace Folio

inductive ParseError where
  /-- The source has `length` bytes, which is more than `limit`. -/
  | tooLarge (length limit : Nat)
  /-- The events do not open and close containers in pairs. -/
  | unbalanced (detail : String)
  | custom (message : String)
deriving DecidableEq, Repr

namespace ParseError

def message : ParseError → String
  | tooLarge length limit =>
    "Input is " ++ toString length ++ " bytes, over the configured limit of " ++ toString limit ++
      " bytes"
  | unbalanced detail => "Malformed event stream: " ++ detail
  | custom message => "Parser failed: " ++ message

def nothingOpen : ParseError :=
  unbalanced "container closed before it was opened"

/-- The input ends while `count` containers are open, `name` being the innermost. -/
def stillOpen (count : Nat) (name : String) : ParseError :=
  unbalanced (toString count ++ " container(s) still open at end of input (innermost: " ++ name ++
    ")")

end ParseError

end Folio
