/-!
# Authorities

The authority of a URL is what stands between its scheme and its path: an optional user, a host and
an optional port. The host of an e-mail address follows the same rules.
-/

namespace Folio.Literal

structure AuthorityRules where
  userAllowed : Bool
  hostRequired : Bool
  portAllowed : Bool

/-- What is known of an authority after some of its characters. -/
structure AuthorityState where
  userAllowed : Bool
  stop : Nat
  /-- The latest dot, which counts once a label follows it. -/
  pendingDot : Option Nat
  lastDot : Option Nat
  dots : Nat
  dotAllowed : Bool
  hyphenAllowed : Bool
  allNumeric : Bool
  maybeHost : Bool
  hostEnded : Bool

/-- One step: go on, end before this character, or find that there is no authority. -/
inductive AuthorityStep where
  | next (s : AuthorityState)
  | done (s : AuthorityState)
  | fail

def AuthorityState.initial (userAllowed : Bool) : AuthorityState where
  userAllowed := userAllowed
  stop := 0
  pendingDot := none
  lastDot := none
  dots := 0
  dotAllowed := false
  hyphenAllowed := false
  allNumeric := true
  maybeHost := true
  hostEnded := false

def isLetter (c : Char) : Bool :=
  c.isAlpha || 128 ≤ c.toNat

/-- Characters that end a host but may be part of a user. -/
def isDelimiter (c : Char) : Bool :=
  "!$&'()*+,;=".toList.contains c

def AuthorityState.step (rules : AuthorityRules) (s : AuthorityState) (i : Nat) (c : Char) :
    AuthorityStep :=
  if isLetter c || c.isDigit then
    let stop := if !rules.hostRequired || !s.hostEnded then i + 1 else s.stop
    .next { s with
      stop := stop
      lastDot := s.pendingDot
      dotAllowed := true
      hyphenAllowed := true
      allNumeric := s.allNumeric && !isLetter c
      maybeHost := s.maybeHost && !s.hostEnded }
  else if c == '-' then
    let stop := if !rules.hostRequired then i + 1 else s.stop
    .next { s with
      stop := stop
      dotAllowed := false
      allNumeric := false
      maybeHost := s.maybeHost && s.hyphenAllowed }
  else if c == '.' then
    .next { s with
      pendingDot := some i
      dots := s.dots + 1
      dotAllowed := false
      hyphenAllowed := false
      hostEnded := s.hostEnded || !s.dotAllowed }
  else if c == '_' || c == '~' then
    .next { s with maybeHost := false }
  else if isDelimiter c then
    let s := { s with hostEnded := true }
    if !s.userAllowed && rules.hostRequired then .done s else .next s
  else if c == ':' then
    if !s.userAllowed && !rules.portAllowed then .done s
    else .next { s with pendingDot := s.lastDot }
  else if c == '@' then
    if s.userAllowed then .next { AuthorityState.initial false with stop := s.stop } else .fail
  else if c == '/' then
    .done (if rules.hostRequired then s else { s with stop := i })
  else .done s

def scanAuthority (rules : AuthorityRules) (s : AuthorityState) (i : Nat) :
    List Char → Option AuthorityState
  | [] => some s
  | c :: cs =>
    match s.step rules i c with
    | .next s => scanAuthority rules s (i + 1) cs
    | .done s => some s
    | .fail => none

def isTopLevel (cs : List Char) : Bool :=
  match cs with
  | a :: b :: _ => a.isAlpha && b.isAlpha
  | _ => false

/-- Where the authority at the start of a text ends, and its last dot. -/
def authorityEnd (rules : AuthorityRules) (cs : List Char) : Option (Nat × Option Nat) := do
  let s ← scanAuthority rules (AuthorityState.initial rules.userAllowed) 0 cs
  if rules.hostRequired then
    if !s.maybeHost then none
    if s.allNumeric then
      if s.dots != 3 then none
    else if let some dot := s.lastDot then
      if !isTopLevel (cs.drop (dot + 1)) then none
  some (s.stop, s.lastDot)

end Folio.Literal
