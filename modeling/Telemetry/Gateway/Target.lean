/-!
# Request targets

The target of a request is a path with a query, the whole address of a resource

    scheme://authority/path?query#fragment

an authority alone, or a star. Only the path tells what is asked for: `Target.path` finds it and
refuses a text that is no target.
-/

namespace Telemetry.Http.Target

/-- Why a text is no target. -/
inductive Fault where
  | empty
  | tooLong
  | schemeTooLong
  /-- A character stands where it must not, unless it is percent-encoded. -/
  | character
  /-- Brackets, colons, percent signs or an at sign in an authority are out of place. -/
  | authority
  /-- An address has no authority, or something follows an authority that no scheme precedes. -/
  | format
  deriving Repr, DecidableEq

def Fault.message : Fault → String
  | empty => "empty string"
  | tooLong => "uri too long"
  | schemeTooLong => "scheme too long"
  | character => "invalid uri character"
  | authority => "invalid authority"
  | format => "invalid format"

/-- The most bytes in a target. -/
def maxLength : Nat := 65534

/-- The most characters in a scheme. -/
def maxScheme : Nat := 64

/-- The most colons before the count starts again: an address in brackets has seven, its port
one. -/
def maxColons : Nat := 8

/-- Whether a character may stand in a scheme. -/
def isSchemeChar (c : Char) : Bool := c.isAlphanum || "+-.~".contains c

/-- Whether a character ends an authority. -/
def endsAuthority (c : Char) : Bool := "/?#".contains c

/-- Whether a character may stand in an authority and means nothing else there. -/
def isAuthorityChar (c : Char) : Bool := c.isAlphanum || "!$&'()*+,-.;=_~".contains c

/-- Whether a character may stand in a path. -/
def isPathChar (c : Char) : Bool := ' ' < c && !"#<>?`".contains c

/-- Whether a character may stand in a query. -/
def isQueryChar (c : Char) : Bool := ' ' < c && !"\"#<>".contains c

/-- What was read of an authority, which is `user@host:port` with a host that may be in brackets. -/
structure Authority where
  /-- The colons since the user or the brackets. -/
  colons : Nat := 0
  /-- Whether a percent sign stands behind the user and outside brackets. -/
  percent : Bool := false
  opened : Bool := false
  closed : Bool := false
  /-- Whether the last character was an at sign. -/
  atSign : Bool := false

namespace Authority

/-- Reads the next character of an authority. Colons and percent signs are for the user and the
brackets to have: at the end of either the count starts again. -/
def read (a : Authority) (c : Char) : Except Fault Authority :=
  let a := { a with atSign := false }
  if c = ':' then
    if maxColons ≤ a.colons then .error .authority else .ok { a with colons := a.colons + 1 }
  else if c = '[' then
    if a.percent ∨ a.opened then .error .authority else .ok { a with opened := true }
  else if c = ']' then
    if ¬ a.opened ∨ a.closed then .error .authority
    else .ok { a with closed := true, colons := 0, percent := false }
  else if c = '@' then .ok { a with atSign := true, colons := 0, percent := false }
  else if c = '%' then .ok { a with percent := true }
  else if isAuthorityChar c then .ok a
  else .error .character

/-- Whether an authority may end here: brackets are closed, at most one port follows, and a host is
there, without a percent sign. -/
def isComplete (a : Authority) : Bool :=
  a.opened = a.closed && a.colons ≤ 1 && !a.atSign && !a.percent

/-- The authority at the start of a text, and what follows it. -/
def split (cs : List Char) : Except Fault (List Char × List Char) := do
  let authority := cs.takeWhile (!endsAuthority ·)
  let a ← authority.foldlM read {}
  if a.isComplete then .ok (authority, cs.drop authority.length) else .error .authority

end Authority

/-- The path of a path with a query and a fragment. Nothing at all is the path of the root. -/
def ofPathAndQuery (cs : List Char) : Except Fault String :=
  let path := cs.takeWhile fun c => c != '?' && c != '#'
  let query := match cs.drop path.length with
    | '?' :: rest => rest.takeWhile (· != '#')
    | _ => []
  if path.all isPathChar && query.all isQueryChar then
    .ok (if path.isEmpty then "/" else String.ofList path)
  else .error .character

/-- A scheme at the start of a text, and what follows the colon and two slashes behind it. -/
def splitScheme? (cs : List Char) : Option (List Char × List Char) :=
  match cs.dropWhile isSchemeChar with
  | ':' :: '/' :: '/' :: rest => some (cs.takeWhile isSchemeChar, rest)
  | _ => none

/-- The path of a text that does not start with a slash. An authority alone has none. -/
def ofAddress (cs : List Char) : Except Fault String :=
  match splitScheme? cs with
  | some (scheme, rest) => do
    if maxScheme < scheme.length then throw .schemeTooLong
    let (authority, rest) ← Authority.split rest
    if authority.isEmpty then throw .format
    ofPathAndQuery rest
  | none => do
    let (_, rest) ← Authority.split cs
    if rest.isEmpty then return "" else throw .format

def path (target : String) : Except Fault String :=
  if maxLength < target.utf8ByteSize then .error .tooLong
  else
    match target.toList with
    | [] => .error .empty
    | ['*'] => .ok "*"
    | '/' :: rest => ofPathAndQuery ('/' :: rest)
    | [c] => if endsAuthority c then .error .character else ofAddress [c]
    | cs => ofAddress cs

end Telemetry.Http.Target
