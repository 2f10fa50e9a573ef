/-!
# Media types

A media type is written `type/subtype`, followed by parameters `name=value` behind semicolons. The
subtype may end in a plus sign and the name of a general format that it is built on. All names are
made of token characters, in which case does not matter; a value is a token or stands in quotes,
which hold printable characters of ASCII.
-/

namespace Telemetry.MediaType

/-- Whether a character may stand in a token. -/
def isTokenChar (c : Char) : Bool :=
  ('a' ≤ c && c ≤ 'z') || ('A' ≤ c && c ≤ 'Z') || ('0' ≤ c && c ≤ '9') ||
    "!#$%&'*+-.^_`|~".contains c

/-- What comes next in a list of parameters. -/
inductive Expecting where
  /-- A name; `empty` as long as none of it was read. -/
  | name (empty : Bool)
  /-- A value; `empty` as long as none of it was read. -/
  | token (empty : Bool)
  /-- More of a value in quotes; `empty` as long as none of it was read. -/
  | quoted (empty : Bool)
  /-- The end of a parameter whose value stood in quotes. -/
  | semicolon
  deriving DecidableEq

/-- Whether a text continues a list of parameters to its end. The last value may be empty, and a
semicolon and spaces may stand behind the last parameter. -/
def continues : Expecting → List Char → Bool
  | .name empty, [] => empty
  | .token _, [] => true
  | .quoted _, [] => false
  | .semicolon, [] => true
  | .name empty, c :: rest =>
    if c = ' ' && empty then continues (.name true) rest
    else if c = '=' && !empty then continues (.token true) rest
    else isTokenChar c && continues (.name false) rest
  | .token empty, c :: rest =>
    if c = '"' && empty then continues (.quoted true) rest
    else if c = ';' && !empty then continues (.name true) rest
    else isTokenChar c && continues (.token false) rest
  | .quoted empty, c :: rest =>
    if c = '"' && !empty then continues .semicolon rest
    else ' ' ≤ c && c ≤ '~' && continues (.quoted false) rest
  | .semicolon, c :: rest =>
    if c = ';' then continues (.name true) rest else c = ' ' && continues .semicolon rest

/-- Whether a name is the name of JSON. -/
def namesJson (name : List Char) : Bool := (String.ofList name).toLower = "json"

/-- Whether a subtype is JSON, or built on it. A plus sign at its start is a part of its name. -/
def isJsonSubtype (subtype : List Char) : Bool :=
  match (subtype.reverse.dropWhile (· != '+')).reverse with
  | _ :: _ :: _ =>
    namesJson (subtype.reverse.takeWhile (· != '+')).reverse ||
      namesJson (subtype.reverse.dropWhile (· != '+')).tail.reverse
  | _ => namesJson subtype

/-- Whether a text is a media type of the kind `application` whose subtype is JSON or built on
it. -/
def isJson (mediaType : String) : Bool :=
  let cs := mediaType.toList
  match cs.dropWhile isTokenChar with
  | '/' :: rest =>
    let subtype := rest.takeWhile isTokenChar
    (String.ofList (cs.takeWhile isTokenChar)).toLower = "application" && isJsonSubtype subtype &&
      match rest.dropWhile isTokenChar with
      | [] => true
      | ';' :: parameters => continues (.name true) parameters
      | _ => false
  | _ => false

end Telemetry.MediaType
