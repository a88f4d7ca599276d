import Cimi.Text.Decimal
import Cimi.Text.Percent

/-!
# URLs of servers

A URL names a server and what is asked of it.  Reading one brings it into its normal form: the
scheme and the host are in lower case, the usual port is left out, the dots are taken out of the
path, and what may not stand in a URL is escaped.  A link is read against the URL of the page that
holds it.
-/

namespace Cimi.Http

/-- A URL of a server. -/
structure Url where
  scheme : String
  host : String
  port : Option Nat
  path : String
  query : Option String
  fragment : Option String
deriving DecidableEq, Repr

/-- Why a text is no URL of a server. -/
inductive UrlError where
  /-- There is no scheme, or no server behind it. -/
  | malformed
  /-- The scheme is none of those that are spoken. -/
  | otherScheme (text : String)
deriving DecidableEq, Repr

namespace Url

/-- A character with its bytes escaped, if it is one of those to escape. -/
def escapeIf (p : Char → Bool) (c : Char) : List Char :=
  if c ≤ '\x1F' || '\x7F' ≤ c || p c then (String.utf8EncodeChar c).flatMap Text.Percent.escape
  else [c]

/-- A part of a path with its escapes. -/
def escapePath (cs : List Char) : List Char :=
  cs.flatMap (escapeIf (· ∈ " \"#<>?\x60\x7b\x7d".toList))

/-- A query with its escapes. -/
def escapeQuery (cs : List Char) : List Char := cs.flatMap (escapeIf (· ∈ " \"#<>'".toList))

/-- A fragment with its escapes. -/
def escapeFragment (cs : List Char) : List Char := cs.flatMap (escapeIf (· ∈ " \"<>\x60".toList))

/-- A text without the blanks around it and the line breaks and tabs in it. -/
def clean (cs : List Char) : List Char :=
  (Text.dropRight (· ≤ ' ') (cs.dropWhile (· ≤ ' '))).filter (· ∉ ['\t', '\n', '\r'])

/-- The scheme of a text in lower case, with what follows its colon. -/
def scheme? (cs : List Char) : Option (String × List Char) :=
  match Text.cutFirst ':' cs with
  | some (name, rest) =>
    if name.head?.any Char.isAlpha && name.all fun c => c.isAlphanum || c ∈ ['+', '-', '.'] then
      some (String.ofList (name.map Char.toLower), rest)
    else none
  | none => none

/-- The usual port of a scheme that is spoken. -/
def usualPort? : String → Option Nat
  | "http" => some 80
  | "https" => some 443
  | _ => none

/-- Whether a character separates the parts of a path. -/
def isSlash (c : Char) : Bool := c = '/' || c = '\\'

/-- Whether a character may stand in the name of a host. -/
def isHostChar (c : Char) : Bool := ' ' < c && c ≠ '\x7F' && c ∉ "#%/<>?@\\^|".toList

/-- The host and the port of a scheme, where a text names them. -/
def hostAndPort (scheme : String) (cs : List Char) : Except UrlError (String × Option Nat) := do
  let (name, port) := match Text.cutLast ':' cs with
    | some (name, port) => if ']' ∈ port then (cs, []) else (name, port)
    | none => (cs, [])
  if name.isEmpty || !name.all isHostChar then throw .malformed
  let host := String.ofList (name.map Char.toLower)
  if port.isEmpty then return (host, none)
  match Text.Decimal.value? port with
  | some p =>
    if p > 65535 then throw .malformed
    return (host, if usualPort? scheme = some p then none else some p)
  | none => throw .malformed

/-- Whether a part of a path stays where it is. -/
def isDot (part : List Char) : Bool :=
  String.ofList (part.map Char.toLower) ∈ [".", "%2e"]

/-- Whether a part of a path goes back by one. -/
def isDoubleDot (part : List Char) : Bool :=
  String.ofList (part.map Char.toLower) ∈ ["..", ".%2e", "%2e.", "%2e%2e"]

/-- The parts of a path after those in `before`, which stand last one first; a dot at the end
leaves an empty part. -/
def resolveDots : (before : List (List Char)) → List (List Char) → List (List Char)
  | before, [] => before.reverse
  | before, part :: parts =>
    if isDoubleDot part then
      resolveDots (if parts.isEmpty then [] :: before.tail else before.tail) parts
    else if isDot part then resolveDots (if parts.isEmpty then [] :: before else before) parts
    else resolveDots (escapePath part :: before) parts

/-- The parts of a text between its slashes. -/
def parts (cs : List Char) : List (List Char) :=
  Text.split '/' (cs.map fun c => if isSlash c then '/' else c)

/-- A path of parts. -/
def pathOf (ps : List (List Char)) : String := String.ofList (ps.flatMap ('/' :: ·))

/-- A text before and after its first `?`, and after its first `#`. -/
def splitTail (cs : List Char) : List Char × Option String × Option String :=
  let (cs, fragment) := match Text.cutFirst '#' cs with
    | some (before, after) => (before, some (String.ofList (escapeFragment after)))
    | none => (cs, none)
  match Text.cutFirst '?' cs with
  | some (before, after) => (before, some (String.ofList (escapeQuery after)), fragment)
  | none => (cs, none, fragment)

/-- The URL of a scheme and what follows the slashes after it. -/
def ofAuthority (scheme : String) (cs : List Char) : Except UrlError Url := do
  let endsHost (c : Char) : Bool := isSlash c || c = '?' || c = '#'
  let authority := cs.takeWhile (!endsHost ·)
  let name := (Text.cutLast '@' authority).elim authority (·.2)
  let (host, port) ← hostAndPort scheme name
  let (path, query, fragment) := splitTail (cs.dropWhile (!endsHost ·))
  let below := match path with
    | _ :: below => below
    | [] => []
  return ⟨scheme, host, port, pathOf (resolveDots [] (parts below)), query, fragment⟩

/-- The URL that a text names by itself. -/
def parse (text : String) : Except UrlError Url :=
  let cs := clean text.toList
  match scheme? cs with
  | none => .error .malformed
  | some (scheme, rest) =>
    if (usualPort? scheme).isSome then ofAuthority scheme (rest.dropWhile isSlash)
    else .error (.otherScheme (String.ofList cs))

/-- The URL of a link that has no scheme. -/
def joinPath (base : Url) (cs : List Char) : Except UrlError Url :=
  match cs with
  | [] => .ok { base with fragment := none }
  | c :: rest =>
    if isSlash c && rest.head?.any isSlash then ofAuthority base.scheme (rest.dropWhile isSlash)
    else
      let (path, query, fragment) := splitTail cs
      let inherited := (parts base.path.toList).tail
      match path with
      | [] => .ok { base with query := query.or (if c = '#' then base.query else none), fragment }
      | first :: below =>
        let ps := if isSlash first then resolveDots [] (parts below)
          else resolveDots inherited.dropLast.reverse (parts path)
        .ok { base with path := pathOf ps, query, fragment }

/-- The URL of a link on the page of a URL. -/
def join (base : Url) (link : String) : Except UrlError Url :=
  let cs := clean link.toList
  match scheme? cs with
  | none => joinPath base cs
  | some (scheme, rest) =>
    if scheme = base.scheme && !rest.head?.any isSlash then joinPath base rest else parse link

/-- Scheme, host and port. -/
def origin (u : Url) : String :=
  u.scheme ++ "://" ++ u.host ++ u.port.elim "" fun p => ":" ++ toString p

/-- What is asked of the server. -/
def target (u : Url) : String := u.path ++ u.query.elim "" ("?" ++ ·)

/-- The text of a URL. -/
def text (u : Url) : String := u.origin ++ u.target ++ u.fragment.elim "" ("#" ++ ·)

end Url

end Cimi.Http
