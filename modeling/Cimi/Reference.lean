import Cimi.Text.Percent
import Cimi.Text.Split

/-!
# References to resources

A reference is a path below the base of a server; the empty one is the root, the cloud entry point.
An endpoint turns a reference into the URL to fetch (`Endpoint.resolve`) and the URLs that the
server hands out back into references (`Endpoint.referenceOf`).
-/

namespace Cimi

/-- A resource's path below the base of its server. -/
structure Reference where
  text : String
deriving DecidableEq, Repr, Inhabited

namespace Reference

/-- The reference of the cloud entry point. -/
def root : Reference := ⟨""⟩

/-- Whether this is the reference of the cloud entry point. -/
def isRoot (r : Reference) : Bool := r.text.toList.isEmpty

/-- Whether the reference starts at the root of the server. -/
def isAbsolute (r : Reference) : Bool := r.text.toList.head? = some '/'

/-- The parts between the slashes; the root has none. -/
def segments (r : Reference) : List String :=
  if r.isRoot then [] else (Text.split '/' r.text.toList).map String.ofList

/-- The part after the last slash; the root has none. -/
def lastSegment? (r : Reference) : Option String :=
  if r.isRoot then none
  else match Text.cutLast '/' r.text.toList with
    | some (_, after) => some (String.ofList after)
    | none => some r.text

/-- The reference one segment shorter. -/
def parent (r : Reference) : Reference :=
  match Text.cutLast '/' r.text.toList with
  | some (before, _) => ⟨String.ofList before⟩
  | none => root

end Reference

/-- The base below which a server keeps its resources. -/
structure Endpoint where
  text : String
deriving DecidableEq, Repr, Inhabited

namespace Endpoint

/-- The name under which a server offers the page of this program. -/
def pageName : String := "webui"

/-- The base of the server that offers a page: what stands before the page's name, or the whole
address if the name is not in it. -/
def ofPage (page : String) : Endpoint :=
  match Text.beforeLast pageName.toList page.toList with
  | some (c :: before) => ⟨String.ofList (c :: before)⟩
  | _ => ⟨page⟩

/-- The base without a slash at its end. -/
def withoutSlash (b : Endpoint) : String :=
  match b.text.toList.reverse with
  | '/' :: rest => String.ofList rest.reverse
  | _ => b.text

/-- The URL of a reference or of a link; one that starts with a slash follows the base directly. -/
def resolve (b : Endpoint) (href : String) : String :=
  if href.toList.head? = some '/' then b.withoutSlash ++ href else b.text ++ href

/-- The URL from which a reference is fetched. -/
def fetchUrl (b : Endpoint) (r : Reference) : String := b.resolve r.text

/-- The reference behind a URL: what follows the base, or the URL itself if it is not below the
base; slashes at its start are dropped. -/
def referenceOf (b : Endpoint) (url : String) : Reference :=
  let path := match b.text.toList.isPrefixOf? url.toList with
    | some rest => rest
    | none => (b.withoutSlash.toList.isPrefixOf? url.toList).getD url.toList
  ⟨String.ofList (path.dropWhile (· = '/'))⟩

end Endpoint

/-- A value as it stands in the query of a URL. -/
def encodeQueryValue (value : String) : String := String.ofList (Text.Percent.encode value.toList)

end Cimi
