import Cimi.Reference

/-!
# Page locations

A location is a page of this program showing one resource.  The resource stands in the fragment of
the page's address, or in its path.  Every view of a resource has a URL (`resourceViewUrl`), and the
trail from the root to a resource is a list of crumbs (`trail`).
-/

namespace Cimi

/-- Where in a page's address the resource stands. -/
inductive Addressing where
  | fragment
  | path
deriving DecidableEq, Repr, Inhabited

/-- A page and the resource it shows. -/
structure Location where
  page : String
  reference : Reference
  addressing : Addressing
deriving DecidableEq, Repr, Inhabited

/-- A step of the way from the root to a resource. -/
structure Crumb where
  label : String
  path : String
  url : String
deriving DecidableEq, Repr

namespace Location

/-- The label of the root. -/
def rootLabel : String := "CloudEntryPoint"

/-- A location; a page that has resources in its path is named without slashes at its end. -/
def ofPage (page : String) (reference : Reference) (addressing : Addressing) : Location :=
  match addressing with
  | .fragment => ⟨page, reference, .fragment⟩
  | .path => ⟨String.ofList (Text.dropRight (· = '/') page.toList), reference, .path⟩

/-- The location that an address with a fragment names. -/
def ofUrl (url : String) : Location :=
  match Text.cutFirst '#' url.toList with
  | some (page, reference) => ⟨String.ofList page, ⟨String.ofList reference⟩, .fragment⟩
  | none => ⟨url, .root, .fragment⟩

/-- The same page showing another resource. -/
def withReference (l : Location) (r : Reference) : Location := { l with reference := r }

/-- The URL of the view of a resource on this page. -/
def resourceViewUrl (l : Location) (r : Reference) : String :=
  if r.isRoot then l.page
  else match l.addressing with
    | .fragment => l.page ++ "#" ++ r.text
    | .path => l.page ++ "/" ++ String.ofList (r.text.toList.dropWhile (· = '/'))

/-- The URL of this view. -/
def viewUrl (l : Location) : String := l.resourceViewUrl l.reference

/-- The URL of the view of the parent. -/
def parentViewUrl (l : Location) : String := l.resourceViewUrl l.reference.parent

/-- The crumbs of the given segments, below the path gone so far. -/
def crumbsFrom (l : Location) : (sofar : String) → List String → List Crumb
  | _, [] => []
  | sofar, segment :: segments =>
    let path := if sofar.toList.isEmpty then segment else sofar ++ "/" ++ segment
    ⟨segment, path, l.resourceViewUrl ⟨path⟩⟩ :: l.crumbsFrom path segments

/-- The way to a resource, one crumb for each of its segments. -/
def breadcrumbs (l : Location) (r : Reference) : List Crumb := l.crumbsFrom "" r.segments

/-- The way from the root to the resource of this location. -/
def trail (l : Location) : List Crumb :=
  ⟨rootLabel, "", l.page⟩ :: l.breadcrumbs l.reference

end Location

end Cimi
