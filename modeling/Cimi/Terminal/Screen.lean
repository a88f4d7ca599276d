import Cimi.Page.Basic
import Cimi.Terminal.Paint
import Cimi.Text.Utf8

/-!
# Pages on a terminal

A page is drawn as lines: its trail, its title, a message, its buttons, and then either the text of
the open panel or what the page shows of its resource, in sections.
-/

namespace Cimi.Terminal

/-- A line. -/
def line (cs : List Char) : List Char := cs ++ ['\n']

/-- The title of a section. -/
def section_ (color : Bool) (title : String) : List Char := line (paint color .boldUnderlined title)

/-- Terms in a column as wide as the longest of them has bytes, and their descriptions. -/
def termLines (color : Bool) (terms : List Term) : List Char :=
  let width := terms.foldl (fun w t => max w (Text.Utf8.size t.term.toList)) 0
  terms.flatMap fun t =>
    line (' ' :: ' ' :: paintPadded color width .green t.term ++ ' ' :: ' ' :: t.description.toList)

/-- The section of the metadata, if there is any. -/
def metadataLines (color : Bool) (terms : List Term) : List Char :=
  if terms.isEmpty then [] else section_ color "Metadata" ++ termLines color terms

/-- A row of the access control list. -/
def aclLine (r : AclRule) : List Char :=
  line (' ' :: ' ' :: pad 24 r.principal.toList ++ ' ' :: pad 8 r.kind.toList ++ ' ' ::
    r.right.toList)

/-- The section of the access control list. -/
def aclLines (color : Bool) (acl : Option (List AclRule)) : List Char :=
  section_ color "ACL" ++ match acl with
    | some rows => rows.flatMap aclLine
    | none => line (' ' :: ' ' :: paint color .dimmed noAcl)

/-- A link of the entry point. -/
def linkLine (color : Bool) (l : Link) : List Char :=
  line (' ' :: ' ' :: match l.url with
    | some url => paint color .blue l.label ++ ' ' :: paint color .dimmed url
    | none => l.label.toList)

/-- A row of a collection. -/
def rowLine (color : Bool) (r : Row) : List Char :=
  line (' ' :: ' ' :: paintPadded color 10 .blue r.tag ++ ' ' :: pad 24 r.name.toList ++ ' ' ::
    paint color .dimmed r.description)

/-- The section of the content. -/
def contentLines (color : Bool) : Content → List Char
  | .entryPoint links => section_ color "Resources" ++ links.flatMap (linkLine color)
  | .collection table =>
    section_ color "Members" ++ line (' ' :: ' ' :: table.summary.toList) ++
      (if table.isEmpty then [] else table.rows.flatMap (rowLine color))
  | .item terms => section_ color "Content" ++ termLines color terms

/-- The text of the panel, which ends its last line. -/
def panelLines (text : String) : List Char :=
  let cs := text.toList
  if cs.getLast? = some '\n' then cs else line cs

/-- The buttons that are seen, in one line if there are any. -/
def buttonLine (color : Bool) (buttons : List Button) : List Char :=
  if buttons.isEmpty then []
  else line ([' '].intercalate (buttons.map fun b => paint color .cyan s!"[{b.label}]"))

/-- The lines above the panel or the sections. -/
def headLines (color : Bool) (p : Page) (message : Option String) : List Char :=
  line (" / ".toList.intercalate (p.trail.map fun c => paint color .blueUnderlined c.label)) ++
    line (paint color .bold p.title) ++
    (message.elim [] fun m => line (paint color .yellow m)) ++
    buttonLine color p.visibleButtons ++ ['\n']

/-- A page. -/
def screen (color : Bool) (p : Page) (message : Option String) : String :=
  String.ofList (headLines color p message ++
    if p.mode.showsEditor then panelLines p.editor
    else metadataLines color p.metadata ++ aclLines color p.acl ++ contentLines color p.content)

end Cimi.Terminal
