import Cimi.Web.Markup
import Cimi.Web.View

/-!
# Views and errors in HTML

Every page has the same frame with a title and a content.  Only `text` and `target` pieces hold what
comes from outside.
-/

namespace Cimi.Web

namespace Html

/-- A rule of the style sheet. -/
def rule (selector declarations : String) : String :=
  "    " ++ selector ++ " \x7b " ++ declarations ++ " \x7d\n"

/-- The style sheet. -/
def style : String :=
  String.join [
    rule "body" "font-family: system-ui, sans-serif; margin: 0; color: #222;",
    rule "header" "background: #2b4a6f; color: #fff; padding: 0.6rem 1rem;",
    rule "header a" "color: #fff;",
    rule "main" "padding: 1rem; max-width: 72rem;",
    rule "nav.trail a" "margin-right: 0.3rem;",
    rule ".message"
      "background: #fff4ce; border: 1px solid #e0c96b; padding: 0.5rem; margin: 0.5rem 0;",
    rule ".controls" "display: flex; gap: 0.5rem; margin: 0.5rem 0;",
    rule ".controls form" "margin: 0;",
    rule "a.button, button" (String.join [
      "padding: 0.3rem 0.7rem; border: 1px solid #2b4a6f; border-radius: 3px; ",
      "background: #eef3f8; color: #2b4a6f; text-decoration: none; ",
      "font: inherit; cursor: pointer;"]),
    rule "table" "border-collapse: collapse; margin: 0.5rem 0;",
    rule "th, td" "border: 1px solid #ccc; padding: 0.25rem 0.5rem; text-align: left;",
    rule "dl" "display: grid; grid-template-columns: max-content auto; gap: 0.2rem 1rem;",
    rule "dt" "font-weight: bold;",
    rule "dd" "margin: 0;",
    rule "pre, textarea" "font-family: ui-monospace, monospace; font-size: 0.9rem;",
    rule "textarea" "width: 100%; min-height: 24rem;",
    rule ".tag" "font-family: ui-monospace, monospace;"]

/-- What stands before the title. -/
def head : String :=
  String.join [
    "<!DOCTYPE html>\n<html lang=\"en\">\n<head>\n  <meta charset=\"utf-8\">\n",
    "  <meta name=\"viewport\" content=\"width=device-width, initial-scale=1\">\n",
    "  <title>"]

/-- A page with a title and a content. -/
def frame (title content : Markup) : Markup :=
  [.markup head] ++ title ++
  [.markup " - CIMI Browser</title>\n  <style>\n", .markup style,
   .markup "  </style>\n</head>\n<body>\n  <header><a href=\"",
   .target root, .markup "\">CIMI Browser</a></header>\n  <main>\n    "] ++ content ++
  [.markup "\n  </main>\n</body>\n</html>"]

/-- A link with its label. -/
def anchor (url label : String) : Markup :=
  [.markup "<a href=\"", .target url, .markup "\">", .text label, .markup "</a>"]

/-- A field of a form that is not seen. -/
def hidden (name value : String) : Markup :=
  [.markup "<input type=\"hidden\" name=\"", .markup name, .markup "\" value=\"", .text value,
   .markup "\">"]

/-- A crumb below the root. -/
def crumb (c : Crumb) : Markup := .markup "\n  / " :: anchor c.url c.label ++ [.markup "\n  "]

/-- The trail. -/
def trail : List Crumb → Markup
  | [] => []
  | first :: crumbs =>
    .markup "\n<nav class=\"trail\">\n  " :: anchor first.url first.label ++ .markup "\n  " ::
      crumbs.flatMap crumb ++ [.markup "\n</nav>\n"]

/-- The message, if there is one. -/
def message : Option String → Markup
  | some text => [.markup "\n<div class=\"message\">", .text text, .markup "</div>\n"]
  | none => [.markup "\n"]

/-- The beginning of a form that is sent. -/
def sending (a : Action) : Markup :=
  [.markup "<form method=\"post\" action=\"", .target a.path, .markup "\">\n"]

/-- The reference shown after a deletion. -/
def parent : Option String → Markup
  | some r => .markup "\n    " :: hidden "parent" r ++ [.markup "\n    "]
  | none => [.markup "\n    "]

/-- A control on the page of a reference. -/
def control (reference : String) (c : Control) : Markup :=
  match c.target with
  | .link url =>
    [.markup "\n  \n  <a class=\"button\" href=\"", .target url, .markup "\">", .text c.label,
     .markup "</a>\n  \n  "]
  | .post p =>
    .markup "\n  \n  " :: sending p.action ++ .markup "    " :: hidden "reference" reference ++
      .markup "\n    " :: hidden "href" p.href ++ .markup "\n    " :: hidden "name" p.name ++
      .markup "\n    " :: parent p.parent ++
      [.markup "\n    <button type=\"submit\">", .text c.label,
       .markup "</button>\n  </form>\n  \n  "]

/-- The panel on the page of a reference. -/
def panel (reference : String) (p : Panel) : Markup :=
  match p.purpose with
  | .read => [.markup "\n\n<pre>", .text p.text, .markup "</pre>\n\n"]
  | .send action href label =>
    .markup "\n\n" :: sending action ++ .markup "  " :: hidden "reference" reference ++
      .markup "\n  " :: hidden "href" href ++
      [.markup "\n  <textarea name=\"json\" spellcheck=\"false\">", .text p.text,
       .markup "</textarea>\n  <button type=\"submit\">", .text label,
       .markup "</button>\n</form>\n\n"]

/-- A term with its description. -/
def term (t : Term) : Markup :=
  [.markup "\n    <dt>", .text t.term, .markup "</dt><dd>", .text t.description,
   .markup "</dd>\n    "]

/-- A list of terms. -/
def terms (ts : List Term) : Markup :=
  .markup "  <dl>\n    " :: ts.flatMap term ++ [.markup "\n  </dl>\n"]

/-- The section of the metadata, if there is any. -/
def metadata (ts : List Term) : Markup :=
  if ts.isEmpty then []
  else .markup "\n<section>\n  <h2>Metadata</h2>\n" :: terms ts ++ [.markup "</section>\n"]

/-- The beginning of a table with the given columns. -/
def tableHead (columns : List String) : String :=
  "\n  <table>\n    <thead><tr>" ++ String.join (columns.map fun c => "<th>" ++ c ++ "</th>") ++
    "</tr></thead>\n    <tbody>\n      "

/-- The end of a table. -/
def tableEnd : String := "\n    </tbody>\n  </table>\n  "

/-- A row of the access control list. -/
def aclRow (r : AclRule) : Markup :=
  [.markup "\n      <tr><td>", .text r.principal, .markup "</td><td>", .text r.kind,
   .markup "</td><td>", .text r.right, .markup "</td></tr>\n      "]

/-- The section of the access control list. -/
def acl (rows : Option (List AclRule)) : Markup :=
  .markup "\n\n<section>\n  <h2>ACL</h2>\n  " ::
    (match rows with
      | some rows =>
        .markup (tableHead ["principal", "type", "right"]) :: rows.flatMap aclRow ++
          [.markup tableEnd]
      | none => [.markup "\n  <p>", .markup noAcl, .markup "</p>\n  "]) ++
    [.markup "\n</section>\n"]

/-- A link of the entry point. -/
def link (l : Link) : Markup :=
  .markup "\n    \n    <li>" :: (match l.url with
    | some url => anchor url l.label
    | none => [.text l.label]) ++ [.markup "</li>\n    \n    "]

/-- The form of a filter on a page with the given URL. -/
def filter (viewUrl : String) : Option String → Markup
  | some expression =>
    [.markup "\n  <form method=\"get\" action=\"", .target viewUrl,
     .markup "\">\n    <input type=\"text\" name=\"filter\" value=\"", .text expression,
     .markup "\" placeholder=\"name='web' and cpu>2\">\n    ",
     .markup "<button type=\"submit\">filter</button>\n  </form>\n  "]
  | none => [.markup "\n  "]

/-- A row of a collection. -/
def row (r : Row) : Markup :=
  .markup "\n      <tr>\n        <td class=\"tag\">" :: anchor r.url r.tag ++
    [.markup "</td>\n        <td>", .text r.name, .markup "</td>\n        <td>",
     .text r.description, .markup "</td>\n      </tr>\n      "]

/-- The rows of a collection, if it has members. -/
def rows (t : Table) : Markup :=
  if t.isEmpty then []
  else .markup (tableHead ["id", "name", "description"]) :: t.rows.flatMap row ++ [.markup tableEnd]

/-- The content, with the filter on a page with the given URL. -/
def content (viewUrl : String) (expression : Option String) : Content → Markup
  | .entryPoint links =>
    .markup "\n  <h2>Resources</h2>\n  <ul>\n    " :: links.flatMap link ++
      [.markup "\n  </ul>\n  "]
  | .collection t =>
    .markup "\n  <h2>Members</h2>\n  " :: filter viewUrl expression ++
      [.markup "\n  <p>", .text t.summary, .markup "</p>\n  "] ++ rows t ++ [.markup "\n  "]
  | .item ts => .markup "\n  <h2>Content</h2>\n" :: terms ts ++ [.markup "  "]

/-- The sections of a page. -/
def sections (p : Page) (expression : Option String) : Markup :=
  .markup "\n\n" :: metadata p.metadata ++ acl p.acl ++ .markup "\n<section>\n  " ::
    content p.viewUrl expression p.content ++ [.markup "\n</section>\n"]

/-- The panel of a view, or the sections of its page. -/
def body (v : View) : Markup :=
  match v.panel with
  | some p => panel v.page.reference p
  | none => sections v.page v.filter

end Html

/-- A view in HTML. -/
def View.markup (v : View) : Markup :=
  Html.frame [.text v.page.title]
    (Html.trail v.page.trail ++ .markup "\n<h1>" :: .text v.page.title :: .markup "</h1>\n\n" ::
      Html.message v.message ++ .markup "\n\n<div class=\"controls\">\n  " ::
      v.controls.flatMap (Html.control v.page.reference) ++ .markup "\n</div>\n\n" ::
      Html.body v ++ [.markup "\n"])

/-- An error in HTML. -/
def errorMarkup (status : Nat) (message : String) : Markup :=
  let title := s!"Error {status}"
  Html.frame [.markup title]
    [.markup "\n<h1>", .markup title, .markup "</h1>\n<div class=\"message\">", .text message,
     .markup "</div>\n<p><a class=\"button\" href=\"", .target root,
     .markup "\">back to CloudEntryPoint</a></p>\n"]

end Cimi.Web
