import Cimi.Proofs.Page.Operations
import Cimi.Web.Html
import Mathlib.Tactic.Common

/-!
# Where a page leads

A URL of the site is the path of the entry point with nothing behind it, or with a slash or a query
(`IsLocal`).  What comes from outside is written only behind these (`isLocal_resourceViewUrl`,
`IsLocal.withQuery`).  So the links of a page lead to the site whatever stands in the document that
it shows, and its forms are sent to the paths of the operations (`View.IsOnSite.confined`).
-/

namespace Cimi.Web

/-- A URL of the site. -/
def IsLocal (url : String) : Prop :=
  url = root ∨ (∃ path, url = root ++ "/" ++ path) ∨ ∃ query, url = root ++ "?" ++ query

/-! ## URLs of the site -/

theorem isLocal_root : IsLocal root := .inl rfl

theorem IsLocal.withQuery {url : String} (h : IsLocal url) (key value : String) :
    IsLocal (withQuery url key value) := by
  unfold Web.withQuery
  simp only [String.append_assoc]
  rcases h with rfl | ⟨path, rfl⟩ | ⟨query, rfl⟩
  · have hnone : '?' ∉ root.toList := by decide
    rw [if_neg hnone]
    exact .inr (.inr ⟨_, String.append_assoc.symm⟩)
  · exact .inr (.inl ⟨_, String.append_assoc⟩)
  · exact .inr (.inr ⟨_, String.append_assoc⟩)

theorem page_locationOf (reference : String) : (locationOf reference).page = root := by
  change (locationOf "").page = root
  decide

/-- However a reference begins, its view is the page or below it. -/
theorem isLocal_resourceViewUrl (reference : String) (r : Reference) :
    IsLocal ((locationOf reference).resourceViewUrl r) := by
  rw [Location.resourceViewUrl, page_locationOf]
  split_ifs
  · exact isLocal_root
  · exact .inr (.inl ⟨_, rfl⟩)

theorem isLocal_crumbsFrom (reference : String) (segments : List String) :
    ∀ sofar, ∀ c ∈ (locationOf reference).crumbsFrom sofar segments, IsLocal c.url := by
  induction segments with
  | nil => intro sofar c hc; cases hc
  | cons segment segments ih =>
    intro sofar c hc
    rcases List.mem_cons.1 hc with rfl | hc
    · exact isLocal_resourceViewUrl reference _
    · exact ih _ c hc

theorem isLocal_trail (reference : String) : ∀ c ∈ (locationOf reference).trail, IsLocal c.url := by
  intro c hc
  rcases List.mem_cons.1 hc with rfl | hc
  · rw [page_locationOf]
    exact isLocal_root
  · exact isLocal_crumbsFrom reference _ _ c hc

/-! ## Pages of documents -/

/-- The URLs to which the content of a page leads. -/
def contentUrls : Content → List String
  | .entryPoint links => links.filterMap Link.url
  | .collection t => t.rows.map Row.url
  | .item _ => []

/-- A page whose URLs are those of the site. -/
structure IsOnSite (p : Page) : Prop where
  viewUrl : IsLocal p.viewUrl
  trail : ∀ c ∈ p.trail, IsLocal c.url
  content : ∀ url ∈ contentUrls p.content, IsLocal url

theorem isLocal_content {reference typeName : String} {kind : Kind} {p : Partition} {c : Content}
    (h : Content.ofPartition (locationOf reference) kind typeName p = .ok c) :
    ∀ url ∈ contentUrls c, IsLocal url := by
  cases kind with
  | entryPoint =>
    cases h
    intro url hurl
    obtain ⟨link, hlink, hsome⟩ := List.mem_filterMap.1 hurl
    obtain ⟨e, -, rfl⟩ := List.mem_map.1 hlink
    obtain ⟨href, -, rfl⟩ := Option.map_eq_some_iff.1 hsome
    exact isLocal_resourceViewUrl reference _
  | collection =>
    obtain ⟨collection, -, rfl⟩ := of_map_eq_ok h
    intro url hurl
    obtain ⟨row, hrow, rfl⟩ := List.mem_map.1 hurl
    obtain ⟨e, -, rfl⟩ := List.mem_map.1 hrow
    exact isLocal_resourceViewUrl reference _
  | item =>
    cases h
    intro url hurl
    cases hurl

theorem isOnSite_build {reference : String} {b : Endpoint} {d : Document} {m : Mode} {p : Page}
    (h : Page.build (locationOf reference) b d m = .ok p) : IsOnSite p := by
  obtain ⟨-, -, hview, -, htrail, -⟩ := Page.build_ok h
  obtain ⟨title, -, h⟩ := of_bind_eq_ok h
  obtain ⟨metadata, -, h⟩ := of_bind_eq_ok h
  obtain ⟨content, hc, h⟩ := of_bind_eq_ok h
  have hcontent : p.content = content := by
    cases h
    rfl
  exact ⟨hview ▸ isLocal_resourceViewUrl reference _, htrail ▸ isLocal_trail reference,
    hcontent ▸ isLocal_content hc⟩

/-! ## Destinations in markup -/

/-- Where a link or a form leads, and whether it is sent by a form that changes something. -/
structure Destination where
  isPost : Bool
  url : String

/-- A form is sent to an operation, and everything else leads to the site. -/
def Destination.Stays (d : Destination) : Prop :=
  if d.isPost then ∃ name, d.url = "/actions/" ++ name else IsLocal d.url

/-- What stands before the target of a form that is posted. -/
def posting : String := "<form method=\"post\" action=\""

namespace Markup

/-- The destinations in a page.  What stands before a target says whether it is that of a form. -/
def destinationsFrom : (isPost : Bool) → Markup → List Destination
  | _, [] => []
  | _, .markup source :: m => destinationsFrom (source = posting) m
  | _, .text _ :: m => destinationsFrom false m
  | isPost, .target url :: m => ⟨isPost, url⟩ :: destinationsFrom false m

/-- The destinations in a page, in their order. -/
def destinations (m : Markup) : List Destination := m.destinationsFrom false

/-- Each target is a destination. -/
theorem map_url_destinationsFrom (m : Markup) (isPost : Bool) :
    (m.destinationsFrom isPost).map Destination.url = m.targets := by
  induction m generalizing isPost with
  | nil => rfl
  | cons piece m ih =>
    cases piece with
    | markup source => exact ih _
    | text content => exact ih _
    | target url => exact congrArg (url :: ·) (ih _)

/-- All destinations stay, whatever stands before the page. -/
def Confined (m : Markup) : Prop := ∀ isPost, ∀ d ∈ m.destinationsFrom isPost, d.Stays

variable {α : Type} {m n : Markup} {source content url : String}

theorem Confined.nil : Confined [] := by
  intro isPost d hd
  cases hd

theorem Confined.markup (h : Confined m) : Confined (.markup source :: m) :=
  fun _ => h _

theorem Confined.text (h : Confined m) : Confined (.text content :: m) :=
  fun _ => h _

theorem confined_of_targets (h : m.targets = []) : Confined m := by
  intro isPost d hd
  have hurl := List.mem_map_of_mem (f := Destination.url) hd
  rw [map_url_destinationsFrom, h] at hurl
  cases hurl

theorem stays_append (hn : Confined n) (isPost : Bool)
    (hm : ∀ d ∈ m.destinationsFrom isPost, d.Stays) :
    ∀ d ∈ (m ++ n).destinationsFrom isPost, d.Stays := by
  -- How `m` ends is not known, so `n` has to stay after whatever stands before it.
  induction m generalizing isPost with
  | nil => exact hn isPost
  | cons piece m ih =>
    cases piece with
    | markup source => exact ih _ hm
    | text content => exact ih _ hm
    | target url =>
      obtain ⟨hurl, hm⟩ := List.forall_mem_cons.1 hm
      exact List.forall_mem_cons.2 ⟨hurl, ih _ hm⟩

theorem Confined.append (hm : Confined m) (hn : Confined n) : Confined (m ++ n) :=
  fun isPost => stays_append hn isPost (hm isPost)

theorem Confined.flatMap {f : α → Markup} {xs : List α} (h : ∀ x ∈ xs, Confined (f x)) :
    Confined (xs.flatMap f) := by
  induction xs with
  | nil => exact .nil
  | cons x xs ih =>
    obtain ⟨hx, hxs⟩ := List.forall_mem_cons.1 h
    exact hx.append (ih hxs)

/-- A link, or a form that only asks for a page. -/
theorem Confined.link (hs : source ≠ posting) (hu : IsLocal url) (h : Confined m) :
    Confined (.markup source :: .target url :: m) := by
  intro isPost d hd
  rw [destinationsFrom, destinationsFrom, decide_eq_false hs] at hd
  rcases List.mem_cons.1 hd with rfl | hd
  · exact hu
  · exact h false d hd

theorem confined_sending (a : Action) : Confined (Html.sending a) := by
  intro isPost d hd
  obtain rfl := List.mem_singleton.1 hd
  cases a
  · exact ⟨"update", rfl⟩
  · exact ⟨"create", rfl⟩
  · exact ⟨"delete", rfl⟩
  · exact ⟨"run", rfl⟩

end Markup

/-! ## Destinations in a page -/

namespace Html

open Markup

variable {url : String}

theorem confined_anchor (h : IsLocal url) (label : String) : Confined (anchor url label) :=
  .link (by decide) h (confined_of_targets rfl)

theorem confined_crumb {c : Crumb} (h : IsLocal c.url) : Confined (crumb c) :=
  .append (.markup (confined_anchor h c.label)) (confined_of_targets rfl)

theorem confined_trail {crumbs : List Crumb} (h : ∀ c ∈ crumbs, IsLocal c.url) :
    Confined (trail crumbs) := by
  cases crumbs with
  | nil => exact .nil
  | cons first crumbs =>
    obtain ⟨hfirst, hcrumbs⟩ := List.forall_mem_cons.1 h
    have hrest : Confined (crumbs.flatMap crumb) :=
      .flatMap fun c hc => confined_crumb (hcrumbs c hc)
    exact .append (.append (.markup (confined_anchor hfirst _)) (.markup hrest))
      (confined_of_targets rfl)

theorem confined_message (text : Option String) : Confined (message text) := by
  cases text <;> exact confined_of_targets rfl

theorem confined_control (reference : String) {c : Control}
    (h : ∀ url, c.target = .link url → IsLocal url) : Confined (control reference c) := by
  unfold control
  split
  · next url hc => exact .link (by decide) (h url hc) (confined_of_targets rfl)
  · next p hc =>
    refine .append (.append (.append (.append (.append (.markup (confined_sending _)) ?reference)
      ?href) ?name) ?parent) ?button
    case parent => cases p.parent <;> exact confined_of_targets rfl
    all_goals exact confined_of_targets rfl

theorem confined_panel (reference : String) (p : Panel) : Confined (panel reference p) := by
  unfold panel
  split
  · exact confined_of_targets rfl
  · refine .append (.append (.append (.markup (confined_sending _)) ?reference) ?href) ?text
    all_goals exact confined_of_targets rfl

theorem confined_terms (ts : List Term) : Confined (terms ts) := by
  have hterms : Confined (ts.flatMap term) := .flatMap fun _ _ => confined_of_targets rfl
  exact .append (.markup hterms) (confined_of_targets rfl)

theorem confined_metadata (ts : List Term) : Confined (metadata ts) := by
  unfold metadata
  split_ifs
  · exact .nil
  · exact .append (.markup (confined_terms ts)) (confined_of_targets rfl)

theorem confined_acl (rows : Option (List AclRule)) : Confined (acl rows) := by
  refine .append (.markup ?rows) (confined_of_targets rfl)
  rcases rows with _ | rows
  · exact confined_of_targets rfl
  · have hrows : Confined (rows.flatMap aclRow) := .flatMap fun _ _ => confined_of_targets rfl
    exact .append (.markup hrows) (confined_of_targets rfl)

theorem confined_link {l : Link} (h : ∀ url, l.url = some url → IsLocal url) :
    Confined (link l) := by
  refine .append (.markup ?label) (confined_of_targets rfl)
  split
  · next url hl => exact confined_anchor (h url hl) l.label
  · exact confined_of_targets rfl

theorem confined_filter (h : IsLocal url) (expression : Option String) :
    Confined (filter url expression) := by
  rcases expression with _ | text
  · exact confined_of_targets rfl
  · exact .link (by decide) h (confined_of_targets rfl)

theorem confined_row {r : Row} (h : IsLocal r.url) : Confined (row r) :=
  .append (.markup (confined_anchor h r.tag)) (confined_of_targets rfl)

theorem confined_rows {t : Table} (h : ∀ r ∈ t.rows, IsLocal r.url) : Confined (rows t) := by
  have hrows : Confined (t.rows.flatMap row) := .flatMap fun r hr => confined_row (h r hr)
  unfold rows
  split_ifs
  · exact .nil
  · exact .append (.markup hrows) (confined_of_targets rfl)

theorem confined_content (h : IsLocal url) (expression : Option String) {c : Content}
    (hc : ∀ url ∈ contentUrls c, IsLocal url) : Confined (content url expression c) := by
  cases c with
  | entryPoint links =>
    have hlinks : Confined (links.flatMap link) := .flatMap fun l hl =>
      confined_link fun url hurl => hc url (List.mem_filterMap.2 ⟨l, hl, hurl⟩)
    exact .append (.markup hlinks) (confined_of_targets rfl)
  | collection t =>
    have hrows := confined_rows fun r hr => hc r.url (List.mem_map_of_mem hr)
    exact .append (.append (.append (.markup (confined_filter h expression))
      (confined_of_targets rfl)) hrows) (confined_of_targets rfl)
  | item ts => exact .append (.markup (confined_terms ts)) (confined_of_targets rfl)

theorem confined_body {v : View} (h : IsOnSite v.page) : Confined (body v) := by
  unfold body
  split
  · exact confined_panel _ _
  · exact .append (.append (.append (.markup (confined_metadata _)) (confined_acl _))
      (.markup (confined_content h.viewUrl _ h.content))) (confined_of_targets rfl)

theorem confined_frame {title content : Markup} (ht : Confined title) (hc : Confined content) :
    Confined (frame title content) := by
  refine .append (.append (.append (.append (confined_of_targets rfl) ht) ?head) hc)
    (confined_of_targets rfl)
  exact .markup (.markup (.link (by decide) isLocal_root (confined_of_targets rfl)))

end Html

theorem isLocal_ofCommand? {viewUrl url : String} (h : IsLocal viewUrl) {c : Command}
    (hc : Target.ofCommand? viewUrl c = some (.link url)) : IsLocal url := by
  cases c <;> cases hc
  case finishView => exact h
  all_goals exact h.withQuery _ _

/-- A view of a page on the site, whose controls lead to the site. -/
structure View.IsOnSite (v : View) : Prop where
  page : Web.IsOnSite v.page
  controls : ∀ c ∈ v.controls, ∀ url, c.target = .link url → IsLocal url

theorem isOnSite_ofPage {p : Page} (h : IsOnSite p) (message filter : Option String) :
    (View.ofPage p message filter).IsOnSite := by
  refine ⟨h, fun c hc url hurl => ?_⟩
  obtain ⟨button, -, hsome⟩ := List.mem_filterMap.1 hc
  obtain ⟨target, htarget, rfl⟩ := Option.map_eq_some_iff.1 hsome
  exact isLocal_ofCommand? h.viewUrl (htarget.trans (congrArg some hurl))

theorem View.IsOnSite.withText {v : View} (h : v.IsOnSite) (text : String) :
    (v.withText text).IsOnSite :=
  ⟨h.page, h.controls⟩

theorem View.IsOnSite.confined {v : View} (h : v.IsOnSite) : v.markup.Confined := by
  have hcontrols : Markup.Confined (v.controls.flatMap (Html.control v.page.reference)) :=
    .flatMap fun c hc => Html.confined_control _ (h.controls c hc)
  have hmessage := Html.confined_message v.message
  refine Html.confined_frame (.text .nil) (.append (.append (.append (.append
    (Html.confined_trail h.page.trail) (.markup (.text (.markup hmessage))))
    (.markup hcontrols)) (.markup (Html.confined_body h.page))) (.markup .nil))

theorem confined_errorMarkup (status : Nat) (message : String) :
    (errorMarkup status message).Confined := by
  refine Html.confined_frame (.markup .nil) ?_
  exact .markup (.markup (.markup (.text (.link (by decide) isLocal_root (.markup .nil)))))

end Cimi.Web
