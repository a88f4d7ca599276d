import Cimi.Web.Html
import Mathlib.Data.List.Basic

/-!
# Nothing that is shown can become markup

Text and targets reach a page without any delimiter, so the delimiters of a page are those of its
markup (`Markup.delimiters_render`).  The markup of a page follows from its shape, which counts what
is shown and says nothing of any string (`View.sources_markup`).  So two pages of one shape have the
same delimiters, and so have all error pages (`delimiters_eq`).
-/

namespace Cimi.Web

/-- The characters of a text that open or close a tag or the value of an attribute, in order. -/
def delimiters (page : String) : List Char := page.toList.filter isDelimiter

namespace Markup

variable {α σ : Type}

/-- The markup in a page, in its pieces. -/
def sources (m : Markup) : List String :=
  m.filterMap fun
    | .markup source => some source
    | _ => none

theorem filter_escape (cs : List Char) : (escape cs).filter isDelimiter = [] :=
  List.filter_eq_nil_iff.2 fun _ hd => by simp [not_mem_escape hd]

/-- The delimiters of a page stand in its markup. -/
theorem delimiters_render (m : Markup) :
    delimiters m.render = m.sources.flatMap fun source => source.toList.filter isDelimiter := by
  rw [delimiters, render, String.toList_ofList]
  induction m with
  | nil => rfl
  | cons piece m ih =>
    rw [write, List.flatMap_cons, List.filter_append]
    cases piece with
    | markup source => exact congrArg _ ih
    | text content => rw [Piece.write, filter_escape]; exact ih
    | target url => rw [Piece.write, filter_escape]; exact ih

@[simp] theorem sources_nil : sources [] = [] := rfl

@[simp] theorem sources_markup (source : String) (m : Markup) :
    sources (.markup source :: m) = source :: sources m := rfl

@[simp] theorem sources_text (content : String) (m : Markup) :
    sources (.text content :: m) = sources m := rfl

@[simp] theorem sources_target (url : String) (m : Markup) :
    sources (.target url :: m) = sources m := rfl

@[simp] theorem sources_append (m n : Markup) : sources (m ++ n) = sources m ++ sources n :=
  List.filterMap_append

/-- Two lists have the same markup if they have the same shapes and items of one shape do. -/
theorem sources_flatMap {f g : α → Markup} {shape : α → σ}
    (hf : ∀ x y, shape x = shape y → sources (f x) = sources (g y)) :
    ∀ {xs ys : List α}, xs.map shape = ys.map shape →
      sources (xs.flatMap f) = sources (ys.flatMap g)
  | [], [], _ => rfl
  | [], _ :: _, h => by cases h
  | _ :: _, [], h => by cases h
  | x :: xs, y :: ys, h => by
    obtain ⟨hxy, hrest⟩ := List.cons.inj h
    rw [List.flatMap_cons, List.flatMap_cons, sources_append, sources_append, hf x y hxy,
      sources_flatMap hf hrest]

/-- If every item has the same markup, only their number counts. -/
theorem sources_flatMap_length {f : α → Markup} (hf : ∀ x y, sources (f x) = sources (f y))
    {xs ys : List α} (h : xs.length = ys.length) :
    sources (xs.flatMap f) = sources (ys.flatMap f) := by
  have hmap : xs.map (fun _ => ()) = ys.map fun _ => () := by
    rw [List.map_const', List.map_const', h]
  exact sources_flatMap (fun x y _ => hf x y) hmap

theorem sources_option {f g : Option α → Markup} (hnone : sources (f none) = sources (g none))
    (hsome : ∀ a b, sources (f (some a)) = sources (g (some b))) {t u : Option α}
    (h : t.isSome = u.isSome) : sources (f t) = sources (g u) := by
  cases t with
  | none => cases u with
    | none => exact hnone
    | some b => cases h
  | some a => cases u with
    | none => cases h
    | some b => exact hsome a b

end Markup

/-! ## Shapes -/

/-- Whether a control is a link or sends a form, which may have a field for the parent. -/
inductive ControlShape where
  | link
  | post (parent : Bool)
deriving DecidableEq, Repr

/-- What is shown of a resource, without any of its strings. -/
inductive ContentShape where
  /-- The links, and whether each of them leads somewhere. -/
  | entryPoint (links : List Bool)
  | collection (isEmpty : Bool) (rows : Nat)
  | item (terms : Nat)
deriving DecidableEq, Repr

/-- All that is shown, without any string. -/
structure Shape where
  crumbs : Nat
  message : Bool
  controls : List ControlShape
  /-- Whether the panel is sent, if there is one. -/
  panel : Option Bool
  metadata : Nat
  acl : Option Nat
  filter : Bool
  content : ContentShape
deriving DecidableEq, Repr

def Control.shape (c : Control) : ControlShape :=
  match c.target with
  | .link _ => .link
  | .post p => .post p.parent.isSome

/-- Whether the text of a panel is sent. -/
def Purpose.isSent : Purpose → Bool
  | .read => false
  | .send _ _ _ => true

def contentShape : Content → ContentShape
  | .entryPoint links => .entryPoint (links.map (·.url.isSome))
  | .collection t => .collection t.isEmpty t.rows.length
  | .item ts => .item ts.length

def View.shape (v : View) : Shape where
  crumbs := v.page.trail.length
  message := v.message.isSome
  controls := v.controls.map Control.shape
  panel := v.panel.map (·.purpose.isSent)
  metadata := v.page.metadata.length
  acl := v.page.acl.map List.length
  filter := v.filter.isSome
  content := contentShape v.page.content

/-! ## The markup of the parts of a page -/

namespace Html

open Markup

theorem sources_trail {t u : List Crumb} (h : t.length = u.length) :
    sources (trail t) = sources (trail u) := by
  cases t with
  | nil => cases u with
    | nil => rfl
    | cons c u => cases h
  | cons c t => cases u with
    | nil => cases h
    | cons d u =>
      have hcrumbs := sources_flatMap_length (f := crumb) (fun _ _ => rfl) (Nat.succ.inj h)
      simp [trail, anchor, hcrumbs]

theorem sources_message {t u : Option String} (h : t.isSome = u.isSome) :
    sources (message t) = sources (message u) :=
  sources_option rfl (fun _ _ => rfl) h

theorem sources_parent {t u : Option String} (h : t.isSome = u.isSome) :
    sources (parent t) = sources (parent u) :=
  sources_option rfl (fun _ _ => rfl) h

theorem sources_control (reference reference' : String) {c d : Control} (h : c.shape = d.shape) :
    sources (control reference c) = sources (control reference' d) := by
  unfold Control.shape at h
  unfold control
  rcases hc : c.target with url | p <;> rcases hd : d.target with url' | p' <;> rw [hc, hd] at h
  · rfl
  · cases h
  · cases h
  · have hparent := sources_parent (ControlShape.post.inj h)
    simp [sending, hidden, hparent]

theorem sources_panel (reference reference' : String) {p q : Panel}
    (h : p.purpose.isSent = q.purpose.isSent) :
    sources (panel reference p) = sources (panel reference' q) := by
  unfold panel
  rcases hp : p.purpose with _ | _ <;> rcases hq : q.purpose with _ | _ <;> rw [hp, hq] at h
  · rfl
  · cases h
  · cases h
  · rfl

theorem sources_terms {ts us : List Term} (h : ts.length = us.length) :
    sources (terms ts) = sources (terms us) := by
  have hterms := sources_flatMap_length (f := term) (fun _ _ => rfl) h
  simp [terms, hterms]

theorem sources_metadata {ts us : List Term} (h : ts.length = us.length) :
    sources (metadata ts) = sources (metadata us) := by
  have hempty : ts.isEmpty = us.isEmpty := by
    rw [Bool.eq_iff_iff, List.isEmpty_iff_length_eq_zero, List.isEmpty_iff_length_eq_zero, h]
  unfold metadata
  rw [hempty]
  split_ifs
  · rfl
  · simp [sources_terms h]

theorem sources_acl {rs ss : Option (List AclRule)} (h : rs.map List.length = ss.map List.length) :
    sources (acl rs) = sources (acl ss) := by
  rcases rs with _ | rs <;> rcases ss with _ | ss
  · rfl
  · cases h
  · cases h
  · have hrows := sources_flatMap_length (f := aclRow) (fun _ _ => rfl) (Option.some.inj h)
    simp [acl, hrows]

theorem sources_link {k l : Link} (h : k.url.isSome = l.url.isSome) :
    sources (link k) = sources (link l) :=
  sources_option (f := fun url => link ⟨k.label, url⟩)
    (g := fun url => link ⟨l.label, url⟩) rfl (fun _ _ => rfl) h

theorem sources_filter (viewUrl viewUrl' : String) {t u : Option String}
    (h : t.isSome = u.isSome) : sources (filter viewUrl t) = sources (filter viewUrl' u) :=
  sources_option (f := filter viewUrl) (g := filter viewUrl') rfl (fun _ _ => rfl) h

theorem sources_rows {t u : Table} (hempty : t.isEmpty = u.isEmpty)
    (h : t.rows.length = u.rows.length) : sources (rows t) = sources (rows u) := by
  have hrows := sources_flatMap_length (f := row) (fun _ _ => rfl) h
  unfold rows
  rw [hempty]
  split_ifs
  · rfl
  · simp [hrows]

theorem sources_content (viewUrl viewUrl' : String) {f g : Option String} {c d : Content}
    (hf : f.isSome = g.isSome) (h : contentShape c = contentShape d) :
    sources (content viewUrl f c) = sources (content viewUrl' g d) := by
  cases c with
  | entryPoint links => cases d with
    | entryPoint links' =>
      have hlinks := sources_flatMap (fun _ _ => sources_link) (ContentShape.entryPoint.inj h)
      simp [content, hlinks]
    | collection _ | item _ => cases h
  | collection t => cases d with
    | collection t' =>
      obtain ⟨hempty, hlength⟩ := ContentShape.collection.inj h
      simp [content, sources_filter viewUrl viewUrl' hf, sources_rows hempty hlength]
    | entryPoint _ | item _ => cases h
  | item ts => cases d with
    | item ts' => simp [content, sources_terms (ContentShape.item.inj h)]
    | entryPoint _ | collection _ => cases h

theorem sources_sections {p q : Page} {f g : Option String}
    (hmetadata : p.metadata.length = q.metadata.length)
    (hacl : p.acl.map List.length = q.acl.map List.length) (hfilter : f.isSome = g.isSome)
    (hcontent : contentShape p.content = contentShape q.content) :
    sources (sections p f) = sources (sections q g) := by
  simp [sections, sources_metadata hmetadata, sources_acl hacl,
    sources_content p.viewUrl q.viewUrl hfilter hcontent]

theorem sources_body {v w : View} (h : v.shape = w.shape) :
    sources (body v) = sources (body w) := by
  obtain ⟨-, -, -, hpanel, hmetadata, hacl, hfilter, hcontent⟩ := Shape.mk.inj h
  unfold body
  rcases hv : v.panel with _ | p <;> rcases hw : w.panel with _ | q <;> rw [hv, hw] at hpanel
  · exact sources_sections hmetadata hacl hfilter hcontent
  · cases hpanel
  · cases hpanel
  · exact sources_panel _ _ (Option.some.inj hpanel)

theorem sources_frame {title title' content content' : Markup}
    (htitle : sources title = sources title') (hcontent : sources content = sources content') :
    sources (frame title content) = sources (frame title' content') := by
  simp [frame, htitle, hcontent]

end Html

/-- The markup of a page follows from its shape. -/
theorem View.sources_markup {v w : View} (h : v.shape = w.shape) :
    v.markup.sources = w.markup.sources := by
  obtain ⟨hcrumbs, hmessage, hcontrols, -⟩ := Shape.mk.inj h
  have hdrawn := Markup.sources_flatMap
    (fun _ _ => Html.sources_control v.page.reference w.page.reference) hcontrols
  refine Html.sources_frame rfl ?_
  simp [Html.sources_trail hcrumbs, Html.sources_message hmessage, Html.sources_body h, hdrawn]

/-! ## Errors -/

theorem isDelimiter_of_isDigit {c : Char} (h : c.isDigit = true) : isDelimiter c = false := by
  have hne {d : Char} (hd : d.isDigit = false) : c ≠ d := by
    rintro rfl
    simp [h] at hd
  simp [isDelimiter, hne (d := '<') (by decide), hne (d := '>') (by decide),
    hne (d := '"') (by decide), hne (d := '\'') (by decide)]

/-- The number in the title of an error is written in digits. -/
theorem delimiters_errorTitle (status : Nat) : delimiters s!"Error {status}" = [] := by
  have hdigits : (toString status).toList.filter isDelimiter = [] := by
    refine List.filter_eq_nil_iff.2 fun c hc => ?_
    rw [Text.Decimal.toList_toString] at hc
    simp [isDelimiter_of_isDigit (Text.Decimal.isDigit_of_mem_digits hc)]
  have hword : "Error ".toList.filter isDelimiter = [] := by decide
  calc delimiters s!"Error {status}"
    _ = ("Error ".toList ++ (toString status).toList).filter isDelimiter :=
      congrArg (List.filter isDelimiter) String.toList_append
    _ = [] := by rw [List.filter_append, hword, hdigits, List.nil_append]

theorem delimiters_error (status other : Nat) (message text : String) :
    delimiters (errorMarkup status message).render =
      delimiters (errorMarkup other text).render := by
  have hstatus := delimiters_errorTitle status
  have hother := delimiters_errorTitle other
  unfold delimiters at hstatus hother
  rw [Markup.delimiters_render, Markup.delimiters_render]
  unfold errorMarkup
  -- The titles stay whole, so that what is known of their delimiters applies.
  generalize s!"Error {status}" = title at hstatus ⊢
  generalize s!"Error {other}" = title' at hother ⊢
  simp only [Html.frame, Markup.sources_append, Markup.sources_markup, Markup.sources_text,
    Markup.sources_target, Markup.sources_nil, List.flatMap_append, List.flatMap_cons,
    hstatus, hother]

/-- Pages that show as much of everything have the same delimiters, whatever their strings are, and
so have all errors. -/
theorem delimiters_eq :
    (∀ v w : View, v.shape = w.shape →
      delimiters v.markup.render = delimiters w.markup.render) ∧
    ∀ (status other : Nat) (message text : String),
      delimiters (errorMarkup status message).render =
        delimiters (errorMarkup other text).render := by
  refine ⟨fun v w h => ?_, delimiters_error⟩
  rw [Markup.delimiters_render, Markup.delimiters_render, View.sources_markup h]

/-- The view of a collection with something of everything, in which every text is the same. -/
def View.filled (text : String) : View where
  page :=
    { title := text, kind := .collection, mode := .normal, reference := text, viewUrl := text
      resourceUrl := text, trail := [⟨text, text, text⟩, ⟨text, text, text⟩]
      metadata := [⟨text, text⟩]
      buttons := [], acl := some [⟨text, text, text⟩]
      content := .collection ⟨1, [⟨text, text, text, text⟩]⟩, json := text, editor := text }
  message := some text
  controls := [⟨text, .link text⟩, ⟨text, .post ⟨.delete, text, text, some text⟩⟩]
  panel := none
  filter := some text

theorem delimiters_filled :
    (View.filled "disks").shape = (View.filled "'\"><script>alert(1)</script>").shape ∧
      delimiters (View.filled "disks").markup.render =
        delimiters (View.filled "'\"><script>alert(1)</script>").markup.render :=
  ⟨rfl, delimiters_eq.1 _ _ rfl⟩

end Cimi.Web
