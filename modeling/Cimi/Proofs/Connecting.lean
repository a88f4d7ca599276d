import Cimi.Program
import Mathlib.Data.List.Infix

/-!
# View URLs that are pasted back

On a page whose address has no fragment (`Location.IsFragment`), the URL of a view is that address
and then a `#` with the reference.  The reference may hold what it likes, since the URL is cut at
the first `#`; so the URL leads back to the view (`Location.ofUrl_resourceViewUrl`).

The program looks for a bare reference on the page below its base (`Program.viewBelow`).  From the
URL of a view on that page it finds the base again, for the name of the page stands nowhere later in
the address (`Endpoint.ofPage_pageName`), and so it comes to the same view
(`Location.viewUrls_lead_back`).
-/

namespace Cimi

namespace Text

variable {pattern : List Char}

theorem beforeLast_eq_none_iff : ∀ {cs : List Char}, beforeLast pattern cs = none ↔ ¬pattern <:+: cs
  | [] => by simp [beforeLast]
  | c :: cs => by
    have ih := @beforeLast_eq_none_iff cs
    rw [beforeLast, List.infix_cons_iff]
    rcases hlater : beforeLast pattern cs with _ | before
    · simp [ih.1 hlater]
    · simp [Classical.not_not.1 fun hn => Option.some_ne_none before (hlater.symm.trans (ih.2 hn))]

theorem contains_iff {cs : List Char} : contains pattern cs = true ↔ pattern <:+: cs := by
  rw [contains, Option.isSome_iff_ne_none, Ne, beforeLast_eq_none_iff, Classical.not_not]

/-- A pattern at the end of a text stands nowhere later. -/
theorem beforeLast_append (hpattern : pattern ≠ []) :
    ∀ before : List Char, beforeLast pattern (before ++ pattern) = some before
  | [] => by
    obtain ⟨c, cs, rfl⟩ := List.exists_cons_of_ne_nil hpattern
    have hshort : beforeLast (c :: cs) cs = none :=
      beforeLast_eq_none_iff.2 fun h => Nat.not_succ_le_self _ h.length_le
    simp [beforeLast, hshort]
  | c :: before => by
    rw [List.cons_append, beforeLast, beforeLast_append hpattern before]

end Text

namespace Location

/-- A page that shows resources in the fragment of an address that has none by itself. -/
structure IsFragment (l : Location) : Prop where
  addressing : l.addressing = .fragment
  page : '#' ∉ l.page.toList

theorem ofUrl_eq {page : String} (hpage : '#' ∉ page.toList) :
    ofUrl page = ⟨page, .root, .fragment⟩ := by
  rw [ofUrl, Text.cutFirst_eq_none.2 hpage]

theorem ofUrl_append {page : String} (hpage : '#' ∉ page.toList) (reference : String) :
    ofUrl (page ++ "#" ++ reference) = ⟨page, ⟨reference⟩, .fragment⟩ := by
  have hcut := Text.cutFirst_append hpage reference.toList
  have hurl : (page ++ "#" ++ reference).toList = page.toList ++ '#' :: reference.toList := by simp
  rw [ofUrl, hurl, hcut]
  simp

theorem isFragment_ofUrl (url : String) : (ofUrl url).IsFragment := by
  rcases hcut : Text.cutFirst '#' url.toList with _ | ⟨page, reference⟩
  · have hpage := Text.cutFirst_eq_none.1 hcut
    rw [ofUrl_eq hpage]
    exact ⟨rfl, hpage⟩
  · rw [ofUrl, hcut]
    exact ⟨rfl, by simpa using (Text.cutFirst_eq_some hcut).2⟩

/-- The URL of a view leads back to it. -/
theorem ofUrl_resourceViewUrl {l : Location} (hl : l.IsFragment) (r : Reference) :
    ofUrl (l.resourceViewUrl r) = l.withReference r := by
  obtain ⟨page, reference, addressing⟩ := l
  obtain ⟨rfl, hpage⟩ := hl
  unfold resourceViewUrl
  split_ifs with hroot
  · have hr : r = .root := by
      obtain ⟨text⟩ := r
      simpa [Reference.isRoot, Reference.root] using hroot
    rw [ofUrl_eq hpage, hr, withReference]
  · exact ofUrl_append hpage r.text

theorem ofUrl_viewUrl {l : Location} (hl : l.IsFragment) : ofUrl l.viewUrl = l :=
  ofUrl_resourceViewUrl hl l.reference

theorem page_isPrefix_viewUrl (l : Location) : l.page.toList <+: l.viewUrl.toList := by
  unfold viewUrl resourceViewUrl
  split_ifs
  · exact List.prefix_rfl
  · split <;> simp

end Location

namespace Endpoint

/-- The base of the page below a base is that base, even if the name of the page is in it. -/
theorem ofPage_pageName {b : Endpoint} (hb : b.text ≠ "") : ofPage (b.text ++ pageName) = b := by
  have hname : pageName.toList ≠ [] := by decide
  have hbase := Text.beforeLast_append hname b.text.toList
  rw [← String.toList_append] at hbase
  obtain ⟨c, cs, hcs⟩ := List.exists_cons_of_ne_nil fun h => hb (String.toList_eq_nil_iff.1 h)
  rw [hcs] at hbase
  rw [ofPage, hbase]
  simp only [← hcs, String.ofList_toList]

end Endpoint

namespace Program

/-- The view of a resource on the page below a base. -/
def viewBelow (b : Endpoint) (r : Reference) : Location :=
  ⟨b.text ++ Endpoint.pageName, r, .fragment⟩

variable {b : Endpoint} {r : Reference}

theorem isFragment_viewBelow (hfragment : '#' ∉ b.text.toList) (r : Reference) :
    (viewBelow b r).IsFragment := by
  have hname : '#' ∉ Endpoint.pageName.toList := by decide
  exact ⟨rfl, by simp [viewBelow, hfragment, hname]⟩

theorem connect_reference (hfragment : '#' ∉ b.text.toList)
    (hr : ¬"://".toList <:+: r.text.toList) :
    connect b.text (some r.text) = (b, viewBelow b r) := by
  rw [← Text.contains_iff, Bool.not_eq_true] at hr
  have hpage : Location.ofUrl (b.text ++ Endpoint.pageName) = viewBelow b .root :=
    Location.ofUrl_eq (isFragment_viewBelow hfragment .root).page
  simp only [connect, hr, Bool.false_eq_true, if_false, hpage]
  rfl

theorem connect_url (configured : String) {l : Location} (hl : l.IsFragment)
    (hscheme : "://".toList <:+: l.page.toList) :
    connect configured (some l.viewUrl) = (.ofPage l.page, l) := by
  have hurl : Text.contains "://".toList l.viewUrl.toList = true :=
    Text.contains_iff.2 (hscheme.trans l.page_isPrefix_viewUrl.isInfix)
  simp only [connect, hurl, if_true, Location.ofUrl_viewUrl hl]

/-- The program finds its base and its place again from the URL of a view, whatever base it has been
given this time. -/
theorem connect_viewBelow (hscheme : "://".toList <:+: b.text.toList)
    (hfragment : '#' ∉ b.text.toList) (configured : String) (r : Reference) :
    connect configured (some (viewBelow b r).viewUrl) = (b, viewBelow b r) := by
  have hb : b.text ≠ "" := by
    intro hempty
    rw [hempty] at hscheme
    exact absurd hscheme (by decide)
  have hpage : "://".toList <:+: (viewBelow b r).page.toList := by
    rw [viewBelow, String.toList_append]
    exact hscheme.trans (List.prefix_append _ _).isInfix
  rw [connect_url configured (isFragment_viewBelow hfragment r) hpage, viewBelow,
    Endpoint.ofPage_pageName hb]

end Program

/-- The URL of each view on the page of a URL leads back to the view.  The program that is given the
URL of a view below a base has that base and that view, where a bare reference brings it as well. -/
theorem Location.viewUrls_lead_back :
    (∀ (url : String) (r : Reference),
      ofUrl ((ofUrl url).withReference r).viewUrl = (ofUrl url).withReference r ∧
      ofUrl ((ofUrl url).resourceViewUrl r) = (ofUrl url).withReference r) ∧
    ∀ (b : Endpoint) (r : Reference), "://".toList <:+: b.text.toList → '#' ∉ b.text.toList →
      (∀ configured,
        Program.connect configured (some (Program.viewBelow b r).viewUrl) =
          (b, Program.viewBelow b r)) ∧
      (¬"://".toList <:+: r.text.toList →
        Program.connect b.text (some r.text) = (b, Program.viewBelow b r)) := by
  refine ⟨fun url r => ?_, fun b r hscheme hfragment => ?_⟩
  · have hback := ofUrl_resourceViewUrl (isFragment_ofUrl url) r
    exact ⟨hback, hback⟩
  · exact ⟨fun configured => Program.connect_viewBelow hscheme hfragment configured r,
      Program.connect_reference hfragment⟩

/-- A base that holds the name of the page, and references that look like URLs. -/
theorem Location.viewUrls_lead_back_disk :
    Program.connect "http://other/" (some "http://webui/api/webui#disk#1?x=a://b") =
        (⟨"http://webui/api/"⟩, ⟨"http://webui/api/webui", ⟨"disk#1?x=a://b"⟩, .fragment⟩) ∧
      Program.connect "http://webui/api/" (some "disk#1") =
        (⟨"http://webui/api/"⟩, ⟨"http://webui/api/webui", ⟨"disk#1"⟩, .fragment⟩) := by
  have hscheme : "://".toList <:+: "http://webui/api/".toList := by decide
  have hfragment : '#' ∉ "http://webui/api/".toList := by decide
  have hview (text : String) : Program.viewBelow ⟨"http://webui/api/"⟩ ⟨text⟩ =
      ⟨"http://webui/api/webui", ⟨text⟩, .fragment⟩ := by
    rw [Program.viewBelow]
    congr 1
  have hurl : viewUrl ⟨"http://webui/api/webui", ⟨"disk#1?x=a://b"⟩, .fragment⟩ =
      "http://webui/api/webui#disk#1?x=a://b" := by
    decide
  obtain ⟨hback, -⟩ := viewUrls_lead_back.2 _ ⟨"disk#1?x=a://b"⟩ hscheme hfragment
  obtain ⟨-, hbare⟩ := viewUrls_lead_back.2 _ ⟨"disk#1"⟩ hscheme hfragment
  rw [← hview, ← hurl, ← hview]
  exact ⟨hback "http://other/", hbare (by decide)⟩

end Cimi
