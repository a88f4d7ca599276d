import Cimi.Location
import Cimi.Proofs.Reference
import Mathlib.Logic.Function.Iterate

/-!
# The way to a resource

A reference is its segments with slashes between them (`Reference.ofSegments_segments`), and its
parent is what they are without the last one (`Reference.parent_ofSegments`).  A crumb gets its path
from the crumb before it, from the left.  All the same the path is that of an ancestor of the
reference, found from the right (`Location.crumbs_lead`), but for slashes at the start, which no path
of a crumb has.
-/

namespace Cimi

theorem Text.notMem_of_mem_split {sep : Char} : ∀ {cs piece : List Char},
    piece ∈ split sep cs → sep ∉ piece
  | [], piece, h => by
    rw [List.mem_singleton.1 h]
    exact List.not_mem_nil
  | c :: cs, piece, h => by
    have ih := @notMem_of_mem_split sep cs
    unfold split at h
    split_ifs at h with hc
    · rcases List.mem_cons.1 h with rfl | h
      · exact List.not_mem_nil
      · exact ih h
    · rcases hs : split sep cs with _ | ⟨first, pieces⟩
      · exact absurd hs (split_ne_nil sep cs)
      · rw [hs] at h ih
        rcases List.mem_cons.1 h with rfl | h
        · rw [List.mem_cons, not_or]
          exact ⟨Ne.symm hc, ih List.mem_cons_self⟩
        · exact ih (List.mem_cons_of_mem _ h)

namespace Reference

variable {segments : List String} {last : String} {r : Reference}

/-- The reference with the given segments. -/
def ofSegments (segments : List String) : Reference := ⟨"/".intercalate segments⟩

theorem ofSegments_segments (r : Reference) : ofSegments r.segments = r := by
  obtain ⟨text⟩ := r
  refine congrArg mk (String.toList_inj.1 ?_)
  rw [String.toList_intercalate]
  unfold segments
  split_ifs with hroot
  · rw [isRoot, List.isEmpty_iff] at hroot
    exact hroot.symm
  · rw [List.map_map]
    have hpieces : String.toList ∘ String.ofList = id := funext fun cs => String.toList_ofList
    rw [hpieces, List.map_id]
    exact Text.intercalate_split '/' text.toList

theorem notMem_of_mem_segments {segment : String} (h : segment ∈ r.segments) :
    '/' ∉ segment.toList := by
  unfold segments at h
  split_ifs at h
  · cases h
  · obtain ⟨piece, hpiece, rfl⟩ := List.mem_map.1 h
    rw [String.toList_ofList]
    exact Text.notMem_of_mem_split hpiece

theorem ofSegments_concat (h : segments ≠ []) (last : String) :
    ofSegments (segments ++ [last]) = ⟨(ofSegments segments).text ++ ("/" ++ last)⟩ := by
  rw [ofSegments, String.intercalate_append_of_ne_nil h (List.cons_ne_nil _ _),
    String.intercalate_singleton, String.append_assoc]
  rfl

theorem parent_of_notMem (h : '/' ∉ r.text.toList) : r.parent = root := by
  rw [parent, Text.cutLast_eq_none.2 h]

theorem parent_append (h : '/' ∉ last.toList) (before : String) :
    parent ⟨before ++ ("/" ++ last)⟩ = ⟨before⟩ := by
  have hcut : Text.cutLast '/' (before ++ ("/" ++ last)).toList = some (before.toList, last.toList) := by
    simpa using Text.cutLast_append h before.toList
  rw [parent, hcut]
  exact congrArg mk String.ofList_toList

/-- The parent has all segments but the last one. -/
theorem parent_ofSegments (h : ∀ segment ∈ segments, '/' ∉ segment.toList) :
    (ofSegments segments).parent = ofSegments segments.dropLast := by
  rcases List.eq_nil_or_concat segments with rfl | ⟨front, last, rfl⟩
  · rfl
  · have hlast : '/' ∉ last.toList := h last (by simp)
    rw [List.concat_eq_append, List.dropLast_concat]
    rcases eq_or_ne front [] with rfl | hne
    · refine parent_of_notMem ?_
      rwa [List.nil_append, ofSegments, String.intercalate_singleton]
    · rw [ofSegments_concat hne, parent_append hlast]

theorem iterate_parent (r : Reference) (n : Nat) :
    parent^[n] r = ofSegments (r.segments.take (r.segments.length - n)) := by
  induction n with
  | zero => rw [Nat.sub_zero, List.take_length, ofSegments_segments, Function.iterate_zero_apply]
  | succ n ih =>
    have hsegments : ∀ segment ∈ r.segments.take (r.segments.length - n), '/' ∉ segment.toList :=
      fun segment hs => notMem_of_mem_segments (List.mem_of_mem_take hs)
    rw [Function.iterate_succ_apply', ih, parent_ofSegments hsegments, List.dropLast_eq_take,
      List.take_take, List.length_take]
    congr 2
    omega

/-- The path of a crumb to the given segments: no slash stands at its start. -/
def crumbPath (segments : List String) : String := (relative (ofSegments segments).text).text

theorem crumbPath_concat (h : '/' ∉ last.toList) (segments : List String) :
    crumbPath (segments ++ [last]) =
      if (crumbPath segments).toList.isEmpty then last else crumbPath segments ++ "/" ++ last := by
  have hlast : relative last = ⟨last⟩ :=
    relative_text (decide_eq_false fun hslash => h (List.mem_of_mem_head? hslash))
  rcases eq_or_ne segments [] with rfl | hne
  · exact congrArg text hlast
  · have hslash : relative ("/" ++ last) = ⟨last⟩ := by
      rw [relative_append, if_pos (by decide), hlast]
    rw [crumbPath, ofSegments_concat hne, relative_append, hslash, isRoot]
    unfold crumbPath
    split_ifs
    · rfl
    · rw [String.append_assoc]

theorem crumbPath_segments (hr : r.isAbsolute = false) : crumbPath r.segments = r.text := by
  rw [crumbPath, ofSegments_segments, relative_text hr]

theorem crumbPath_dropLast (hr : r.isAbsolute = false) :
    crumbPath r.segments.dropLast = r.parent.text := by
  have hparent : (ofSegments r.segments).parent = ofSegments r.segments.dropLast :=
    parent_ofSegments fun s => notMem_of_mem_segments
  rw [ofSegments_segments] at hparent
  rw [crumbPath, ← hparent, relative_text (isAbsolute_parent hr)]

end Reference

namespace Location

open Reference (crumbPath ofSegments)

variable {l : Location} {segment : String} {segments : List String}

/-- The crumb of a segment, at the end of the segments gone so far. -/
def crumb (l : Location) (segment : String) (sofar : List String) : Crumb :=
  ⟨segment, crumbPath sofar, l.resourceViewUrl ⟨crumbPath sofar⟩⟩

theorem url_crumb (sofar : List String) :
    (l.crumb segment sofar).url = l.resourceViewUrl ⟨crumbPath sofar⟩ := by
  rw [crumb]

theorem resourceViewUrl_root (l : Location) : l.resourceViewUrl .root = l.page := by
  rw [resourceViewUrl, if_pos (by decide)]

theorem length_crumbsFrom (sofar : String) :
    (l.crumbsFrom sofar segments).length = segments.length := by
  induction segments generalizing sofar with
  | nil => rfl
  | cons segment segments ih => rw [crumbsFrom, List.length_cons, ih, List.length_cons]

theorem labels_crumbsFrom (sofar : String) :
    (l.crumbsFrom sofar segments).map (·.label) = segments := by
  induction segments generalizing sofar with
  | nil => rfl
  | cons segment segments ih => rw [crumbsFrom, List.map_cons, ih]

theorem crumbsFrom_cons (h : '/' ∉ segment.toList) (sofar segments : List String) :
    l.crumbsFrom (crumbPath sofar) (segment :: segments) =
      l.crumb segment (sofar ++ [segment]) ::
        l.crumbsFrom (crumbPath (sofar ++ [segment])) segments := by
  rw [crumbsFrom, crumb, Reference.crumbPath_concat h]

theorem crumbsFrom_append (h : ∀ segment ∈ segments, '/' ∉ segment.toList)
    (sofar rest : List String) :
    l.crumbsFrom (crumbPath sofar) (segments ++ rest) =
      l.crumbsFrom (crumbPath sofar) segments ++ l.crumbsFrom (crumbPath (sofar ++ segments)) rest := by
  induction segments generalizing sofar with
  | nil => rw [List.append_nil]; rfl
  | cons segment segments ih =>
    obtain ⟨hsegment, hsegments⟩ := List.forall_mem_cons.1 h
    rw [List.cons_append, crumbsFrom_cons hsegment, ih hsegments, crumbsFrom_cons hsegment,
      List.append_assoc, List.cons_append]
    rfl

/-- The crumb of the last segment ends the way. -/
theorem crumbsFrom_concat (h : ∀ s ∈ segments ++ [segment], '/' ∉ s.toList) :
    l.crumbsFrom "" (segments ++ [segment]) =
      l.crumbsFrom "" segments ++ [l.crumb segment (segments ++ [segment])] := by
  have hsegments : ∀ s ∈ segments, '/' ∉ s.toList := fun s hs => h s (List.mem_append_left _ hs)
  have happend := crumbsFrom_append (l := l) hsegments [] [segment]
  rw [List.nil_append, crumbsFrom_cons (h segment (by simp))] at happend
  exact happend

/-- A crumb leads to where the segments up to its own lead. -/
theorem breadcrumbs_getElem? (l : Location) (r : Reference) (k : Nat) :
    (l.breadcrumbs r)[k]? =
      r.segments[k]?.map fun segment => l.crumb segment (r.segments.take (k + 1)) := by
  rcases hk : r.segments[k]? with _ | segment
  · rw [List.getElem?_eq_none_iff] at hk
    rwa [Option.map_none, List.getElem?_eq_none_iff, breadcrumbs, length_crumbsFrom]
  · obtain ⟨hlt, hget⟩ := List.getElem?_eq_some_iff.1 hk
    have hsplit : r.segments = r.segments.take k ++ segment :: r.segments.drop (k + 1) := by
      rw [← hget, ← List.drop_eq_getElem_cons hlt, List.take_append_drop]
    have hfront : ∀ s ∈ r.segments.take k, '/' ∉ s.toList :=
      fun s hs => Reference.notMem_of_mem_segments (List.mem_of_mem_take hs)
    have hsegment : '/' ∉ segment.toList :=
      Reference.notMem_of_mem_segments (List.mem_of_getElem? hk)
    have hlength : (r.segments.take k).length = k := List.length_take_of_le hlt.le
    have hcrumbs : l.breadcrumbs r = l.crumbsFrom "" (r.segments.take k) ++
        l.crumb segment (r.segments.take k ++ [segment]) ::
          l.crumbsFrom (crumbPath (r.segments.take k ++ [segment])) (r.segments.drop (k + 1)) := by
      have happend := crumbsFrom_append (l := l) hfront [] (segment :: r.segments.drop (k + 1))
      rw [← hsplit, List.nil_append, crumbsFrom_cons hsegment] at happend
      exact happend
    rw [hcrumbs, List.getElem?_append_right (by rw [length_crumbsFrom, hlength]),
      length_crumbsFrom, hlength, Nat.sub_self, List.take_add_one, hk]
    rfl

/-- The way to a location that is not the root ends at its view, right after that of its parent. -/
theorem trail_ends (hroot : l.reference.isRoot = false) (habsolute : l.reference.isAbsolute = false) :
    ∃ front before last, l.trail = front ++ [before, last] ∧
      last.url = l.viewUrl ∧ before.url = l.parentViewUrl ∧
      (l.reference.segments.length = 1 → before = ⟨rootLabel, "", l.page⟩) := by
  have hsegments : ∀ s ∈ l.reference.segments, '/' ∉ s.toList :=
    fun s => Reference.notMem_of_mem_segments
  have hview : l.resourceViewUrl ⟨crumbPath l.reference.segments⟩ = l.viewUrl := by
    rw [Reference.crumbPath_segments habsolute, viewUrl]
  have hparentView : l.resourceViewUrl ⟨crumbPath l.reference.segments.dropLast⟩ = l.parentViewUrl := by
    rw [Reference.crumbPath_dropLast habsolute, parentViewUrl]
  rw [trail, breadcrumbs]
  rcases List.eq_nil_or_concat' l.reference.segments with hnil | ⟨front, last, hconcat⟩
  · have hself := l.reference.ofSegments_segments
    rw [hnil] at hself
    rw [← hself] at hroot
    cases hroot
  rw [hconcat] at hsegments hview hparentView ⊢
  rw [List.dropLast_concat] at hparentView
  rw [crumbsFrom_concat hsegments]
  -- The parent is the root if nothing stands before the last segment.
  rcases List.eq_nil_or_concat' front with rfl | ⟨front, before, rfl⟩
  · refine ⟨[], ⟨rootLabel, "", l.page⟩, l.crumb last ([] ++ [last]), rfl, ?_, ?_, fun _ => rfl⟩
    · rw [url_crumb, hview]
    · rw [← hparentView]
      exact l.resourceViewUrl_root.symm
  · refine ⟨⟨rootLabel, "", l.page⟩ :: l.crumbsFrom "" front, l.crumb before (front ++ [before]),
      l.crumb last (front ++ [before] ++ [last]), ?_, ?_, ?_, fun hone => ?_⟩
    · rw [crumbsFrom_concat fun s hs => hsegments s (List.mem_append_left _ hs)]
      simp
    · rw [url_crumb, hview]
    · rw [url_crumb, hparentView]
    · simp at hone

/-- The way to a reference has a crumb for each segment, with the segments as labels.  Each leads to
the ancestor that has the segments up to its own, without the slashes at its start.  So the way to a
location ends at the view of the location, right after the view of its parent. -/
theorem crumbs_lead (l : Location) (r : Reference) :
    (l.breadcrumbs r).length = r.segments.length ∧
      "/".intercalate ((l.breadcrumbs r).map (·.label)) = r.text ∧
      (∀ k crumb, (l.breadcrumbs r)[k]? = some crumb →
        crumb.path =
            (Reference.relative (Reference.parent^[r.segments.length - (k + 1)] r).text).text ∧
          crumb.url = l.resourceViewUrl ⟨crumb.path⟩) ∧
      (l.reference.isRoot = false → l.reference.isAbsolute = false →
        ∃ front before last, l.trail = front ++ [before, last] ∧
          last.url = l.viewUrl ∧ before.url = l.parentViewUrl ∧
          (l.reference.segments.length = 1 → before = ⟨rootLabel, "", l.page⟩)) := by
  refine ⟨length_crumbsFrom _, ?_, fun k crumb hcrumb => ?_, fun hroot habsolute => ?_⟩
  · rw [breadcrumbs, labels_crumbsFrom]
    exact congrArg Reference.text r.ofSegments_segments
  · rw [breadcrumbs_getElem?, Option.map_eq_some_iff] at hcrumb
    obtain ⟨segment, hsegment, rfl⟩ := hcrumb
    obtain ⟨hlt, -⟩ := List.getElem?_eq_some_iff.1 hsegment
    have hk : r.segments.length - (r.segments.length - (k + 1)) = k + 1 := by omega
    rw [Reference.iterate_parent, hk]
    constructor
    · rw [crumb, crumbPath]
    · rw [url_crumb, crumb]
  · exact trail_ends hroot habsolute

/-- Empty segments have crumbs as well, here on a page that has resources in its path. -/
theorem crumbs_lead_disk :
    let l : Location := ⟨"webui", ⟨"disks//1/"⟩, .path⟩
    (∃ front before last, l.trail = front ++ [before, last] ∧
      last.url = "webui/disks//1/" ∧ before.url = "webui/disks//1") ∧
    (l.breadcrumbs ⟨"//a//b"⟩)[3]? = some ⟨"", "a/", "webui/a/"⟩ ∧
      "a/" = (Reference.relative (Reference.parent ⟨"//a//b"⟩).text).text := by
  intro l
  obtain ⟨-, -, hcrumb, htrail⟩ := crumbs_lead l ⟨"//a//b"⟩
  obtain ⟨front, before, last, hends, hlast, hbefore, -⟩ := htrail (by decide) (by decide)
  have hthird : (l.breadcrumbs ⟨"//a//b"⟩)[3]? = some ⟨"", "a/", "webui/a/"⟩ := by decide
  exact ⟨⟨front, before, last, hends, hlast.trans (by decide), hbefore.trans (by decide)⟩,
    hthird, (hcrumb 3 _ hthird).1⟩

end Location

end Cimi
