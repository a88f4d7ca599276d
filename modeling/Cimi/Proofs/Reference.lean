import Cimi.Reference
import Mathlib.Data.List.Basic
import Mathlib.Data.List.TakeWhile

/-!
# References behind URLs

The slashes at the start of a reference say nothing (`Reference.relative`): a reference that has been
resolved is found again behind its URL, but for them (`Endpoint.referenceOf_resolve`).

A server names a resource by the URL of a path below its base (`Endpoint.urlBelow`), with one slash
between the base and the path.  The reference behind such a URL is the path
(`Endpoint.referenceOf_urlBelow`), whether the base ends with a slash or not.  The path is put right
after the base when it is fetched, so the URL comes back only if the slash is that of the base
(`Endpoint.append_eq_urlBelow_iff`).

A URL that is not below the base is a reference already.  It is cut all the same if it goes on where
the base without its slash ends, as the URL of another server may (`Endpoint.referenceOf_foreign`,
`Endpoint.foreign_cut`).
-/

namespace Cimi

namespace Reference

theorem isAbsolute_dropWhile (cs : List Char) :
    (Reference.mk (String.ofList (cs.dropWhile (· = '/')))).isAbsolute = false := by
  have hhead := List.head?_dropWhile_not (· = '/') cs
  refine decide_eq_false fun h => ?_
  rw [String.toList_ofList] at h
  rw [h] at hhead
  simp at hhead

theorem dropWhile_toList {r : Reference} (hr : r.isAbsolute = false) :
    r.text.toList.dropWhile (· = '/') = r.text.toList := by
  rcases h : r.text.toList with _ | ⟨c, cs⟩
  · rfl
  · rw [isAbsolute, h] at hr
    rw [List.dropWhile_cons_of_neg (by simpa using hr)]

theorem isAbsolute_parent {r : Reference} (hr : r.isAbsolute = false) :
    r.parent.isAbsolute = false := by
  unfold parent
  rcases h : Text.cutLast '/' r.text.toList with _ | ⟨before, after⟩
  · rfl
  · obtain ⟨hcs, -⟩ := Text.cutLast_eq_some h
    rw [isAbsolute, hcs] at hr
    cases before with
    | nil => cases hr
    | cons c before => simpa [isAbsolute] using hr

/-- A text as a reference, without the slashes at its start. -/
def relative (text : String) : Reference := ⟨String.ofList (text.toList.dropWhile (· = '/'))⟩

theorem relative_text {r : Reference} (hr : r.isAbsolute = false) : relative r.text = r := by
  rw [relative, dropWhile_toList hr, String.ofList_toList]

theorem isRoot_relative (text : String) :
    (relative text).isRoot = true ↔ ∀ c ∈ text.toList, c = '/' := by
  rw [isRoot, relative, String.toList_ofList, List.isEmpty_iff, List.dropWhile_eq_nil_iff]
  simp only [decide_eq_true_eq]

/-- Only a start that is all slashes is lost. -/
theorem relative_append (front rest : String) : relative (front ++ rest) =
    if (relative front).isRoot then relative rest else ⟨(relative front).text ++ rest⟩ := by
  simp only [relative, isRoot, String.toList_append, List.dropWhile_append, String.toList_ofList]
  split_ifs
  · rfl
  · rw [String.ofList_append, String.ofList_toList]

theorem eq_relative_append_iff {front rest : String} (h : (Reference.mk rest).isAbsolute = false) :
    ⟨rest⟩ = relative (front ++ rest) ↔ ∀ c ∈ front.toList, c = '/' := by
  have hrest : relative rest = ⟨rest⟩ := relative_text h
  rw [relative_append, ← isRoot_relative]
  split_ifs with hslashes
  · exact iff_of_true hrest.symm hslashes
  · -- Both have the same end, so nothing may be left of the start.
    refine iff_of_false (fun heq => hslashes ?_) hslashes
    have htext := congrArg (fun r => r.text.toList) heq
    simpa [isRoot] using htext

end Reference

namespace Endpoint

variable {b : Endpoint} {r : Reference} {url : String}

theorem fetchUrl_of_relative (hr : r.isAbsolute = false) : b.fetchUrl r = b.text ++ r.text :=
  if_neg (of_decide_eq_false hr)

/-- The last character of the base is a slash. -/
def EndsWithSlash (b : Endpoint) : Prop := b.text.toList.getLast? = some '/'

/-- The URL of a path below a base. -/
def urlBelow (b : Endpoint) (path : String) : String := b.withoutSlash ++ "/" ++ path

theorem toList_of_endsWithSlash (h : b.EndsWithSlash) :
    b.text.toList = b.withoutSlash.toList ++ ['/'] := by
  obtain ⟨front, hfront⟩ := List.getLast?_eq_some_iff.1 h
  have hreverse : b.text.toList.reverse = '/' :: front.reverse := by rw [hfront]; simp
  rw [withoutSlash, hreverse]
  simp [hfront]

theorem withoutSlash_of_not (h : ¬b.EndsWithSlash) : b.withoutSlash = b.text := by
  unfold withoutSlash
  split
  · rename_i front hreverse
    refine absurd ?_ h
    rw [EndsWithSlash, ← List.head?_reverse, hreverse]
    rfl
  · rfl

theorem referenceOf_append (b : Endpoint) (path : String) :
    b.referenceOf (b.text ++ path) = .relative path := by
  have hbelow : b.text.toList.isPrefixOf? (b.text ++ path).toList = some path.toList :=
    List.isPrefixOf?_eq_some_iff_append_eq.2 String.toList_append.symm
  rw [referenceOf, hbelow]
  rfl

/-- Every URL that a reference is resolved to starts with the base; of the slashes at the start of
the reference one may have been lost. -/
theorem exists_resolve_eq (b : Endpoint) (href : String) :
    ∃ path, b.resolve href = b.text ++ path ∧ Reference.relative path = .relative href := by
  unfold resolve
  split_ifs with hslash
  · by_cases hb : b.EndsWithSlash
    · obtain ⟨path, hpath⟩ := List.head?_eq_some_iff.1 hslash
      have hhref : href = "/" ++ String.ofList path := by
        rw [← String.toList_inj, hpath]
        simp
      refine ⟨String.ofList path, ?_, ?_⟩
      · rw [← String.toList_inj, hhref]
        simp [toList_of_endsWithSlash hb]
      · rw [hhref, Reference.relative_append, if_pos (by decide)]
    · exact ⟨href, by rw [withoutSlash_of_not hb], rfl⟩
  · exact ⟨href, rfl, rfl⟩

/-- What has been resolved is found again behind its URL, but for the slashes at its start. -/
theorem referenceOf_resolve (b : Endpoint) (href : String) :
    b.referenceOf (b.resolve href) = .relative href := by
  obtain ⟨path, hurl, hpath⟩ := b.exists_resolve_eq href
  rw [hurl, referenceOf_append, hpath]

/-- The reference behind a URL below the base is the path, whichever of the two has the slash. -/
theorem referenceOf_urlBelow (hr : r.isAbsolute = false) : b.referenceOf (b.urlBelow r.text) = r := by
  by_cases hb : b.EndsWithSlash
  · have hurl : b.urlBelow r.text = b.text ++ r.text := by
      rw [← String.toList_inj, urlBelow]
      simp [toList_of_endsWithSlash hb]
    rw [hurl, referenceOf_append, Reference.relative_text hr]
  · rw [urlBelow, withoutSlash_of_not hb, String.append_assoc, referenceOf_append,
      Reference.relative_append, if_pos (by decide), Reference.relative_text hr]

/-- A path right after the base is a URL below the base only if the base ends with a slash. -/
theorem append_eq_urlBelow_iff (b : Endpoint) (path : String) :
    b.text ++ path = b.urlBelow path ↔ b.EndsWithSlash := by
  rw [← String.toList_inj, urlBelow]
  by_cases hb : b.EndsWithSlash
  · simp [hb, toList_of_endsWithSlash hb]
  · simp [hb, withoutSlash_of_not hb]

/-! ## URLs of other servers -/

/-- A URL that is neither below the base nor the base itself without its slash. -/
structure IsForeign (b : Endpoint) (url : String) : Prop where
  notBelow : ¬b.text.toList <+: url.toList
  notBase : url ≠ b.withoutSlash

/-- What goes on where the base without its slash ends does not go on with a slash. -/
theorem IsForeign.isAbsolute_eq_false {rest : String} (h : b.IsForeign (b.withoutSlash ++ rest)) :
    (Reference.mk rest).isAbsolute = false := by
  refine decide_eq_false fun hslash => h.notBelow ?_
  by_cases hb : b.EndsWithSlash
  · obtain ⟨path, hpath⟩ := List.head?_eq_some_iff.1 hslash
    refine ⟨path, ?_⟩
    rw [toList_of_endsWithSlash hb, String.toList_append, hpath, List.append_assoc]
    rfl
  · rw [← withoutSlash_of_not hb, String.toList_append]
    exact List.prefix_append _ _

theorem isPrefixOf?_eq_none {front : List Char} (h : ¬front <+: url.toList) :
    front.isPrefixOf? url.toList = none := by
  rw [← Option.not_isSome_iff_eq_none, List.isSome_isPrefixOf?_eq_isPrefixOf,
    List.isPrefixOf_iff_prefix]
  exact h

theorem IsForeign.referenceOf_append {rest : String} (h : b.IsForeign (b.withoutSlash ++ rest)) :
    b.referenceOf (b.withoutSlash ++ rest) = ⟨rest⟩ := by
  have hbase : b.withoutSlash.toList.isPrefixOf? (b.withoutSlash ++ rest).toList = some rest.toList :=
    List.isPrefixOf?_eq_some_iff_append_eq.2 String.toList_append.symm
  rw [referenceOf, isPrefixOf?_eq_none h.notBelow, hbase]
  exact Reference.relative_text h.isAbsolute_eq_false

/-- A foreign URL stays whole exactly if it does not go on where the base without its slash ends, or
if that base is nothing but slashes.  Else the reference is what follows that base. -/
theorem referenceOf_foreign (h : b.IsForeign url) :
    (b.referenceOf url = .relative url ↔
        ¬b.withoutSlash.toList <+: url.toList ∨ ∀ c ∈ b.withoutSlash.toList, c = '/') ∧
      ∀ rest, url = b.withoutSlash ++ rest → b.referenceOf url = ⟨rest⟩ := by
  constructor
  · by_cases hbase : b.withoutSlash.toList <+: url.toList
    · obtain ⟨rest, hrest⟩ := hbase
      obtain rfl : url = b.withoutSlash ++ String.ofList rest := by
        rw [← String.toList_inj, ← hrest]
        simp
      rw [h.referenceOf_append, Reference.eq_relative_append_iff h.isAbsolute_eq_false]
      simp
    · refine iff_of_true ?_ (.inl hbase)
      rw [referenceOf, isPrefixOf?_eq_none h.notBelow, isPrefixOf?_eq_none hbase]
      rfl
  · rintro rest rfl
    exact h.referenceOf_append

/-- The URL of another server stays whole. -/
theorem referenceOf_foreign_server :
    IsForeign ⟨"http://host/api/"⟩ "http://other/api/disk/1" ∧
      referenceOf ⟨"http://host/api/"⟩ "http://other/api/disk/1" = ⟨"http://other/api/disk/1"⟩ := by
  have h : IsForeign ⟨"http://host/api/"⟩ "http://other/api/disk/1" := ⟨by decide, by decide⟩
  exact ⟨h, (referenceOf_foreign h).1.2 (.inl (by decide))⟩

/-- Every foreign URL stays whole if the base ends with a slash. -/
def KeepsForeign : Prop :=
  ∀ b url, EndsWithSlash b → b.IsForeign url → b.referenceOf url = .relative url

/-- A URL whose path only starts like the base is cut within a name. -/
theorem foreign_cut : ¬KeepsForeign := by
  intro h
  have hforeign : IsForeign ⟨"http://host/api/"⟩ "http://host/api2/disk/1" :=
    ⟨by decide, by decide⟩
  have hwhole := h ⟨"http://host/api/"⟩ "http://host/api2/disk/1" rfl hforeign
  have hcut : referenceOf ⟨"http://host/api/"⟩ "http://host/api2/disk/1" = ⟨"2/disk/1"⟩ := by
    decide
  rw [hcut] at hwhole
  exact absurd hwhole (by decide)

end Endpoint

end Cimi
