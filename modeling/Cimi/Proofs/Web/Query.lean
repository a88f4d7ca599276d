import Cimi.Proofs.Text.Percent
import Cimi.Web.Fields
import Cimi.Web.View

/-!
# Values in queries and forms

What follows the first `?` of a URL is cut at each `&` into parts.  A value that is added to a URL is
one more part after all others, which stay as they are (`queryParts_withQuery`), so it is one more
pair (`queryPairs_withQuery`).  Named values that are sent with escapes are read back as they were
(`formPairs_writeFields`), so every form can be sent (`Form.parse_body`).
-/

namespace Cimi.Web

variable {url key value : String}

/-- What stands before the first `?` of a URL. -/
def beforeQuery (url : String) : List Char :=
  ((Text.cutFirst '?' url.toList).map (·.1)).getD url.toList

/-- The parts of what follows the first `?` of a URL. -/
def queryParts (url : String) : List (List Char) :=
  ((Text.cutFirst '?' url.toList).map fun (_, query) => Text.split '&' query).getD []

/-- The pairs in what follows the first `?` of a URL. -/
def queryPairs (url : String) : List (String × String) :=
  ((Text.cutFirst '?' url.toList).map fun (_, query) => Text.Percent.formPairs query).getD []

/-- The part that gives a value to a key. -/
def queryPart (key value : String) : List Char :=
  key.toList ++ '=' :: Text.Percent.encode value.toList

theorem notMem_encode {c : Char} (hc : Text.Percent.isUnreserved c = false) (hmark : c ≠ '%')
    (cs : List Char) : c ∉ Text.Percent.encode cs := by
  intro h
  rcases Text.Percent.mem_encode h with h | h
  · rw [hc] at h
    cases h
  · exact hmark h

theorem toList_withQuery (url key value : String) :
    (withQuery url key value).toList =
      url.toList ++ (if '?' ∈ url.toList then '&' else '?') :: queryPart key value := by
  unfold withQuery queryPart encodeQueryValue
  split_ifs <;> simp

theorem cutFirst_withQuery (url key value : String) :
    Text.cutFirst '?' (withQuery url key value).toList =
      match Text.cutFirst '?' url.toList with
      | some (before, query) => some (before, query ++ '&' :: queryPart key value)
      | none => some (url.toList, queryPart key value) := by
  rw [toList_withQuery]
  rcases h : Text.cutFirst '?' url.toList with _ | ⟨before, query⟩
  · have hnone : '?' ∉ url.toList := Text.cutFirst_eq_none.1 h
    rw [if_neg hnone, Text.cutFirst_append hnone]
  · obtain ⟨hurl, hbefore⟩ := Text.cutFirst_eq_some h
    rw [if_pos (by rw [hurl]; simp), hurl, List.append_assoc, List.cons_append,
      Text.cutFirst_append hbefore]

theorem beforeQuery_withQuery (url key value : String) :
    beforeQuery (withQuery url key value) = beforeQuery url := by
  rw [beforeQuery, beforeQuery, cutFirst_withQuery]
  rcases Text.cutFirst '?' url.toList with _ | ⟨before, query⟩ <;> rfl

theorem notMem_queryPart (hkey : '&' ∉ key.toList) (value : String) :
    '&' ∉ queryPart key value := by
  intro h
  rcases List.mem_append.1 h with h | h
  · exact hkey h
  · rcases List.mem_cons.1 h with h | h
    · exact absurd h (by decide)
    · exact notMem_encode (by decide) (by decide) _ h

/-- A value that is added to a URL is one more part of its query. -/
theorem queryParts_withQuery (hkey : '&' ∉ key.toList) (url value : String) :
    queryParts (withQuery url key value) = queryParts url ++ [queryPart key value] := by
  have hpart := notMem_queryPart hkey value
  rw [queryParts, queryParts, cutFirst_withQuery]
  rcases Text.cutFirst '?' url.toList with _ | ⟨before, query⟩
  · simp [Text.split_of_notMem hpart]
  · simp [Text.split_append, Text.split_of_notMem hpart]

theorem formPairs_append (as bs : List Char) :
    Text.Percent.formPairs (as ++ '&' :: bs) =
      Text.Percent.formPairs as ++ Text.Percent.formPairs bs := by
  simp only [Text.Percent.formPairs, Text.split_append, List.filter_append, List.map_append]

/-- A key that needs no escape is read back, and so is its value. -/
theorem formPairs_queryPart (hkey : '&' ∉ key.toList ∧ '=' ∉ key.toList)
    (hplain : Text.Percent.decodeFormPart key.toList = key.toList) (value : String) :
    Text.Percent.formPairs (queryPart key value) = [(key, value)] := by
  have hfull : [queryPart key value].filter (!·.isEmpty) = [queryPart key value] := by
    simp [queryPart]
  have hcut := Text.cutFirst_append hkey.2 (Text.Percent.encode value.toList)
  rw [Text.Percent.formPairs, Text.split_of_notMem (notMem_queryPart hkey.1 value),
    hfull, List.map_singleton, queryPart, hcut]
  simp only [Option.getD_some, hplain, Text.Percent.decodeFormPart_encode, String.ofList_toList]

/-- A value that is added to a URL is one more pair of its query. -/
theorem queryPairs_withQuery (hkey : '&' ∉ key.toList ∧ '=' ∉ key.toList)
    (hplain : Text.Percent.decodeFormPart key.toList = key.toList) (url value : String) :
    queryPairs (withQuery url key value) = queryPairs url ++ [(key, value)] := by
  rw [queryPairs, queryPairs, cutFirst_withQuery]
  rcases Text.cutFirst '?' url.toList with _ | ⟨before, query⟩
  · exact formPairs_queryPart hkey hplain value
  · simp only [Option.map_some, Option.getD_some, formPairs_append,
      formPairs_queryPart hkey hplain]

/-! ## Forms -/

/-- A named value as it is sent. -/
def writeField (field : String × String) : List Char :=
  Text.Percent.encode field.1.toList ++ '=' :: Text.Percent.encode field.2.toList

/-- Named values as they are sent. -/
def writeFields (fields : List (String × String)) : String :=
  String.ofList (['&'].intercalate (fields.map writeField))

theorem notMem_writeField (field : String × String) : '&' ∉ writeField field := by
  intro h
  rcases List.mem_append.1 h with h | h
  · exact notMem_encode (by decide) (by decide) _ h
  · rcases List.mem_cons.1 h with h | h
    · exact absurd h (by decide)
    · exact notMem_encode (by decide) (by decide) _ h

theorem formPairs_writeFields (fields : List (String × String)) :
    Text.Percent.formPairs (writeFields fields).toList = fields := by
  have hread (field : String × String) :
      Text.cutFirst '=' (writeField field) = some (Text.Percent.encode field.1.toList,
        Text.Percent.encode field.2.toList) :=
    Text.cutFirst_append (notMem_encode (by decide) (by decide) _) _
  rw [writeFields, String.toList_ofList, Text.Percent.formPairs]
  rcases hfields : fields.map writeField with _ | ⟨piece, pieces⟩
  · rw [List.map_eq_nil_iff.1 hfields]
    rfl
  · have hnot : ∀ piece ∈ fields.map writeField, '&' ∉ piece := by
      intro piece hpiece
      obtain ⟨field, -, rfl⟩ := List.mem_map.1 hpiece
      exact notMem_writeField field
    have hfull : (fields.map writeField).filter (!·.isEmpty) = fields.map writeField := by
      refine List.filter_eq_self.2 fun piece hpiece => ?_
      obtain ⟨field, -, rfl⟩ := List.mem_map.1 hpiece
      simp [writeField]
    rw [← hfields, Text.split_intercalate (by rw [hfields]; exact List.cons_ne_nil _ _) hnot, hfull,
      List.map_map]
    refine (List.map_congr_left fun field _ => ?_).trans (List.map_id fields)
    simp only [Function.comp, hread, Option.getD_some, Text.Percent.decodeFormPart_encode,
      String.ofList_toList]
    rfl

/-- The named values of a form. -/
def Form.fields (form : Form) : List (String × String) :=
  [("reference", form.reference), ("href", form.href), ("name", form.name)] ++
    (form.parent.map ("parent", ·)).toList ++ [("json", form.json)]

/-- A form as it is sent. -/
def Form.body (form : Form) : String := writeFields form.fields

/-- Every form can be sent. -/
theorem Form.parse_body (form : Form) : Form.parse form.body = .ok form := by
  obtain ⟨reference, href, name, parent, json⟩ := form
  have hfields : Fields.parse ["reference", "href", "name", "parent", "json"]
      (Form.body ⟨reference, href, name, parent, json⟩) =
        .ok (Form.fields ⟨reference, href, name, parent, json⟩) := by
    rw [Fields.parse, Form.body, formPairs_writeFields]
    cases parent <;> rfl
  rw [Form.parse, hfields]
  cases parent <;> rfl

end Cimi.Web
