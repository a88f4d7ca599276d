import Cimi.Proofs.Web.Query
import Cimi.Service

/-!
# Filters in the URL of a collection

A server is asked for the members that a filter chooses by the canonical text of the filter, which is
attached to the URL of the collection.  Whatever that text and that URL are, all that the URL has had
stays as it is, and its query gets one more pair, from whose value the text comes back
(`filteredUrl_attaches`).
-/

namespace Cimi

theorem filteredUrl_eq (url : String) (f : Filter) :
    filteredUrl url f = Web.withQuery url "$filter" f.canonical := by
  rw [← String.toList_inj, Web.toList_withQuery, filteredUrl, Web.queryPart, encodeQueryValue]
  split_ifs <;> simp

theorem decode_encodeQueryValue (text : String) :
    Text.Percent.decode (encodeQueryValue text).toList = some text.toList := by
  rw [encodeQueryValue, String.toList_ofList, Text.Percent.decode_encode]

/-- The text of a filter is attached to a URL by a separator and a key, in unreserved characters and
escapes only.  What stands before the query is not changed, nor are the parts that the query has; after
them comes one more, which has the key and a value that stands for the text of the filter.  Every text
comes back from its escapes. -/
theorem filteredUrl_attaches (url : String) (f : Filter) :
    (∃ value, Text.Percent.Escaped value ∧
      (filteredUrl url f).toList =
        url.toList ++ (if '?' ∈ url.toList then '&' else '?') :: ("$filter".toList ++ '=' :: value) ∧
      Web.queryParts (filteredUrl url f) =
        Web.queryParts url ++ ["$filter".toList ++ '=' :: value] ∧
      Text.cutFirst '=' ("$filter".toList ++ '=' :: value) = some ("$filter".toList, value) ∧
      Text.Percent.decode value = some f.canonical.toList) ∧
    Web.beforeQuery (filteredUrl url f) = Web.beforeQuery url ∧
    Web.queryPairs (filteredUrl url f) = Web.queryPairs url ++ [("$filter", f.canonical)] ∧
    ∀ text, Text.Percent.decode (encodeQueryValue text).toList = some text.toList := by
  have hamp : '&' ∉ "$filter".toList := by decide
  have heq : '=' ∉ "$filter".toList := by decide
  have hplain : Text.Percent.decodeFormPart "$filter".toList = "$filter".toList :=
    Text.Percent.decodeFormPart_plain (by simp) (by simp)
  rw [filteredUrl_eq]
  exact ⟨⟨Text.Percent.encode f.canonical.toList, Text.Percent.escaped_encode _,
    Web.toList_withQuery url "$filter" f.canonical, Web.queryParts_withQuery hamp url f.canonical,
    Text.cutFirst_append heq _, Text.Percent.decode_encode _⟩,
    Web.beforeQuery_withQuery url "$filter" f.canonical,
    Web.queryPairs_withQuery ⟨hamp, heq⟩ hplain url f.canonical, decode_encodeQueryValue⟩

example :
    filteredUrl "http://host/api/machines?first=1"
        (.comparison ⟨.attribute (.name "name"), .eq, .literal (.string "web 1&2")⟩) =
      "http://host/api/machines?first=1&$filter=name%3D%27web%201%262%27" := by
  decide

end Cimi
