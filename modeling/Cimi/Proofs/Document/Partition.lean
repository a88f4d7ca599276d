import Cimi.Document.Basic
import Cimi.Proofs.Json.Keyed
import Mathlib

/-!
# The two halves of a document

A document with each key once, as every text spells it (`Document.nodup_of_parse`), is parted into
metadata and content without loss (`Partition.splits_ofDocument`).  To join the halves again, each key
in turn is taken out of its half.  What is left then are the halves of the fields that are still to
come (`Partition.take_halves`), so the fields come back in their order (`Partition.joinInto_halves`).
-/

namespace Cimi

theorem Document.nodup_of_parse {text : String} {d : Document} (h : parse text = .ok d) :
    (d.fields.map (·.1)).Nodup := by
  unfold parse at h
  rcases hv : Json.parse text with e | v <;> rw [hv] at h
  · cases h
  · have hd := of_mapError_eq_ok h
    unfold ofValue at hd
    split at hd
    · cases hd
      obtain ⟨hkeyed, -⟩ := Json.parse_keyed hv
      rw [Json.Value.all, Bool.and_eq_true] at hkeyed
      exact of_decide_eq_true hkeyed.1
    · cases hd

namespace Partition

variable {d : Document} {fields rest : Json.Members} {key : String} {value : Json.Value}

/-- The halves of fields that are left over, with the order of all. -/
def halves (fields : Json.Members) (order : List String) : Partition where
  metadata := fields.filter fun m => Document.isMetadataKey m.1
  content := fields.filter fun m => !Document.isMetadataKey m.1
  order := order

theorem ofDocument_eq_halves (d : Document) :
    ofDocument d = halves d.fields (d.fields.map (·.1)) := rfl

/-! ## Joining -/

theorem remove_of_notMem (h : key ∉ fields.map (·.1)) : fields.remove key = fields := by
  refine List.filter_eq_self.2 fun m hm => decide_eq_true fun he => h ?_
  rw [← he]
  exact List.mem_map_of_mem hm

theorem get?_remove_cons (value : Json.Value) (h : key ∉ rest.map (·.1)) :
    Json.Members.get? ((key, value) :: rest) key = some value ∧
      Json.Members.remove key ((key, value) :: rest) = rest := by
  constructor
  · rw [Json.Members.get?, List.lookup_cons, beq_self_eq_true]
  · rw [Json.Members.remove, List.filter_cons_of_neg (by simp)]
    exact remove_of_notMem h

theorem notMem_filter (p : String × Json.Value → Bool) (h : key ∉ rest.map (·.1)) :
    key ∉ (rest.filter p).map (·.1) :=
  fun hmem => h ((List.filter_sublist.map _).subset hmem)

/-- When the first key is taken out, the halves of the other fields are left. -/
theorem take_halves (h : key ∉ rest.map (·.1)) (order : List String) :
    (halves ((key, value) :: rest) order).take key = (some value, halves rest order) := by
  unfold take
  -- The field is the first of its half, and the other half does not have it.
  by_cases hk : Document.isMetadataKey key = true
  · have hmetadata : (halves ((key, value) :: rest) order).metadata =
        (key, value) :: (halves rest order).metadata := by simp [halves, hk]
    have hcontent : (halves ((key, value) :: rest) order).content = (halves rest order).content :=
      by simp [halves, hk]
    obtain ⟨hget, hremove⟩ := get?_remove_cons value (notMem_filter _ h)
    rw [if_pos hk, hmetadata, hcontent]
    exact Prod.ext hget (congrArg (Partition.mk · _ _) hremove)
  · have hmetadata : (halves ((key, value) :: rest) order).metadata = (halves rest order).metadata :=
      by simp [halves, hk]
    have hcontent : (halves ((key, value) :: rest) order).content =
        (key, value) :: (halves rest order).content := by simp [halves, hk]
    obtain ⟨hget, hremove⟩ := get?_remove_cons value (notMem_filter _ h)
    rw [if_neg hk, hmetadata, hcontent]
    exact Prod.ext hget (congrArg (Partition.mk _ · _) hremove)

/-- The fields that are left over come after those that have been joined. -/
theorem joinInto_halves (order : List String) : ∀ {rest fields : Json.Members},
    ((fields ++ rest).map (·.1)).Nodup →
      joinInto fields (halves rest order) (rest.map (·.1)) = fields ++ rest
  | [], fields, _ => (List.append_nil fields).symm
  | (key, value) :: rest, fields, h => by
    have hnodup : ((fields ++ [(key, value)] ++ rest).map (·.1)).Nodup := by
      simpa using h
    rw [List.map_append, List.map_cons, List.nodup_append] at h
    obtain ⟨-, hrest, hapart⟩ := h
    have hnew : key ∉ fields.map (·.1) := fun hmem => hapart key hmem key List.mem_cons_self rfl
    rw [List.map_cons, joinInto, take_halves (List.nodup_cons.1 hrest).1]
    simp only
    rw [Json.Members.put_of_notMem hnew, joinInto_halves order hnodup, List.append_assoc]
    rfl

theorem join_ofDocument (h : (d.fields.map (·.1)).Nodup) : (ofDocument d).join = d := by
  rw [join, ofDocument_eq_halves]
  exact congrArg Document.mk (joinInto_halves _ h)

/-! ## Sorting -/

theorem sortedContent_perm (p : Partition) : p.sortedContent.Perm p.content :=
  List.mergeSort_perm _ _

/-- Keys that differ from each other are sorted strictly. -/
theorem pairwise_sortedContent {p : Partition} (h : (p.content.map (·.1)).Nodup) :
    p.sortedContent.Pairwise fun a b => a.1.toList < b.1.toList := by
  have hle : p.sortedContent.Pairwise fun a b => keyLe a b = true := by
    refine List.pairwise_mergeSort (fun a b c hab hbc => ?_) (fun a b => ?_) _
    · exact decide_eq_true (le_trans (of_decide_eq_true hab) (of_decide_eq_true hbc))
    · simpa [keyLe] using le_total a.1 b.1
  have hne : (p.sortedContent.map (·.1)).Nodup :=
    (p.sortedContent_perm.map _).nodup_iff.2 h
  refine (hle.and (List.pairwise_map.1 hne)).imp fun {a b} hab => ?_
  exact String.lt_iff_toList_lt.1 (lt_of_le_of_ne (of_decide_eq_true hab.1) hab.2)

/-! ## The halves together -/

/-- How the two halves of a document stand to it.  Keys are sorted by the code points of their
characters. -/
structure Splits (d : Document) (p : Partition) : Prop where
  metadata : ∀ m, m ∈ p.metadata ↔ m ∈ d.fields ∧ m.1 ∈ Document.metadataKeys
  content : ∀ m, m ∈ p.content ↔ m ∈ d.fields ∧ m.1 ∉ Document.metadataKeys
  disjoint : ∀ m ∈ p.metadata, ∀ n ∈ p.content, m.1 ≠ n.1
  total : (p.metadata ++ p.content).Perm d.fields
  ordered : p.metadata.Sublist d.fields ∧ p.content.Sublist d.fields
  sorted : p.sortedContent.Perm p.content ∧
    p.sortedContent.Pairwise fun a b => a.1.toList < b.1.toList
  joined : p.join = d

theorem splits_ofDocument (h : (d.fields.map (·.1)).Nodup) : Splits d (ofDocument d) where
  metadata m := by simp [ofDocument, Document.isMetadataKey]
  content m := by simp [ofDocument, Document.isMetadataKey]
  disjoint m hm n hn he := by
    have hmeta := (List.mem_filter.1 hm).2
    have hcontent := (List.mem_filter.1 hn).2
    rw [he] at hmeta
    rw [hmeta] at hcontent
    cases hcontent
  total := List.filter_append_perm _ _
  ordered := ⟨List.filter_sublist, List.filter_sublist⟩
  sorted := ⟨sortedContent_perm _,
    pairwise_sortedContent (h.sublist (List.filter_sublist.map _))⟩
  joined := join_ofDocument h

/-- Metadata stands between content, and the keys of the content are out of order. -/
theorem splits_disk :
    ∃ d, Document.parse
        "\x7b\"zeta\":1,\"id\":\"a\",\"alpha\":2,\"name\":\"n\",\"Beta\":null\x7d" = .ok d ∧
      Splits d (ofDocument d) ∧
      (ofDocument d).sortedContent.map (·.1) = ["Beta", "alpha", "zeta"] := by
  refine ⟨⟨[("zeta", .number (.int 1)), ("id", .string "a"), ("alpha", .number (.int 2)),
    ("name", .string "n"), ("Beta", .null)]⟩, by cbv, splits_ofDocument (by decide), by cbv⟩

end Partition

end Cimi
