import Cimi.Document.Collection
import Cimi.Proofs.Json.Lookup
import Cimi.Proofs.Outcome

/-!
# Collections

A collection is read from its count and from the field that holds its members
(`Collection.ofContent_of_itemsField`).  A member is read by the keys of its fields, whatever their
order and whatever else it has (`CollectionEntry.fromValue_of_describes`).

The name of the field is a plural, so it ends with an `s`.  Two names of metadata do so as well
(`mem_metadataKeys_of_itemsField`).
-/

namespace Cimi

variable {typeName field : String}

/-! ## The field of the members -/

/-- The content has no field whose name is one of metadata. -/
theorem Document.get?_content (d : Document) (key : String) :
    (Partition.ofDocument d).content.get? key =
      if key ∈ metadataKeys then none else d.fields.get? key := by
  rw [Partition.ofDocument, Json.Members.get?_filter fun k => !isMetadataKey k]
  by_cases hk : key ∈ metadataKeys <;> simp [isMetadataKey, hk]

theorem getLast?_plural (word : List Char) : (plural word).getLast? = some 's' := by
  unfold plural
  split_ifs
  · simp
  · split
    · split_ifs <;> simp
    · simp

theorem getLast?_of_itemsField (h : itemsField? typeName = some field) :
    field.toList.getLast? = some 's' := by
  unfold itemsField? at h
  split at h
  · cases h
    rw [String.toList_ofList, getLast?_plural]
  · cases h

theorem mem_metadataKeys_of_itemsField (h : itemsField? typeName = some field) :
    field ∈ Document.metadataKeys ↔ field = "operations" ∨ field = "properties" := by
  have hlast := getLast?_of_itemsField h
  constructor
  · intro hmem
    simp only [Document.metadataKeys, List.mem_cons, List.not_mem_nil, or_false] at hmem
    rcases hmem with rfl | rfl | rfl | rfl | rfl | rfl | rfl | rfl | rfl | rfl
    all_goals first
      | exact .inl rfl
      | exact .inr rfl
      | exact absurd hlast (by decide)
  · rintro (rfl | rfl) <;> decide

/-- A type whose members have a field is that of a collection. -/
theorem ofTypeName_of_itemsField (h : itemsField? typeName = some field) :
    Kind.ofTypeName typeName = .collection := by
  have hentry : typeName ≠ Kind.entryPointType := by
    rintro rfl
    have hnone : itemsField? Kind.entryPointType = none := by decide
    rw [hnone] at h
    cases h
  have hending : Kind.collectionEnding.toList.isSuffixOf typeName.toList = true := by
    unfold itemsField? at h
    split at h
    · next hmember =>
      simp only [memberType?] at hmember
      split_ifs at hmember with hsuffix
      exact hsuffix
    · cases h
  rw [Kind.ofTypeName, if_neg hentry, if_pos hending]

/-! ## Members -/

/-- What a field says that may be missing. -/
inductive Json.Says? : Option Json.Value → Option String → Prop
  | text (s : String) : Says? (some (.string s)) (some s)
  | null : Says? (some .null) none
  | missing : Says? none none

namespace CollectionEntry

variable {ms : Json.Members} {e : CollectionEntry} {v : Json.Value}

/-- An object describes a member if it has the texts of the member under their keys, whatever else it
has. -/
inductive Describes : Json.Value → CollectionEntry → Prop
  | object {ms : Json.Members} {e : CollectionEntry} (keys : (ms.map (·.1)).Nodup)
    (id : ms.get? "id" = some (.string e.id)) (name : Json.Says? (ms.get? "name") e.name)
    (description : Json.Says? (ms.get? "description") e.description) : Describes (.object ms) e

/-- What is known of the texts of a member once the fields of an object have been read. -/
def Texts.after (ms : Json.Members) (b : Texts) : Texts :=
  ((ms.get? "id").elim b.1 Json.Value.string?, (ms.get? "name").elim b.2.1 Json.Value.string?,
    (ms.get? "description").elim b.2.2 Json.Value.string?)

/-- Whether a field is a text, if it is one of a member; all but the id may be null. -/
def IsReadable (m : String × Json.Value) : Prop :=
  (m.1 = "id" → ∃ s, m.2 = .string s) ∧
    (m.1 = "name" ∨ m.1 = "description" → m.2 = .null ∨ ∃ s, m.2 = .string s)

/-- A field sets one of the texts, or is passed over. -/
theorem field?_cases {key : String} (h : IsReadable (key, v)) :
    (record.field? key = none ∧ ∀ b ms, Texts.after ((key, v) :: ms) b = b.after ms) ∨
      ∃ f g, record.field? key = some f ∧ f.set.fromValue v = .ok g ∧
        ∀ b ms, Json.Members.get? ms key = none → (g b).after ms = Texts.after ((key, v) :: ms) b := by
  by_cases hid : key = "id"
  · subst hid
    obtain ⟨s, rfl⟩ := h.1 rfl
    refine .inr ⟨_, _, rfl, rfl, fun b ms hnone => ?_⟩
    simp [Texts.after, Json.Members.get?_cons, hnone, Json.Value.string?]
  by_cases hoptional : key = "name" ∨ key = "description"
  · rcases h.2 hoptional with rfl | ⟨s, rfl⟩ <;> rcases hoptional with rfl | rfl
    all_goals
      refine .inr ⟨_, _, rfl, rfl, fun b ms hnone => ?_⟩
      simp [Texts.after, Json.Members.get?_cons, hnone, Json.Value.string?]
  · rw [not_or] at hoptional
    refine .inl ⟨?_, fun b ms => ?_⟩
    · simp [Json.Decoder.Record.field?, record, Ne.symm hid, Ne.symm hoptional.1,
        Ne.symm hoptional.2]
    · simp [Texts.after, Json.Members.get?_cons, hid, hoptional]

theorem fromMembers_record (hkeys : (ms.map (·.1)).Nodup) (htexts : ∀ m ∈ ms, IsReadable m)
    (b : Texts) : record.fromMembers b ms = .ok (b.after ms) := by
  induction ms generalizing b with
  | nil => rfl
  | cons m ms ih =>
    obtain ⟨key, v⟩ := m
    rw [List.map_cons, List.nodup_cons] at hkeys
    obtain ⟨hv, hms⟩ := List.forall_mem_cons.1 htexts
    rw [Json.Decoder.Record.fromMembers]
    rcases field?_cases hv with ⟨hfield, hafter⟩ | ⟨f, g, hfield, hread, hafter⟩
    · simp only [hfield]
      rw [ih hkeys.2 hms, hafter]
    · simp only [hfield, hread]
      rw [ih hkeys.2 hms, hafter _ _ (Json.Members.get?_eq_none_iff.2 hkeys.1)]

theorem says?_elim {o : Option Json.Value} {text : Option String} (h : Json.Says? o text) :
    o.elim none Json.Value.string? = text := by
  cases h <;> rfl

theorem text_of_says? {o : Option Json.Value} {text : Option String} (h : Json.Says? o text)
    (ho : o = some v) : v = .null ∨ ∃ s, v = .string s := by
  cases h <;> cases ho
  · exact .inr ⟨_, rfl⟩
  · exact .inl rfl

theorem fromValue_of_describes (h : Describes v e) : decoder.fromValue v = .ok e := by
  cases h with
  | @object ms e keys id name description =>
    have htexts : ∀ m ∈ ms, IsReadable m := by
      intro m hm
      have hget : ms.get? m.1 = some m.2 := (Json.Members.get?_eq_some_iff keys).2 hm
      refine ⟨fun hk => ?_, ?_⟩
      · rw [hk, id] at hget
        exact ⟨_, (Option.some.inj hget).symm⟩
      · rintro (hk | hk)
        · exact text_of_says? name (hk ▸ hget)
        · exact text_of_says? description (hk ▸ hget)
    change (record.fromMembers (none, none, none) ms).bind record.finish = .ok e
    rw [fromMembers_record keys htexts, Texts.after]
    simp only [id, says?_elim name, says?_elim description]
    rfl

/-- Values that describe members are read as these members. -/
theorem fromValue_list {values : List Json.Value} {es : List CollectionEntry}
    (h : List.Forall₂ Describes values es) :
    (Json.Decoder.list decoder).fromValue (.array values) = .ok es :=
  mapM_ok_iff.2 (h.imp fun _ _ => fromValue_of_describes)

end CollectionEntry

namespace Collection

/-- The members that a field holds, if it is there; without it, a collection that does not count any
has none. -/
def entriesIn (field : String) (count : Option Int) :
    Option Json.Value → Except Malformed (List CollectionEntry)
  | some v => ((Json.Decoder.list CollectionEntry.decoder).fromValue v).mapError fun m =>
    .invalidField field (.mismatch m)
  | none => if count.getD 0 ≤ 0 then .ok [] else .error (.invalidField field .membersMissing)

/-- What a collection is read from: its count, and the field that holds its members. -/
theorem ofContent_of_itemsField (h : itemsField? typeName = some field) (content : Json.Members) :
    ofContent typeName content = do
      let count ← countOfField (content.get? "count")
      let holder := membersField field content
      let entries ← entriesIn holder count (content.get? holder)
      return ⟨count.getD (Int.ofNat entries.length), holder, entries⟩ := by
  unfold ofContent entriesIn
  rw [h]
  rcases countOfField (content.get? "count") with fault | count
  · rfl
  · simp only [bind, Except.bind, Option.elim]
    rcases content.get? (membersField field content) with _ | v
    · simp only
      split_ifs <;> rfl
    · rfl

end Collection

end Cimi
