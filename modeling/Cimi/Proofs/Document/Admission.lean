import Cimi.Proofs.Document.Collection
import Cimi.Proofs.Json.Inside

/-!
# What is read as a collection

A value is read as a member exactly if it is an object with the texts of the member, or a list of
these texts in their order (`CollectionEntry.fromValue_ok_iff`).  A collection is read exactly if its
type names its members, its count is an integer that fits or is not given, and the field that holds
its members is a list of such values, or is missing while no members are counted
(`Collection.ofContent_ok_iff`).  Of a document that passes for a collection it is said that its type
is no collection's only if the type does not name any members (`Collection.ofContent_reads`).
-/

namespace Cimi

variable {typeName derived field : String} {content : Json.Members}

/-! ## Types of collections -/

theorem isSuffixOf_collectionEnding_iff :
    Kind.collectionEnding.toList.isSuffixOf typeName.toList = true ↔
      ∃ name, typeName = name ++ "Collection" := by
  rw [List.isSuffixOf_iff_suffix]
  constructor
  · rintro ⟨name, hname⟩
    refine ⟨String.ofList name, String.toList_inj.1 ?_⟩
    rw [← hname, String.toList_append, String.toList_ofList]
    rfl
  · rintro ⟨name, rfl⟩
    exact ⟨name.toList, String.toList_append.symm⟩

theorem memberType?_append (name : String) :
    memberType? (name ++ "Collection") = some name.toList := by
  unfold memberType?
  rw [if_pos (isSuffixOf_collectionEnding_iff.2 ⟨name, rfl⟩), String.toList_append]
  simp [Kind.collectionEnding]

theorem exists_of_ofTypeName (h : Kind.ofTypeName typeName = .collection) :
    ∃ name, typeName = name ++ "Collection" := by
  unfold Kind.ofTypeName at h
  split_ifs at h with hentry hending
  exact isSuffixOf_collectionEnding_iff.1 hending

theorem itemsField?_append_eq_none_iff (name : String) :
    itemsField? (name ++ "Collection") = none ↔ name = "" := by
  rw [itemsField?, memberType?_append, ← String.toList_eq_nil_iff]
  rcases name.toList with _ | ⟨first, rest⟩
  · exact iff_of_true rfl rfl
  · exact iff_of_false nofun nofun

/-- The types of collections are those that name something before their ending. -/
theorem exists_itemsField_iff :
    (∃ field, itemsField? typeName = some field) ↔
      ∃ name, name ≠ "" ∧ typeName = name ++ "Collection" := by
  constructor
  · rintro ⟨field, hfield⟩
    obtain ⟨name, rfl⟩ := exists_of_ofTypeName (ofTypeName_of_itemsField hfield)
    refine ⟨name, fun hname => ?_, rfl⟩
    rw [(itemsField?_append_eq_none_iff name).2 hname] at hfield
    cases hfield
  · rintro ⟨name, hname, rfl⟩
    exact Option.ne_none_iff_exists'.1 (mt (itemsField?_append_eq_none_iff name).1 hname)

/-! ## Members -/

namespace CollectionEntry

variable {v : Json.Value} {e : CollectionEntry} {ms : Json.Members} {b : Texts}

theorem string_ok_iff {s : String} : Json.Decoder.string.fromValue v = .ok s ↔ v = .string s := by
  cases v <;> simp [Json.Decoder.string]

theorem text_ok_iff {text : Option String} :
    (Json.Decoder.nullable .string).fromValue v = .ok text ↔ Json.Says? (some v) text := by
  constructor
  · intro h
    cases v with
    | null =>
      cases h
      exact .null
    | string s =>
      cases h
      exact .text s
    | _ => cases h
  · rintro (_ | _) <;> rfl

/-- What is read as a member: an object that describes it, or a list of its texts. -/
inductive IsRead : Json.Value → CollectionEntry → Prop
  | object {v : Json.Value} {e : CollectionEntry} (h : Describes v e) : IsRead v e
  | list {id : String} {texts : List Json.Value} {name description : Option String}
    (few : texts.length ≤ 2) (hname : Json.Says? texts[0]? name)
    (hdescription : Json.Says? texts[1]? description) :
    IsRead (.array (.string id :: texts)) ⟨id, name, description⟩

/-- A field that can be read is a text, or null if it may be missing. -/
theorem isReadable_of_field? {key : String}
    (h : ∀ f, record.field? key = some f → ∃ g, f.set.fromValue v = .ok g) :
    IsReadable (key, v) := by
  constructor
  · rintro rfl
    obtain ⟨g, hg⟩ := h _ rfl
    obtain ⟨s, hs, -⟩ := of_map_eq_ok hg
    exact ⟨s, string_ok_iff.1 hs⟩
  · rintro (rfl | rfl)
    all_goals
      obtain ⟨g, hg⟩ := h _ rfl
      obtain ⟨text, htext, -⟩ := of_map_eq_ok hg
      exact text_of_says? (text_ok_iff.1 htext) rfl

theorem isReadable_of_fromMembers {b' : Texts} (h : record.fromMembers b ms = .ok b') :
    ∀ m ∈ ms, IsReadable m := by
  induction ms generalizing b with
  | nil => exact fun m hm => absurd hm List.not_mem_nil
  | cons m ms ih =>
    obtain ⟨key, v⟩ := m
    rw [Json.Decoder.Record.fromMembers] at h
    rw [List.forall_mem_cons]
    rcases hfield : record.field? key with _ | f <;> simp only [hfield] at h
    · exact ⟨isReadable_of_field? (by simp [hfield]), ih h⟩
    · rcases hread : f.set.fromValue v with fault | g <;> simp only [hread] at h
      · cases h
      · refine ⟨isReadable_of_field? fun f' hf' => ?_, ih h⟩
        rw [hfield] at hf'
        cases hf'
        exact ⟨g, hread⟩

theorem says?_of_isReadable {key : String} (hkey : key = "name" ∨ key = "description")
    (hkeys : (ms.map (·.1)).Nodup) (htexts : ∀ m ∈ ms, IsReadable m) :
    Json.Says? (ms.get? key) ((ms.get? key).elim none Json.Value.string?) := by
  rcases hget : ms.get? key with _ | v
  · exact .missing
  · have hmem := (Json.Members.get?_eq_some_iff hkeys).1 hget
    rcases (htexts _ hmem).2 hkey with rfl | ⟨s, rfl⟩
    · exact .null
    · exact .text s

theorem describes_of_fromValue (hkeys : (ms.map (·.1)).Nodup)
    (h : decoder.fromValue (.object ms) = .ok e) : Describes (.object ms) e := by
  obtain ⟨b, hb, hfinish⟩ := of_bind_eq_ok h
  have htexts := isReadable_of_fromMembers hb
  rw [fromMembers_record hkeys htexts] at hb
  cases hb
  obtain ⟨id, hid, he⟩ := of_bind_eq_ok hfinish
  cases he
  refine .object hkeys ?_ (says?_of_isReadable (.inl rfl) hkeys htexts)
    (says?_of_isReadable (.inr rfl) hkeys htexts)
  rcases hget : ms.get? "id" with _ | v
  · rw [Texts.after, hget] at hid
    cases hid
  · obtain ⟨s, rfl⟩ := (htexts _ ((Json.Members.get?_eq_some_iff hkeys).1 hget)).1 rfl
    rw [Texts.after, hget] at hid
    cases hid
    rfl

theorem of_fromItems_cons {length taken : Nat} {f : Json.Decoder.Field Texts}
    {fs : List (Json.Decoder.Field Texts)} {b' : Texts} {vs : List Json.Value}
    (h : record.fromItems length taken (f :: fs) b (v :: vs) = .ok b') :
    ∃ g, f.set.fromValue v = .ok g ∧ record.fromItems length (taken + 1) fs (g b) vs = .ok b' := by
  rw [Json.Decoder.Record.fromItems] at h
  rcases hread : f.set.fromValue v with fault | g <;> simp only [hread] at h
  · cases h
  · exact ⟨g, rfl, h⟩

theorem isRead_of_fromItems {items : List Json.Value}
    (h : decoder.fromValue (.array items) = .ok e) : IsRead (.array items) e := by
  obtain ⟨b, hb, hfinish⟩ := of_bind_eq_ok h
  rcases items with _ | ⟨first, texts⟩
  · cases hb
  obtain ⟨g, hg, hb⟩ := of_fromItems_cons hb
  obtain ⟨id, hid, rfl⟩ := of_map_eq_ok hg
  rw [string_ok_iff] at hid
  subst hid
  -- What follows the id are up to two texts, which may be null.
  rcases texts with _ | ⟨name, texts⟩
  · cases hb
    cases hfinish
    exact .list (Nat.zero_le 2) .missing .missing
  obtain ⟨g, hg, hb⟩ := of_fromItems_cons hb
  obtain ⟨name?, hname, rfl⟩ := of_map_eq_ok hg
  rcases texts with _ | ⟨description, texts⟩
  · cases hb
    cases hfinish
    exact .list (Nat.le_succ 1) (text_ok_iff.1 hname) .missing
  obtain ⟨g, hg, hb⟩ := of_fromItems_cons hb
  obtain ⟨description?, hdescription, rfl⟩ := of_map_eq_ok hg
  rcases texts with _ | ⟨more, texts⟩
  · cases hb
    cases hfinish
    exact .list (Nat.le_refl 2) (text_ok_iff.1 hname) (text_ok_iff.1 hdescription)
  · cases hb

theorem fromValue_of_isRead (h : IsRead v e) : decoder.fromValue v = .ok e := by
  cases h with
  | object h => exact fromValue_of_describes h
  | @list id texts name? description? few name description =>
    rcases texts with _ | ⟨name', _ | ⟨description', _ | ⟨more, texts⟩⟩⟩
    · cases name
      cases description
      rfl
    · cases description
      rcases name with _ | _ <;> rfl
    · rcases name with _ | _ <;> rcases description with _ | _ <;> rfl
    · simp at few

/-- A value is read as a member exactly if it has the texts of the member, by key or in order. -/
theorem fromValue_ok_iff (h : v.isKeyed = true) : decoder.fromValue v = .ok e ↔ IsRead v e := by
  cases v with
  | object ms =>
    exact ⟨fun hread => .object (describes_of_fromValue (of_decide_eq_true h) hread),
      fromValue_of_isRead⟩
  | array items => exact ⟨isRead_of_fromItems, fromValue_of_isRead⟩
  | _ => exact ⟨nofun, fromValue_of_isRead⟩

theorem fromValue_entries_ok_iff {values : List Json.Value} {es : List CollectionEntry}
    (h : ∀ v ∈ values, v.isKeyed = true) :
    (Json.Decoder.list decoder).fromValue (.array values) = .ok es ↔
      List.Forall₂ IsRead values es := by
  refine Iff.trans mapM_ok_iff ⟨fun hread => ?_, fun hread => ?_⟩
  · exact ((List.forall₂_and_left _ _).2 ⟨h, hread⟩).imp fun v e hv => (fromValue_ok_iff hv.1).1 hv.2
  · exact hread.imp fun v e => fromValue_of_isRead

end CollectionEntry

namespace Collection

variable {v : Json.Value} {o : Option Json.Value} {count : Option Int} {c : Collection}
  {es : List CollectionEntry}

/-! ## Counts -/

/-- What the field of the count says: an integer of 64 bits, or nothing. -/
inductive Counts : Option Json.Value → Option Int → Prop
  | missing : Counts none none
  | null : Counts (some .null) none
  | integer {z : Int} (h : -0x8000000000000000 ≤ z ∧ z ≤ 0x7FFFFFFFFFFFFFFF) :
    Counts (some (.number (.int z))) (some z)

theorem countOfField_ok_iff : countOfField o = .ok count ↔ Counts o count := by
  constructor
  · intro h
    unfold countOfField at h
    split at h
    · cases h
      exact .missing
    · cases h
      exact .null
    · next v _ =>
      split at h
      · next z hz =>
        split_ifs at h with hrange
        cases h
        unfold Json.Value.int? at hz
        split at hz <;> cases hz
        exact .integer hrange
      · cases h
  · rintro (_ | _ | h)
    · rfl
    · rfl
    · exact if_pos h

/-! ## The field of the members -/

/-- Where the members are: in the field of the derived name, or in the first list if that field is
not there. -/
inductive Holds (derived : String) (content : Json.Members) : String → Json.Value → Prop
  | named {v : Json.Value} (h : content.get? derived = some v) : Holds derived content derived v
  | first {field : String} {values : List Json.Value} {before after : Json.Members}
    (missing : content.get? derived = none) (list : content = before ++ (field, .array values) :: after)
    (noList : ∀ m ∈ before, m.2.array? = none) : Holds derived content field (.array values)

theorem membersField_of_holds (hkeys : (content.map (·.1)).Nodup) (h : Holds derived content field v) :
    membersField derived content = field ∧ content.get? field = some v := by
  cases h with
  | named h => exact ⟨by rw [membersField, h]; rfl, h⟩
  | @first field values before after missing list noList =>
    refine ⟨?_, (Json.Members.get?_eq_some_iff hkeys).2 (by simp [list])⟩
    have hfind : content.find? (fun m => m.2.array?.isSome) = some (field, .array values) := by
      refine List.find?_eq_some_iff_append.2 ⟨rfl, before, after, list, fun m hm => ?_⟩
      rw [noList m hm]
      rfl
    rw [membersField, missing, hfind]
    rfl

/-- The field that is looked into holds the members, unless no field does. -/
theorem membersField_cases (derived : String) (hkeys : (content.map (·.1)).Nodup) :
    (∃ v, content.get? (membersField derived content) = some v ∧
        Holds derived content (membersField derived content) v) ∨
      content.get? (membersField derived content) = none ∧
        membersField derived content = derived ∧ ∀ field v, ¬Holds derived content field v := by
  rcases hderived : content.get? derived with _ | v
  · rcases hfind : content.find? (fun m => m.2.array?.isSome) with _ | ⟨field, v⟩
    · have hfield : membersField derived content = derived := by
        rw [membersField, hderived, hfind]
        rfl
      rw [hfield]
      refine .inr ⟨hderived, rfl, fun field v hholds => ?_⟩
      cases hholds with
      | named h => exact absurd (hderived.symm.trans h) nofun
      | first missing list noList =>
        exact List.find?_eq_none.1 hfind _ (list ▸ List.mem_append_right _ List.mem_cons_self) rfl
    · have hfield : membersField derived content = field := by
        rw [membersField, hderived, hfind]
        rfl
      obtain ⟨hlist, before, after, hcontent, hbefore⟩ := List.find?_eq_some_iff_append.1 hfind
      rw [hfield]
      refine .inl ⟨v, (Json.Members.get?_eq_some_iff hkeys).2 (by simp [hcontent]), ?_⟩
      cases v with
      | array values => exact .first hderived hcontent fun m hm => by simpa using hbefore m hm
      | _ => cases hlist
  · have hfield : membersField derived content = derived := by
      rw [membersField, hderived]
      rfl
    rw [hfield]
    exact .inl ⟨v, hderived, .named hderived⟩

/-! ## Collections -/

/-- What is read of a collection whose type gives the derived name: the members in their order, and
the count that is given, or else how many they are. -/
inductive Reads (derived : String) (content : Json.Members) : Collection → Prop
  | members {count : Option Int} {field : String} {values : List Json.Value}
    {es : List CollectionEntry} (counts : Counts (content.get? "count") count)
    (holds : Holds derived content field (.array values))
    (entries : List.Forall₂ CollectionEntry.IsRead values es) :
    Reads derived content ⟨count.getD es.length, field, es⟩
  | empty {count : Option Int} (counts : Counts (content.get? "count") count)
    (missing : ∀ field v, ¬Holds derived content field v) (few : ∀ z, count = some z → z ≤ 0) :
    Reads derived content ⟨count.getD 0, derived, []⟩

theorem getD_le_iff : count.getD 0 ≤ 0 ↔ ∀ z, count = some z → z ≤ 0 := by
  cases count <;> simp

/-- A collection is read exactly if all that it is read from says so. -/
theorem ofContent_ok_iff (hderived : itemsField? typeName = some derived)
    (h : (Json.Value.object content).all Json.Value.isKeyed = true) :
    ofContent typeName content = .ok c ↔ Reads derived content c := by
  have hkeys : (content.map (·.1)).Nodup := of_decide_eq_true (Json.Value.of_all h)
  have hkeyed {field : String} {values : List Json.Value}
      (hv : content.get? field = some (.array values)) : ∀ v ∈ values, v.isKeyed = true := by
    rw [Json.Value.all, Bool.and_eq_true, Json.Value.allMembers_eq_true] at h
    have hvalues := h.2 _ ((Json.Members.get?_eq_some_iff hkeys).1 hv)
    rw [Json.Value.all, Bool.and_eq_true, Json.Value.allItems_eq_true] at hvalues
    exact fun v hv => Json.Value.of_all (hvalues.2 v hv)
  rw [ofContent_of_itemsField hderived]
  constructor
  · intro hread
    obtain ⟨count, hcount, hread⟩ := of_bind_eq_ok hread
    obtain ⟨es, hes, hread⟩ := of_bind_eq_ok hread
    cases hread
    rw [countOfField_ok_iff] at hcount
    rcases membersField_cases derived hkeys with ⟨v, hget, hholds⟩ | ⟨hget, hfield, hmissing⟩
    · rw [hget, entriesIn] at hes
      have hentries := of_mapError_eq_ok hes
      cases v with
      | array values =>
        rw [CollectionEntry.fromValue_entries_ok_iff (hkeyed hget)] at hentries
        exact .members hcount hholds hentries
      | _ => cases hentries
    · rw [hget, entriesIn] at hes
      split_ifs at hes with hfew
      cases hes
      rw [hfield]
      exact .empty hcount hmissing (getD_le_iff.1 hfew)
  · intro hreads
    cases hreads with
    | @members count field values es counts holds entries =>
      obtain ⟨hfield, hget⟩ := membersField_of_holds hkeys holds
      have hes : entriesIn field count (content.get? field) = .ok es := by
        rw [hget, entriesIn, (CollectionEntry.fromValue_entries_ok_iff (hkeyed hget)).2 entries]
        rfl
      rw [countOfField_ok_iff.2 counts]
      simp only [bind, Except.bind, hfield, hes]
      rfl
    | @empty count counts missing few =>
      rcases membersField_cases derived hkeys with ⟨v, -, hholds⟩ | ⟨hget, hfield, -⟩
      · exact absurd hholds (missing _ _)
      have hes : entriesIn derived count (content.get? derived) = .ok [] := by
        rw [← hfield, hget, entriesIn, if_pos (getD_le_iff.2 few)]
      rw [countOfField_ok_iff.2 counts]
      simp only [bind, Except.bind, hfield, hes]
      rfl

/-- The members can be read, or there is no field of members and none are counted. -/
def HasMembers (derived : String) (content : Json.Members) (count : Option Int) : Prop :=
  (∃ field values, Holds derived content field (.array values) ∧
      ∀ v ∈ values, ∃ e, CollectionEntry.IsRead v e) ∨
    (∀ field v, ¬Holds derived content field v) ∧ ∀ z, count = some z → z ≤ 0

theorem exists_forall₂_iff {values : List Json.Value} :
    (∃ es, List.Forall₂ CollectionEntry.IsRead values es) ↔
      ∀ v ∈ values, ∃ e, CollectionEntry.IsRead v e := by
  induction values with
  | nil => exact iff_of_true ⟨[], .nil⟩ fun v hv => absurd hv List.not_mem_nil
  | cons v values ih =>
    rw [List.forall_mem_cons, ← ih]
    constructor
    · rintro ⟨_, _ | ⟨he, hes⟩⟩
      exact ⟨⟨_, he⟩, _, hes⟩
    · rintro ⟨⟨e, he⟩, es, hes⟩
      exact ⟨e :: es, .cons he hes⟩

theorem exists_reads_iff :
    (∃ c, Reads derived content c) ↔
      ∃ count, Counts (content.get? "count") count ∧ HasMembers derived content count := by
  constructor
  · rintro ⟨_, hreads⟩
    cases hreads with
    | members counts holds entries =>
      exact ⟨_, counts, .inl ⟨_, _, holds, exists_forall₂_iff.1 ⟨_, entries⟩⟩⟩
    | empty counts missing few => exact ⟨_, counts, .inr ⟨missing, few⟩⟩
  · rintro ⟨count, counts, ⟨field, values, holds, hentries⟩ | ⟨missing, few⟩⟩
    · obtain ⟨es, entries⟩ := exists_forall₂_iff.2 hentries
      exact ⟨_, .members counts holds entries⟩
    · exact ⟨_, .empty counts missing few⟩

/-- Only the type is blamed for not being that of a collection, before all else. -/
theorem ofContent_notCollection_iff {name : String} :
    ofContent typeName content = .error (.invalidField field (.notCollection name)) ↔
      itemsField? typeName = none ∧ field = Document.typeField ∧ name = typeName := by
  rcases hderived : itemsField? typeName with _ | derived
  · have hrefused : ofContent typeName content =
        .error (.invalidField Document.typeField (.notCollection typeName)) := by
      rw [ofContent, hderived]
      rfl
    rw [hrefused]
    simp [eq_comm]
  · refine iff_of_false (fun herror => ?_) nofun
    rw [ofContent_of_itemsField hderived] at herror
    rcases of_bind_eq_error herror with hcount | ⟨count, -, herror⟩
    · unfold countOfField at hcount
      split at hcount
      · cases hcount
      · cases hcount
      · split at hcount
        · split_ifs at hcount
          cases hcount
        · cases hcount
    · rcases of_bind_eq_error herror with hes | ⟨es, -, herror⟩
      · unfold entriesIn at hes
        split at hes
        · obtain ⟨m, -, hm⟩ := of_mapError_eq_error hes
          cases hm
        · split_ifs at hes
          cases hes
      · cases herror

/-- When a collection is read, and what is read of it.  A document that passes for a collection is
refused for its type only if the type is the bare ending. -/
theorem ofContent_reads (h : (Json.Value.object content).all Json.Value.isKeyed = true)
    (typeName : String) :
    ((∃ c, ofContent typeName content = .ok c) ↔
        (∃ name, name ≠ "" ∧ typeName = name ++ "Collection") ∧
          ∃ count, Counts (content.get? "count") count ∧
            ∀ derived, itemsField? typeName = some derived → HasMembers derived content count) ∧
      (∀ c, ofContent typeName content = .ok c ↔
        ∃ derived, itemsField? typeName = some derived ∧ Reads derived content c) ∧
      ∀ d : Document, d.kind = .ok .collection → d.typeName = .ok typeName →
        ((∃ field name, ofContent typeName (Partition.ofDocument d).content =
            .error (.invalidField field (.notCollection name))) ↔ typeName = "Collection") := by
  have hreads (c : Collection) : ofContent typeName content = .ok c ↔
      ∃ derived, itemsField? typeName = some derived ∧ Reads derived content c := by
    rcases hderived : itemsField? typeName with _ | derived
    · refine iff_of_false ?_ (by rintro ⟨_, ⟨⟩, _⟩)
      rw [ofContent, hderived]
      nofun
    · rw [ofContent_ok_iff hderived h]
      simp
  refine ⟨?_, hreads, fun d hkind htype => ?_⟩
  · simp only [hreads, ← exists_itemsField_iff]
    constructor
    · rintro ⟨c, derived, hderived, hc⟩
      obtain ⟨count, hcount, hmembers⟩ := exists_reads_iff.1 ⟨c, hc⟩
      refine ⟨⟨derived, hderived⟩, count, hcount, fun derived' hderived' => ?_⟩
      cases hderived.symm.trans hderived'
      exact hmembers
    · rintro ⟨⟨derived, hderived⟩, count, hcount, hmembers⟩
      obtain ⟨c, hc⟩ := exists_reads_iff.2 ⟨count, hcount, hmembers derived hderived⟩
      exact ⟨c, derived, hderived, hc⟩
  · rw [Document.kind, htype] at hkind
    obtain ⟨name, rfl⟩ := exists_of_ofTypeName (Except.ok.inj hkind)
    simp only [ofContent_notCollection_iff, itemsField?_append_eq_none_iff]
    constructor
    · rintro ⟨_, _, rfl, -⟩
      rfl
    · intro hname
      refine ⟨_, _, ?_, rfl, rfl⟩
      simpa using hname

/-- Two members: an object, and a list of texts. -/
def sheep : List Json.Value :=
  [.object [("name", .null), ("id", .string "sheep/1"), ("horns", .bool true)],
    .array [.string "sheep/2", .string "dolly"]]

/-- A collection whose members are not under the name of their type. -/
def pasture : Json.Members :=
  [("count", .null), ("shepherd", .string "Bo"), ("flock", .array sheep), ("dogs", .array [.null])]

theorem ofContent_reads_sheep :
    (Json.Value.object pasture).all Json.Value.isKeyed = true ∧
      ofContent "SheepCollection" pasture =
        .ok ⟨2, "flock", [⟨"sheep/1", none, none⟩, ⟨"sheep/2", some "dolly", none⟩]⟩ ∧
      ∃ field name, ofContent "Collection"
          (Partition.ofDocument ⟨[("resourceURI", .string "http://host/Collection")]⟩).content =
        .error (.invalidField field (.notCollection name)) := by
  have hkeyed : (Json.Value.object pasture).all Json.Value.isKeyed = true := by decide
  refine ⟨hkeyed, ((ofContent_reads hkeyed "SheepCollection").2.1 _).2 ⟨"sheeps", by decide, ?_⟩,
    ((ofContent_reads hkeyed "Collection").2.2 _ rfl rfl).2 rfl⟩
  have hcounts : Counts (pasture.get? "count") none := .null
  have hsplit : pasture = pasture.take 2 ++ ("flock", .array sheep) :: pasture.drop 3 := rfl
  have hentries : List.Forall₂ CollectionEntry.IsRead sheep
      [⟨"sheep/1", none, none⟩, ⟨"sheep/2", some "dolly", none⟩] :=
    .cons (.object (.object (by decide) rfl .null .missing))
      (.cons (.list (Nat.le_succ 1) (.text "dolly") .missing) .nil)
  exact .members hcounts (.first rfl hsplit (by decide)) hentries

end Collection

end Cimi
