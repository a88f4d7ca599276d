import Cimi.Proofs.Document.Collection
import Cimi.Proofs.Page.Operations

/-!
# Members on the page of a collection

A collection keeps its members under a name that is made from their type.  Its page has a row for
each of them, in their order, whatever other texts the collection has and in whatever order its
fields stand (`Page.build_keeps`).

Two of the names that types can give are also names of metadata.  A field of such a name is not among
the content, in which the members are looked for, and the page of the collection shows none
(`hidden_properties`).
-/

namespace Cimi

variable {d : Document} {typeName field : String} {values : List Json.Value}
  {es : List CollectionEntry} {l : Location}

theorem afterLastSlash_append {last : String} (h : '/' ∉ last.toList) (before : String) :
    afterLastSlash (before ++ "/" ++ last) = last := by
  have hcut : Text.cutLast '/' (before ++ "/" ++ last).toList = some (before.toList, last.toList) := by
    simpa using Text.cutLast_append h before.toList
  rw [afterLastSlash, hcut]
  exact String.ofList_toList

/-- A collection that keeps the values of its members under the name that its type gives them.  All
else that it has are texts; it does not count its members, and has no access control list. -/
structure Document.Keeps (d : Document) (typeName field : String) (values : List Json.Value) :
    Prop where
  nodup : (d.fields.map (·.1)).Nodup
  named : itemsField? typeName = some field
  segment : '/' ∉ typeName.toList
  type : ∃ before, d.fields.get? typeField = some (.string (before ++ "/" ++ typeName))
  members : d.fields.get? field = some (.array values)
  others : ∀ f ∈ d.fields, f.1 ≠ typeField → f.1 ≠ field →
    f.1 ≠ "count" ∧ f.1 ≠ "acl" ∧ ∃ s, f.2 = .string s

/-- The table of members: how many they are, and a row for each. -/
def Table.ofMembers (l : Location) (es : List CollectionEntry) : Table :=
  ⟨es.length, es.map (row l)⟩

namespace Document.Keeps

theorem typeName_eq (h : d.Keeps typeName field values) : d.typeName = .ok typeName := by
  obtain ⟨before, htype⟩ := h.type
  rw [Document.typeName, resourceUri, htype]
  exact congrArg Except.ok (afterLastSlash_append h.segment before)

theorem get?_eq_none (h : d.Keeps typeName field values) {key : String}
    (hkey : key = "count" ∨ key = "acl") : d.fields.get? key = none := by
  have hlast := getLast?_of_itemsField h.named
  have hfield : key ≠ field := by
    rintro rfl
    rcases hkey with rfl | rfl <;> exact absurd hlast (by decide)
  have htype : key ≠ typeField := by
    rcases hkey with rfl | rfl <;> decide
  by_contra hsome
  obtain ⟨v, hv⟩ := Option.ne_none_iff_exists'.1 hsome
  obtain ⟨hcount, hacl, -⟩ :=
    h.others _ ((Json.Members.get?_eq_some_iff h.nodup).1 hv) htype hfield
  rcases hkey with rfl | rfl
  · exact hcount rfl
  · exact hacl rfl

theorem exists_metadata (h : d.Keeps typeName field values) :
    ∃ metadata, Metadata.ofFields (Partition.ofDocument d).metadata = .ok metadata := by
  have hacl : (Partition.ofDocument d).metadata.get? "acl" = none := by
    rw [Document.get?_metadata rfl, h.get?_eq_none (.inr rfl)]
  rw [Metadata.ofFields, hacl]
  exact ⟨_, rfl⟩

/-- If the name of the field is one of metadata, no list is left among the content. -/
theorem find?_list (h : d.Keeps typeName field values) (hfield : field ∈ metadataKeys) :
    (Partition.ofDocument d).content.find? (fun f => f.2.array?.isSome) = none := by
  rw [List.find?_eq_none]
  intro f hf
  obtain ⟨hmem, hcontent⟩ := List.mem_filter.1 hf
  have hkey : f.1 ∉ metadataKeys := by simpa [isMetadataKey] using hcontent
  obtain ⟨-, -, s, hs⟩ := h.others f hmem (by rintro he; exact hkey (he ▸ by decide))
    (by rintro he; exact hkey (he ▸ hfield))
  rw [hs]
  exact Bool.false_ne_true

theorem get?_members (h : d.Keeps typeName field values) :
    (Partition.ofDocument d).content.get? field =
      if field ∈ metadataKeys then none else some (.array values) := by
  rw [d.get?_content, h.members]

theorem membersField (h : d.Keeps typeName field values) :
    Collection.membersField field (Partition.ofDocument d).content = field := by
  rw [Collection.membersField, h.get?_members]
  split_ifs with hfield hsome hsome
  · cases hsome
  · rw [h.find?_list hfield]
    rfl
  · rfl
  · exact absurd rfl hsome

/-- The members are found unless the name of their field is one of metadata. -/
theorem ofContent (h : d.Keeps typeName field values)
    (hes : List.Forall₂ CollectionEntry.Describes values es) :
    Collection.ofContent typeName (Partition.ofDocument d).content =
      if field ∈ metadataKeys then .ok ⟨0, field, []⟩ else .ok ⟨es.length, field, es⟩ := by
  have hcount : (Partition.ofDocument d).content.get? "count" = none := by
    rw [d.get?_content, h.get?_eq_none (.inl rfl), ite_self]
  rw [Collection.ofContent_of_itemsField h.named, hcount, h.membersField]
  simp only [h.get?_members]
  split_ifs
  · rfl
  · simp only [Collection.entriesIn, CollectionEntry.fromValue_list hes]
    rfl

theorem ofPartition (h : d.Keeps typeName field values)
    (hes : List.Forall₂ CollectionEntry.Describes values es) (l : Location) :
    Content.ofPartition l (.ofTypeName typeName) typeName (.ofDocument d) =
      .ok (.collection (.ofMembers l (if field ∈ metadataKeys then [] else es))) := by
  rw [ofTypeName_of_itemsField h.named, Content.ofPartition, h.ofContent hes]
  split_ifs <;> rfl

end Document.Keeps

theorem Table.ofMembers_inj {es' : List CollectionEntry} (h : ofMembers l es = ofMembers l es') :
    es.length = es'.length :=
  Int.ofNat.inj (Table.mk.inj h).1

/-- A collection that keeps its members under the name of their type has a page.  It shows a row for
each member, in order, exactly if that name is neither `operations` nor `properties` or there are no
members; else it shows none. -/
theorem Page.build_keeps (h : d.Keeps typeName field values)
    (hes : List.Forall₂ CollectionEntry.Describes values es) (l : Location) (b : Endpoint)
    (m : Mode) :
    ∃ p table, build l b d m = .ok p ∧ p.kind = .collection ∧ p.content = .collection table ∧
      (table = .ofMembers l es ↔ (field ≠ "operations" ∧ field ≠ "properties") ∨ es = []) ∧
      (table ≠ .ofMembers l es → table = .ofMembers l []) := by
  obtain ⟨metadata, hmetadata⟩ := h.exists_metadata
  have hkind := ofTypeName_of_itemsField h.named
  have hbuild : ∃ p, build l b d m = .ok p ∧ p.kind = .collection ∧ p.content =
      .collection (.ofMembers l (if field ∈ Document.metadataKeys then [] else es)) := by
    simp only [build, h.typeName_eq, hmetadata, h.ofPartition hes, bind, Except.bind]
    exact ⟨_, rfl, hkind, rfl⟩
  obtain ⟨p, hp, hk, hcontent⟩ := hbuild
  refine ⟨p, _, hp, hk, hcontent, ?_, ?_⟩
  · rw [← not_or, ← mem_metadataKeys_of_itemsField h.named]
    split_ifs with hfield
    · constructor
      · intro heq
        exact .inr (List.length_eq_zero_iff.1 (Table.ofMembers_inj heq).symm)
      · rintro (hnot | rfl)
        · exact absurd hfield hnot
        · rfl
    · exact ⟨fun _ => .inl hfield, fun _ => rfl⟩
  · intro hne
    split_ifs at hne ⊢
    · rfl
    · exact absurd rfl hne

/-- A collection of two members, of which only the second has a name. -/
def twoMembers (typeName field : String) : Document :=
  ⟨[("zone", .string "a"), (field, .array values), ("name", .string "two"),
    ("resourceURI", .string ("http://host/" ++ typeName))]⟩
where
  /-- What the members are read from. -/
  values : List Json.Value :=
    [.object [("state", .bool true), ("id", .string "a/1")],
      .object [("name", .string "second"), ("id", .string "a/2"), ("description", .null)]]

theorem describes_twoMembers :
    List.Forall₂ CollectionEntry.Describes twoMembers.values
      [⟨"a/1", none, none⟩, ⟨"a/2", some "second", none⟩] :=
  .cons (.object (by decide) rfl .missing .missing)
    (.cons (.object (by decide) rfl (.text "second") .null) .nil)

theorem keeps_twoMembers (hnamed : itemsField? typeName = some field)
    (hsegment : '/' ∉ typeName.toList)
    (hother : field ≠ "zone" ∧ field ≠ "name" ∧ field ≠ "resourceURI") :
    (twoMembers typeName field).Keeps typeName field twoMembers.values := by
  obtain ⟨hzone, hname, htype⟩ := hother
  constructor
  case nodup => simp [twoMembers, hzone.symm, hname, htype]
  case named => exact hnamed
  case segment => exact hsegment
  case type =>
    exact ⟨"http://host", by simp [twoMembers, Document.typeField, Json.Members.get?_cons, htype]⟩
  case members => simp [twoMembers, Json.Members.get?_cons, hzone.symm]
  case others => simp [twoMembers, Document.typeField]

/-- Two machines are shown, each with a link. -/
theorem build_keeps_machines :
    ∃ p, Page.build ⟨"page", ⟨"machines"⟩, .fragment⟩ ⟨"http://host/api/"⟩
        (twoMembers "MachineCollection" "machines") .normal = .ok p ∧
      (twoMembers "MachineCollection" "machines").Keeps "MachineCollection" "machines"
        twoMembers.values ∧
      List.Forall₂ CollectionEntry.Describes twoMembers.values
        [⟨"a/1", none, none⟩, ⟨"a/2", some "second", none⟩] ∧
      p.content = .collection
        ⟨2, [⟨"1", "page#a/1", "", ""⟩, ⟨"2", "page#a/2", "second", ""⟩]⟩ := by
  have hkeeps : (twoMembers "MachineCollection" "machines").Keeps "MachineCollection" "machines"
      twoMembers.values := keeps_twoMembers (by decide) (by decide) (by decide)
  obtain ⟨p, table, hp, -, hcontent, hshown, -⟩ := Page.build_keeps hkeeps describes_twoMembers
    ⟨"page", ⟨"machines"⟩, .fragment⟩ ⟨"http://host/api/"⟩ .normal
  refine ⟨p, hp, hkeeps, describes_twoMembers, ?_⟩
  rw [hcontent, hshown.2 (.inl ⟨by decide, by decide⟩)]
  rfl

/-- Every collection that keeps its members under the name of their type shows them. -/
def ShowsMembers : Prop :=
  ∀ d typeName field values es, d.Keeps typeName field values →
    List.Forall₂ CollectionEntry.Describes values es → ∀ l b m,
      ∃ p, Page.build l b d m = .ok p ∧ p.kind = .collection ∧
        p.content = .collection (.ofMembers l es)

/-- Two properties are not shown, because the name of their field is one of metadata. -/
theorem hidden_properties : ¬ShowsMembers := by
  intro h
  have hkeeps : (twoMembers "PropertyCollection" "properties").Keeps "PropertyCollection" "properties"
      twoMembers.values := keeps_twoMembers (by decide) (by decide) (by decide)
  obtain ⟨p, hp, -, hcontent⟩ := h _ _ _ _ _ hkeeps describes_twoMembers
    ⟨"page", ⟨"properties"⟩, .fragment⟩ ⟨"http://host/api/"⟩ .normal
  have hnone : (Page.build ⟨"page", ⟨"properties"⟩, .fragment⟩ ⟨"http://host/api/"⟩
      (twoMembers "PropertyCollection" "properties") .normal).map (·.content) =
        .ok (.collection ⟨0, []⟩) := rfl
  rw [hp] at hnone
  have := (Except.ok.inj hnone).symm.trans hcontent
  cases this

end Cimi
