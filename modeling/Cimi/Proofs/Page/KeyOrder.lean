import Cimi.Proofs.Document.Collection
import Cimi.Proofs.Document.Partition
import Cimi.Service

/-!
# Pages and the order of keys

A server may give the fields of a document in any order, each of them once.  A page finds metadata by
name and sorts the content, so the order is seen only in the document's own text
(`Page.build_reorders`).

The members of a collection are the exception: if the field that is named after their type is not
among the content, the first list of the content takes its place.  That field is missing there not
only if the document does not have it, but also if its name is one of metadata, and then the order of
two other lists decides what is shown (`order_shows`).
-/

namespace Cimi

variable {d d' : Document} {l : Location} {b : Endpoint} {m : Mode} {key : String}

/-- Two documents have the same fields, each once, whatever their order. -/
structure Document.Reorders (d d' : Document) : Prop where
  nodup : (d.fields.map (·.1)).Nodup
  perm : d.fields.Perm d'.fields

/-- The fields of the content that are lists. -/
def Document.lists (d : Document) : Json.Members :=
  (Partition.ofDocument d).content.filter fun f => f.2.array?.isSome

namespace Document.Reorders

theorem get? (h : d.Reorders d') (key : String) : d.fields.get? key = d'.fields.get? key :=
  Json.Members.get?_perm h.perm h.nodup key

theorem typeName (h : d.Reorders d') : d.typeName = d'.typeName := by
  rw [Document.typeName, Document.typeName, resourceUri, resourceUri, h.get?]

theorem get?_metadata (h : d.Reorders d') (key : String) :
    (Partition.ofDocument d).metadata.get? key = (Partition.ofDocument d').metadata.get? key := by
  unfold Partition.ofDocument
  simp only [Json.Members.get?_filter, h.get?]

theorem get?_content (h : d.Reorders d') (key : String) :
    (Partition.ofDocument d).content.get? key = (Partition.ofDocument d').content.get? key := by
  rw [d.get?_content, d'.get?_content, h.get?]

theorem metadata (h : d.Reorders d') :
    Metadata.ofFields (Partition.ofDocument d).metadata =
      Metadata.ofFields (Partition.ofDocument d').metadata := by
  unfold Metadata.ofFields
  simp only [h.get?_metadata]

theorem content_perm (h : d.Reorders d') :
    (Partition.ofDocument d).content.Perm (Partition.ofDocument d').content :=
  h.perm.filter _

/-- Fields with different keys are sorted in one way only. -/
theorem sortedContent (h : d.Reorders d') :
    (Partition.ofDocument d).sortedContent = (Partition.ofDocument d').sortedContent := by
  have hsorted {e : Document} (he : (e.fields.map (·.1)).Nodup) :=
    Partition.pairwise_sortedContent (p := .ofDocument e) (he.sublist (List.filter_sublist.map _))
  have hperm : (Partition.ofDocument d).sortedContent.Perm (Partition.ofDocument d').sortedContent :=
    ((Partition.sortedContent_perm _).trans h.content_perm).trans (Partition.sortedContent_perm _).symm
  have hnodup : (d'.fields.map (·.1)).Nodup := (h.perm.map _).nodup_iff.1 h.nodup
  exact hperm.eq_of_pairwise (fun a c _ _ hac hca => absurd hca (lt_asymm hac)) (hsorted h.nodup)
    (hsorted hnodup)

/-- Of at most one list the order does not matter. -/
theorem lists (h : d.Reorders d') (hone : d.lists.length ≤ 1) : d.lists = d'.lists := by
  have hperm : d.lists.Perm d'.lists := h.content_perm.filter _
  rcases hl : d.lists with _ | ⟨f, _ | ⟨g, fs⟩⟩ <;> rw [hl] at hperm
  · exact hperm.nil_eq
  · exact List.singleton_perm.1 hperm
  · rw [hl] at hone
    simp at hone

theorem membersField (h : d.Reorders d') {field : String}
    (hmembers : (Partition.ofDocument d).content.get? field = none → d.lists.length ≤ 1) :
    Collection.membersField field (Partition.ofDocument d).content =
      Collection.membersField field (Partition.ofDocument d').content := by
  unfold Collection.membersField
  rw [h.get?_content]
  split_ifs with hfield
  · rfl
  · have hlists := h.lists (hmembers (by simpa [h.get?_content] using hfield))
    rw [← List.head?_filter, ← List.head?_filter]
    exact congrArg (fun fields => (fields.head?.map (·.1)).getD field) hlists

theorem collection (h : d.Reorders d') (typeName : String)
    (hmembers : ∀ field, itemsField? typeName = some field →
      (Partition.ofDocument d).content.get? field = none → d.lists.length ≤ 1) :
    Collection.ofContent typeName (Partition.ofDocument d).content =
      Collection.ofContent typeName (Partition.ofDocument d').content := by
  rcases hfield : itemsField? typeName with _ | field
  · rw [Collection.ofContent, Collection.ofContent, hfield]
    rfl
  · rw [Collection.ofContent_of_itemsField hfield, Collection.ofContent_of_itemsField hfield,
      h.membersField (hmembers field hfield)]
    simp only [h.get?_content]

end Document.Reorders

/-- The field of the members is told without regard to the order of keys: it stands among the content
under the name that the type gives it, or no list but one can take its place. -/
def Document.TellsMembers (d : Document) : Prop :=
  ∀ typeName field, d.typeName = .ok typeName → itemsField? typeName = some field →
    (d.fields.get? field = none ∨ field ∈ Document.metadataKeys) → d.lists.length ≤ 1

namespace Page

/-- A page with the text of another document in the place of that of its own. -/
def withTextOf (d : Document) (p : Page) : Page :=
  { p with json := d.pretty, editor := if p.mode = .adding then p.editor else d.pretty }

/-- The order of keys is not seen on a page, save in the text of the document: what fails with one
order fails in the same way with the other. -/
theorem build_reorders (h : d.Reorders d') (hmembers : d.TellsMembers) (l : Location)
    (b : Endpoint) (m : Mode) : build l b d' m = (build l b d m).map (withTextOf d') := by
  have hcontent {title : String} (htitle : d.typeName = .ok title) :
      Content.ofPartition l (.ofTypeName title) title (.ofDocument d) =
        Content.ofPartition l (.ofTypeName title) title (.ofDocument d') := by
    have hcollection := h.collection title fun field hfield hnone =>
      hmembers title field htitle hfield (by
        rw [d.get?_content] at hnone
        split_ifs at hnone with hk
        · exact .inr hk
        · exact .inl hnone)
    unfold Content.ofPartition EntryLink.ofPartition
    rw [h.sortedContent, hcollection]
  unfold build
  rw [← h.typeName]
  rcases htitle : d.typeName with fault | title
  · rfl
  · simp only [bind, Except.bind, ← h.metadata, ← hcontent htitle]
    rcases Metadata.ofFields (Partition.ofDocument d).metadata with fault | metadata
    · rfl
    · rcases Content.ofPartition l (.ofTypeName title) title (.ofDocument d) with fault | content
      · rfl
      · simp only [pure, Except.pure, Except.map, withTextOf]
        split_ifs <;> rfl

/-- A field with a list of one member. -/
def listOfOne (name : String) : String × Json.Value :=
  (name, .array [.object [("id", .string (name ++ "/1"))]])

/-- The only list of a collection is found wherever it stands. -/
theorem build_reorders_flock :
    ∃ d d' : Document,
      d = ⟨[("resourceURI", .string "SheepCollection"), listOfOne "flock", ("count", .null)]⟩ ∧
      d' = ⟨[("count", .null), listOfOne "flock", ("resourceURI", .string "SheepCollection")]⟩ ∧
      d.Reorders d' ∧ d.TellsMembers ∧
      build ⟨"page", ⟨"sheep"⟩, .fragment⟩ ⟨"http://host/api/"⟩ d' .adding =
        (build ⟨"page", ⟨"sheep"⟩, .fragment⟩ ⟨"http://host/api/"⟩ d .adding).map (withTextOf d') ∧
      (build ⟨"page", ⟨"sheep"⟩, .fragment⟩ ⟨"http://host/api/"⟩ d' .adding).map (·.content) =
        .ok (.collection ⟨1, [⟨"1", "page#flock/1", "", ""⟩]⟩) := by
  refine ⟨_, _, rfl, rfl, ⟨by decide, by decide⟩, fun _ _ _ _ _ => by decide, ?_, rfl⟩
  exact build_reorders ⟨by decide, by decide⟩ (fun _ _ _ _ _ => by decide) _ _ _

/-- The order of keys is not seen if a document has the field that is named after its members, or no
list but one. -/
def OrderIsHidden : Prop :=
  ∀ d d' : Document, d.Reorders d' →
    (∀ typeName field, d.typeName = .ok typeName → itemsField? typeName = some field →
      d.fields.get? field = none → d.lists.length ≤ 1) →
    ∀ l b m, build l b d' m = (build l b d m).map (withTextOf d')

/-- The operations of a server, with other lists. -/
def operationsWith (lists : Json.Members) : Document :=
  ⟨("resourceURI", .string "OperationCollection") :: listOfOne "operations" :: lists⟩

/-- Operations are not found under their own name, which is one of metadata.  In their place the list
is shown that comes first. -/
theorem order_shows : ¬OrderIsHidden := by
  intro h
  have hsame := h (operationsWith [listOfOne "past", listOfOne "queued"])
    (operationsWith [listOfOne "queued", listOfOne "past"]) ⟨by decide, by decide⟩
    (fun typeName field htype hfield hnone => ?_) ⟨"page", ⟨"operations"⟩, .fragment⟩
    ⟨"http://host/api/"⟩ .normal
  · have hcontent := congrArg (Except.map (·.content)) hsame
    revert hcontent
    decide +kernel
  · -- The field is there, but not among the content.
    obtain rfl : "OperationCollection" = typeName := Except.ok.inj htype
    obtain rfl : "operations" = field := Option.some.inj hfield
    cases hnone

end Page

end Cimi
