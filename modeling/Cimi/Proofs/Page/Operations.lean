import Cimi.Proofs.Json.Lookup
import Cimi.Proofs.Outcome
import Cimi.Service

/-!
# The operations of a page

A page shows the operations that its document offers as buttons.  A page is asked for the first
button of a kind, and finds that of the first operation of the kind: operations of other kinds, and
entries that are no operations at all, do not come between (`Page.command?_edit` and the lemmas
after it).
-/

namespace Cimi

/-- The operations that a document offers. -/
def Document.operations (d : Document) : List Operation :=
  Operation.ofField (d.fields.get? "operations")

/-- A field of the metadata is found in the metadata half. -/
theorem Document.get?_metadata {key : String} (hk : isMetadataKey key = true) (d : Document) :
    (Partition.ofDocument d).metadata.get? key = d.fields.get? key := by
  rw [Partition.ofDocument, Json.Members.get?_filter isMetadataKey, if_pos hk]

theorem Metadata.operations_ofFields {fields : Json.Members} {m : Metadata}
    (h : ofFields fields = .ok m) :
    m.operations = Operation.ofField (fields.get? "operations") := by
  obtain ⟨acl, -, h⟩ := of_bind_eq_ok h
  cases h
  rfl

namespace Page

variable {l : Location} {b : Endpoint} {d : Document} {m : Mode} {p : Page}

/-- What a page has of the location at which its document is viewed. -/
theorem build_ok (h : build l b d m = .ok p) :
    p.mode = m ∧ p.reference = l.reference.text ∧ p.viewUrl = l.viewUrl ∧
      p.resourceUrl = b.fetchUrl l.reference ∧ p.trail = l.trail ∧
      p.buttons = Button.all l b d.operations := by
  obtain ⟨title, -, h⟩ := of_bind_eq_ok h
  obtain ⟨metadata, hm, h⟩ := of_bind_eq_ok h
  obtain ⟨content, -, h⟩ := of_bind_eq_ok h
  cases h
  refine ⟨rfl, rfl, rfl, rfl, rfl, ?_⟩
  rw [Document.operations, ← Document.get?_metadata rfl, ← Metadata.operations_ofFields hm]

theorem mode_of_build (h : build l b d m = .ok p) : p.mode = m := (build_ok h).1

theorem buttons_of_build (h : build l b d m = .ok p) : p.buttons = Button.all l b d.operations :=
  (build_ok h).2.2.2.2.2

end Page

/-! ## The commands of operations -/

/-- Whether an operation is an action of a name: the last part of a relation that has no meaning of
its own. -/
def Operation.acts (name : String) (o : Operation) : Bool :=
  o.rel ∉ ["edit", "add", "delete"] ∧ afterLastSlash o.rel = name

theorem Operation.kind_cases (o : Operation) :
    (o.rel = "edit" ∧ o.kind = .edit) ∨ (o.rel = "add" ∧ o.kind = .add) ∨
      (o.rel = "delete" ∧ o.kind = .delete) ∨
      (o.rel ∉ ["edit", "add", "delete"] ∧ o.kind = .action (afterLastSlash o.rel)) := by
  unfold kind
  split
  · exact .inl ⟨‹_›, rfl⟩
  · exact .inr (.inl ⟨‹_›, rfl⟩)
  · exact .inr (.inr (.inl ⟨‹_›, rfl⟩))
  · rename_i he ha hd
    refine .inr (.inr (.inr ⟨?_, rfl⟩))
    simp only [List.mem_cons, List.not_mem_nil, or_false, not_or]
    exact ⟨he, ha, hd⟩

section

variable {α : Type} {l : Location} {b : Endpoint} {select : Command → Option α}
  {is : Operation → Bool} {f : Operation → α}

/-- If a command is chosen from the buttons of just those operations that have some property, the
first one chosen from all buttons is that of the first such operation. -/
theorem Button.findSome?_all (hv : select .startView = none) (hf : select .finishView = none)
    (ho : ∀ o, (ofOperation l b o).findSome? (select ·.command) = if is o then some (f o) else none)
    (os : List Operation) :
    (all l b os).findSome? (select ·.command) = (os.find? is).map f := by
  unfold all
  rw [List.findSome?_cons_of_isNone (by rw [hv]; rfl),
    List.findSome?_cons_of_isNone (by rw [hf]; rfl)]
  induction os with
  | nil => rfl
  | cons o os ih =>
    rw [List.flatMap_cons, List.findSome?_append, ih, ho, List.find?_cons]
    rcases is o with _ | _ <;> rfl

end

namespace Page

variable {l : Location} {b : Endpoint} {os : List Operation} {p : Page}

theorem command?_edit (h : p.buttons = Button.all l b os) :
    p.command? Command.editTarget? = (os.find? (·.rel = "edit")).map (·.href) := by
  rw [command?, h]
  refine Button.findSome?_all rfl rfl (fun o => ?_) os
  rcases o.kind_cases with ⟨hr, hk⟩ | ⟨hr, hk⟩ | ⟨hr, hk⟩ | ⟨hr, hk⟩ <;>
    simp_all [Button.ofOperation, Command.editTarget?]

theorem command?_add (h : p.buttons = Button.all l b os) :
    p.command? Command.addTarget? = (os.find? (·.rel = "add")).map (·.href) := by
  rw [command?, h]
  refine Button.findSome?_all rfl rfl (fun o => ?_) os
  rcases o.kind_cases with ⟨hr, hk⟩ | ⟨hr, hk⟩ | ⟨hr, hk⟩ | ⟨hr, hk⟩ <;>
    simp_all [Button.ofOperation, Command.addTarget?]

theorem command?_delete (h : p.buttons = Button.all l b os) :
    p.command? Command.deleteTarget? =
      (os.find? (·.rel = "delete")).map fun o => (o.href, l.reference.parent) := by
  rw [command?, h]
  refine Button.findSome?_all rfl rfl (fun o => ?_) os
  rcases o.kind_cases with ⟨hr, hk⟩ | ⟨hr, hk⟩ | ⟨hr, hk⟩ | ⟨hr, hk⟩ <;>
    simp_all [Button.ofOperation, Command.deleteTarget?]

theorem command?_action (name : String) (h : p.buttons = Button.all l b os) :
    p.command? (Command.actionTarget? name) = (os.find? (·.acts name)).map (·.href) := by
  rw [command?, h]
  refine Button.findSome?_all rfl rfl (fun o => ?_) os
  rcases o.kind_cases with ⟨hr, hk⟩ | ⟨hr, hk⟩ | ⟨hr, hk⟩ | ⟨hr, hk⟩
  · simp [Button.ofOperation, Command.actionTarget?, Operation.acts, hr, hk]
  · simp [Button.ofOperation, Command.actionTarget?, Operation.acts, hr, hk]
  · simp [Button.ofOperation, Command.actionTarget?, Operation.acts, hr, hk]
  · simp only [Button.ofOperation, Command.actionTarget?, Operation.acts, hr, hk,
      List.findSome?_cons, List.findSome?_nil, not_false_eq_true, true_and, decide_eq_true_eq]
    split_ifs <;> rfl

end Page

/-- The page in an answer is that of the document in it. -/
theorem Service.page_ok {b : Endpoint} {l : Location} {m : Mode} {answer : Fetched} {p : Page}
    (h : page b l m answer = .ok p) :
    ∃ d, document answer = .ok d ∧ Page.build l b d m = .ok p := by
  obtain ⟨d, hd, h⟩ := of_bind_eq_ok h
  exact ⟨d, hd, of_mapError_eq_ok h⟩

theorem Service.page_of_build {b : Endpoint} {l : Location} {m : Mode} {answer : Fetched}
    {d : Document} {p : Page} (hd : document answer = .ok d) (hp : Page.build l b d m = .ok p) :
    page b l m answer = .ok p := by
  rw [page, hd]
  simp only [bind, Except.bind, hp, Except.mapError]

theorem Service.mode_page {b : Endpoint} {l : Location} {m : Mode} {answer : Fetched} {p : Page}
    (h : page b l m answer = .ok p) : p.mode = m := by
  obtain ⟨d, -, hp⟩ := page_ok h
  exact Page.mode_of_build hp

end Cimi
