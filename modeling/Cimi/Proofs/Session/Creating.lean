import Cimi.Proofs.Reference
import Cimi.Proofs.Session.Panels

/-!
# What is fetched after a new resource

When the server says where a new resource is, the call that has added it goes on to fetch the
reference behind that URL.  Below a base that ends with a slash the URL that is fetched is the one
that the server has named; below any other base the slash between the base and the path is lost
(`created_fetched_iff`, `created_elsewhere`).
-/

namespace Cimi.Session

variable {b : Endpoint} {l : Location} {ms : List Moment} {o : Overlap} {s : Session}

/-- The URL from which a document is fetched, if a moment asks for one. -/
def Moment.fetches? (m : Moment) : Option String :=
  match m.progress with
  | some (.waits (.reading url _)) => some url
  | _ => none

/-- What waits to hear of a new resource is the call that has sent its text. -/
theorem Moment.adds {m : Moment} {name : String} {request : Write}
    (hn : m.action.name? = some name)
    (hp : m.progress = some (.waits (.writing request .create))) :
    m.action = .call name .finishAdd := by
  obtain ⟨c, hc, hbegins⟩ := Moment.begins_of_waits hn hp (by simp)
  generalize m.after.session = s' at hbegins
  rw [Waiting.step] at hbegins
  cases hbegins with
  | adds => exact hc
  | sends _ _ hw => cases hw

/-- The reference behind the URL of a new resource is fetched, unless its panel has been closed. -/
theorem Moment.fetches?_created {m : Moment} {name url : String} {request : Write}
    (hw : m.before.waiting? name = some (.writing request .create))
    (ha : m.action = .written name (.ok (some url))) :
    m.fetches? = if m.before.session.mode = .adding then
        some (m.before.session.base.fetchUrl (m.before.session.base.referenceOf url))
      else none := by
  obtain ⟨⟨⟨base, navigator, location, mode, page, editor, message⟩, waiting⟩, a⟩ := m
  cases ha
  rw [Moment.fetches?, Moment.progress, Overlap.act, Overlap.written]
  simp only [hw]
  cases mode <;> rfl

/-- A viewer composes a new disk. -/
def composing (b : Endpoint) : Overlap :=
  [.call "load" .reload, .fetched "load" (.ok (.object [("resourceURI", .string "DiskCollection"),
      ("count", .number (.int 0)), ("operations",
        .array [.object [("rel", .string "add"), ("href", .string "/disks")]])])),
    .call "open" .startAdd, .setText "\x7b\x7d"].foldl (fun o a => (o.act a).1)
    (.ofSession (.new b ⟨"page", ⟨"/disks"⟩, .fragment⟩))

/-- What waits once the new disk has been sent. -/
def adding (b : Endpoint) : Waiting :=
  .writing (Service.createRequest b "/disks" (.object [])) .create

theorem act_adding (b : Endpoint) :
    (composing b).act (.call "add" .finishAdd) =
      (⟨(composing b).session, [("add", adding b)]⟩, some (.waits (adding b))) := by
  have hv : Editor.validate ⟨"\x7b\x7d"⟩ = .ok (.object []) := by
    cbv
  have hstart := start_finishAdd (s := (composing b).session) rfl rfl
  rw [sendText_ok (s := (composing b).session) hv] at hstart
  have hs : (composing b).session.start .finishAdd = ((composing b).session, (adding b).step) :=
    hstart
  rw [Overlap.act, Overlap.call, hs]
  rfl

/-- The server says where the new disk is. -/
def named (b : Endpoint) (url : String) : Moment :=
  ⟨⟨(composing b).session, [("add", adding b)]⟩, .written "add" (.ok (some url))⟩

theorem run_composing (b : Endpoint) :
    ∃ ms, Run b ⟨"page", ⟨"/disks"⟩, .fragment⟩ ms (composing b) :=
  ⟨_, Run.start.step _ |>.step _ |>.step _ |>.step _⟩

theorem run_adding (b : Endpoint) (url : String) :
    ∃ ms o k, Run b ⟨"page", ⟨"/disks"⟩, .fragment⟩ ms o ∧
      Answered ms k [] (named b url) "add" (adding b) := by
  obtain ⟨ms, h⟩ := run_composing b
  have hadd := h.step (.call "add" .finishAdd)
  rw [act_adding] at hadd
  have hnamed := hadd.step (.written "add" (.ok (some url)))
  rw [List.append_assoc] at hnamed
  exact ⟨_, _, ⟨composing b, .call "add" .finishAdd⟩, hnamed,
    ⟨⟨ms, [], rfl⟩, ⟨rfl, congrArg Prod.snd (act_adding b)⟩, by simp, rfl⟩⟩

/-- The URL that the server names for a new resource below its base is the one behind which the
session looks for it, and the one that is fetched when it has been added, exactly if the base ends
with a slash.  What is fetched is the path right after the base. -/
theorem created_fetched_iff (b : Endpoint) {r : Reference} (hr : r.isAbsolute = false) :
    (b.resolve (b.referenceOf (b.urlBelow r.text)).text = b.urlBelow r.text ↔ b.EndsWithSlash) ∧
      ∀ {l : Location} {ms : List Moment} {o : Overlap} {k m : Moment} {between : List Moment}
        {name : String} {request : Write}, Run b l ms o →
        Answered ms k between m name (.writing request .create) →
        m.action = .written name (.ok (some (b.urlBelow r.text))) →
        k.action = .call name .finishAdd ∧
          (m.fetches? = if m.before.session.mode = .adding then some (b.text ++ r.text) else none) ∧
          (b.text ++ r.text = b.urlBelow r.text ↔ b.EndsWithSlash) := by
  have hurl : b.fetchUrl (b.referenceOf (b.urlBelow r.text)) = b.text ++ r.text := by
    rw [Endpoint.referenceOf_urlBelow hr, Endpoint.fetchUrl_of_relative hr]
  have hiff := b.append_eq_urlBelow_iff r.text
  refine ⟨?_, fun hrun ha hm => ⟨Moment.adds ha.comes.1 ha.comes.2, ?_, hiff⟩⟩
  · rw [← hiff, ← hurl]
    rfl
  · obtain ⟨early, hbefore⟩ := ha.run hrun
    rw [Moment.fetches?_created ha.awaited hm, hbefore.base, hurl]

/-- The new disk is fetched where the server says it is. -/
theorem created_fetched_disk :
    ∃ ms o k, Run ⟨"http://host/api/"⟩ ⟨"page", ⟨"/disks"⟩, .fragment⟩ ms o ∧
      Answered ms k [] (named ⟨"http://host/api/"⟩ "http://host/api/disks/1") "add"
        (adding ⟨"http://host/api/"⟩) ∧
      k.action = .call "add" .finishAdd ∧
      (named ⟨"http://host/api/"⟩ "http://host/api/disks/1").fetches? =
        some "http://host/api/disks/1" := by
  obtain ⟨ms, o, k, hrun, ha⟩ := run_adding ⟨"http://host/api/"⟩ "http://host/api/disks/1"
  have h := (created_fetched_iff ⟨"http://host/api/"⟩ (r := ⟨"disks/1"⟩) (by decide)).2 hrun ha rfl
  exact ⟨ms, o, k, hrun, ha, h.1, h.2.1⟩

/-- Without a slash at the end of the base the new disk is looked for where there is none. -/
theorem created_elsewhere :
    ∃ ms o k, Run ⟨"http://host/api"⟩ ⟨"page", ⟨"/disks"⟩, .fragment⟩ ms o ∧
      Answered ms k [] (named ⟨"http://host/api"⟩ "http://host/api/disks/1") "add"
        (adding ⟨"http://host/api"⟩) ∧
      (named ⟨"http://host/api"⟩ "http://host/api/disks/1").fetches? =
        some "http://host/apidisks/1" := by
  obtain ⟨ms, o, k, hrun, ha⟩ := run_adding ⟨"http://host/api"⟩ "http://host/api/disks/1"
  refine ⟨ms, o, k, hrun, ha, ?_⟩
  rw [Moment.fetches?_created ha.awaited rfl]
  rfl

end Cimi.Session
