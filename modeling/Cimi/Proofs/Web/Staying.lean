import Cimi.Proofs.Exchange
import Cimi.Proofs.Web.Answering
import Cimi.Proofs.Web.Destinations

/-!
# Nothing leads off the site

Whatever is asked for, and whatever the server answers, the links of a page that is answered lead to
the site, its forms are sent to the operations, and a redirect leads to the site (`respond_stays`).
None of these URLs names a scheme or a host, so a reader stays with the server of the page.
-/

namespace Cimi.Web

variable {b : Endpoint} {m : Mode} {cs : List Contact} {p : Page} {form : Form} {reply : Reply}

/-- Where a reply leads. -/
def Reply.destinations : Reply → List Destination
  | .page _ v => v.markup.destinations
  | .failure f => (errorMarkup f.status f.message).destinations
  | .redirect target => [⟨false, target⟩]
  | _ => []

/-- A reply that leads nowhere but to the site and to the operations. -/
def Reply.Stays (reply : Reply) : Prop := ∀ d ∈ reply.destinations, d.Stays

/-- A URL that begins with a single slash, and so names neither a scheme nor a host. -/
def IsPathAbsolute (url : String) : Prop :=
  ∃ c rest, url.toList = '/' :: c :: rest ∧ c ≠ '/' ∧ c ≠ '\\'

theorem Destination.Stays.isPathAbsolute {d : Destination} (h : d.Stays) :
    IsPathAbsolute d.url := by
  obtain ⟨isPost, url⟩ := d
  cases isPost with
  | true =>
    obtain ⟨name, rfl⟩ := h
    exact ⟨'a', _, String.toList_append, by decide, by decide⟩
  | false =>
    rcases h with rfl | ⟨path, rfl⟩ | ⟨query, rfl⟩
    · exact ⟨'w', "ebui".toList, by decide, by decide, by decide⟩
    · exact ⟨'w', _, String.toList_append, by decide, by decide⟩
    · exact ⟨'w', _, String.toList_append, by decide, by decide⟩

/-! ## Redirects -/

theorem isLocal_viewUrl (reference : String) : IsLocal (locationOf reference).viewUrl :=
  isLocal_resourceViewUrl reference _

/-- A resource is shown on the site, wherever the server says that it is. -/
theorem isLocal_createdUrl (b : Endpoint) (reference : String) (created : Option String) :
    IsLocal (createdUrl b (locationOf reference) created) := by
  cases created with
  | none => exact isLocal_viewUrl reference
  | some url => exact isLocal_resourceViewUrl reference (b.referenceOf url)

theorem isLocal_deletedUrl (reference : String) (parent : Option String) :
    IsLocal (deletedUrl (locationOf reference) parent) := by
  cases parent with
  | none => exact isLocal_resourceViewUrl reference _
  | some parent => exact isLocal_viewUrl parent

theorem stays_redirect {target : String} (h : IsLocal target) : (Reply.redirect target).Stays := by
  intro d hd
  obtain rfl := List.mem_singleton.1 hd
  exact h

theorem stays_failed (reference text : String) :
    (Reply.redirect (withMessage (locationOf reference).viewUrl text)).Stays :=
  stays_redirect ((isLocal_viewUrl reference).withQuery _ _)

theorem stays_page {v : View} (h : v.IsOnSite) (status : Nat) : (Reply.page status v).Stays :=
  h.confined false

theorem stays_failure (f : Failure) : (Reply.failure f).Stays :=
  confined_errorMarkup _ _ false

/-! ## Pages that are fetched -/

theorem isOnSite_of_page {reference : String} {answer : Fetched}
    (h : (Service.page b (locationOf reference) m answer).bind (requireSave m) = .ok p) :
    IsOnSite p := by
  obtain ⟨q, hq, hsave⟩ := of_bind_eq_ok h
  obtain ⟨d, -, hbuild⟩ := Service.page_ok hq
  have hp : q = p := by
    unfold requireSave at hsave
    split at hsave <;> try split_ifs at hsave
    all_goals exact Except.ok.inj hsave
  exact hp ▸ isOnSite_build hbuild

theorem isOnSite_of_load {reference : String} {filter : Option String}
    (h : (load b (locationOf reference) m filter).Yields cs (.ok p)) : IsOnSite p := by
  unfold load at h
  split at h
  · cases (Exchange.yields_done.1 h).2
  · next f hf =>
    cases f with
    | none =>
      obtain ⟨answer, rest, -, h⟩ := Exchange.yields_fetch.1 h
      exact isOnSite_of_page (Exchange.yields_done.1 h).2.symm
    | some f =>
      obtain ⟨answer, rest, -, h⟩ := Exchange.yields_fetch.1 h
      exact isOnSite_of_page (Exchange.yields_done.1 h).2.symm

theorem stays_show {reference : String} {q : Query}
    (h : (show_ b reference q).Yields cs reply) : reply.Stays := by
  unfold show_ at h
  split at h
  · rw [(Exchange.yields_done.1 h).2]
    exact stays_failure _
  · obtain ⟨first, x, rest, rfl, hx, h⟩ := Exchange.yields_bind.1 h
    rcases x with e | p <;> rw [(Exchange.yields_done.1 h).2]
    · exact stays_failure _
    · exact stays_page (isOnSite_ofPage (isOnSite_of_load hx) _ _) 200

theorem stays_reject {fault : Error} (h : (form.reject b m fault).Yields cs reply) :
    reply.Stays := by
  obtain ⟨first, x, rest, rfl, hx, h⟩ := Exchange.yields_bind.1 h
  rcases x with e | p <;> rw [(Exchange.yields_done.1 h).2]
  · exact stays_failure _
  · exact stays_page ((isOnSite_ofPage (isOnSite_of_load hx) _ _).withText _) 422

/-! ## Operations -/

theorem stays_update (h : (form.update b).Yields cs reply) : reply.Stays := by
  obtain ⟨first, x, rest, rfl, -, h⟩ := Exchange.yields_bind.1 h
  rcases x with e | _
  · cases e
    case invalidJson => exact stays_reject h
    all_goals
      rw [(Exchange.yields_done.1 h).2]
      exact stays_failed _ _
  · rw [(Exchange.yields_done.1 h).2]
    exact stays_redirect (isLocal_viewUrl _)

theorem stays_create (h : (form.create b).Yields cs reply) : reply.Stays := by
  obtain ⟨first, x, rest, rfl, -, h⟩ := Exchange.yields_bind.1 h
  rcases x with e | created
  · cases e
    case invalidJson => exact stays_reject h
    all_goals
      rw [(Exchange.yields_done.1 h).2]
      exact stays_failed _ _
  · rw [(Exchange.yields_done.1 h).2]
    exact stays_redirect (isLocal_createdUrl b _ created)

theorem stays_delete (h : (form.delete b).Yields cs reply) : reply.Stays := by
  obtain ⟨first, x, rest, rfl, -, h⟩ := Exchange.yields_bind.1 h
  rcases x with e | _ <;> rw [(Exchange.yields_done.1 h).2]
  · exact stays_failed _ _
  · exact stays_redirect (isLocal_deletedUrl _ form.parent)

theorem stays_run (h : (form.run b).Yields cs reply) : reply.Stays := by
  obtain ⟨first, x, rest, rfl, -, h⟩ := Exchange.yields_bind.1 h
  rcases x with e | _ <;> rw [(Exchange.yields_done.1 h).2]
  · exact stays_failed _ _
  · exact stays_redirect (isLocal_viewUrl _)

theorem stays_perform {a : Action} (h : (a.perform b form).Yields cs reply) : reply.Stays := by
  cases a with
  | update => exact stays_update h
  | create => exact stays_create h
  | delete => exact stays_delete h
  | run => exact stays_run h

/-! ## Requests -/

theorem stays_of_done {x : Reply} (h : (Exchange.done x).Yields cs reply) (hx : x.Stays) :
    reply.Stays :=
  (Exchange.yields_done.1 h).2 ▸ hx

/-- A reply that leads nowhere. -/
theorem stays_of_nowhere (h : reply.destinations = []) : reply.Stays := by
  intro d hd
  rw [h] at hd
  cases hd

theorem stays_requestShow {r : Request} {reference : String}
    (h : (r.show_ b reference).Yields cs reply) : reply.Stays := by
  unfold Request.show_ at h
  split at h
  · exact stays_show h
  · exact stays_of_done h (stays_of_nowhere rfl)

theorem stays_of_form_error {r : Request} {x : Reply} (h : r.form = .error x) : x.Stays := by
  unfold Request.form at h
  split_ifs at h
  · cases h
    exact stays_of_nowhere rfl
  · cases h
    exact stays_of_nowhere rfl
  · obtain ⟨e, -, rfl⟩ := of_mapError_eq_error h
    exact stays_of_nowhere rfl

theorem stays_route {r : Request} {route : Route} (h : (route.reply b r).Yields cs reply) :
    reply.Stays := by
  cases route with
  | health => exact stays_of_done h (stays_of_nowhere rfl)
  | home => exact stays_of_done h (stays_redirect isLocal_root)
  | entryPoint => exact stays_requestShow h
  | resource escaped =>
    rcases hd : Text.Percent.decode escaped with _ | reference <;>
      simp only [Route.reply, hd] at h
    · exact stays_of_done h (stays_of_nowhere rfl)
    · exact stays_requestShow h
  | action a =>
    rcases hform : r.form with x | form <;> simp only [Route.reply, hform] at h
    · exact stays_of_done h (stays_of_form_error hform)
    · exact stays_perform h

theorem stays_reply {r : Request} (h : (Web.reply b r).Yields cs reply) : reply.Stays := by
  unfold Web.reply at h
  split at h
  · exact stays_of_done h (stays_of_nowhere rfl)
  · split_ifs at h
    · exact stays_route h
    · exact stays_of_done h (stays_of_nowhere rfl)

theorem eq_redirect_of_location {target : String} (h : reply.response.location = some target) :
    reply = .redirect target := by
  cases reply with
  | redirect url =>
    simp only [Reply.response] at h
    split_ifs at h
    · cases h
      rfl
    · cases h
  | _ => cases h

/-- Every request is answered, whatever the server answers, by a reply that leads nowhere but to the
site and to the operations, and so to no other origin; and no other reply has a location. -/
theorem respond_stays {r : Request} {response : Response}
    (h : (respond b r).Yields cs response) :
    ∃ reply, (Web.reply b r).Yields cs reply ∧
      (response = reply.response ∨ response = reply.response.withoutBody) ∧
      (∀ target, response.location = some target → reply = .redirect target) ∧
      ∀ d ∈ reply.destinations, d.Stays ∧ IsPathAbsolute d.url := by
  obtain ⟨first, reply, rest, rfl, hreply, h⟩ := Exchange.yields_bind.1 h
  obtain ⟨rfl, hresponse⟩ := Exchange.yields_done.1 h
  rw [List.append_nil]
  refine ⟨reply, hreply, ?_, ?_, fun d hd => ?_⟩
  · rw [hresponse]
    split_ifs
    · exact .inr rfl
    · exact .inl rfl
  · intro target htarget
    rw [hresponse] at htarget
    split_ifs at htarget <;> exact eq_redirect_of_location htarget
  · have hstays := stays_reply hreply d hd
    exact ⟨hstays, hstays.isPathAbsolute⟩

/-- A server says that a new resource is on another server; the reader is led below the page. -/
theorem respond_stays_elsewhere :
    ∃ (r : Request) (response : Response), (respond ⟨"http://host/api/"⟩ r).Yields
        [.written ⟨.post, "http://host/api//elsewhere/disks", some (.object [])⟩
          (.ok (some "https://elsewhere/disk/1"))] response ∧
      response.location = some "/webui/https://elsewhere/disk/1" ∧
      ∀ d ∈ (Reply.redirect "/webui/https://elsewhere/disk/1").destinations,
        d.Stays ∧ IsPathAbsolute d.url := by
  let form : Form := ⟨"//elsewhere", "//elsewhere/disks", "", none, "\x7b\x7d"⟩
  let r : Request := ⟨"POST", ⟨"/actions/create", ""⟩, some formType, form.body⟩
  have hform : r.form = .ok form := by
    have hisForm : r.isForm = true := by decide
    have hsize : ¬ Text.Utf8.size r.body.toList > maxBody := by decide
    rw [Request.form, if_neg (by simp [hisForm]), if_neg hsize, Form.parse_body]
    rfl
  have hv : (Editor.mk form.json).validate = .ok (.object []) := by
    cbv
  have hlink : Endpoint.resolve ⟨"http://host/api/"⟩ form.href =
      "http://host/api//elsewhere/disks" := by
    decide
  have h : ∃ response, (respond ⟨"http://host/api/"⟩ r).Yields
      [.written ⟨.post, "http://host/api//elsewhere/disks", some (.object [])⟩
        (.ok (some "https://elsewhere/disk/1"))] response ∧
      response.location = some "/webui/https://elsewhere/disk/1" := by
    rw [respond_post rfl (a := .create) rfl hform, Action.perform, create_of_ok hv,
      Service.createRequest, hlink]
    exact ⟨_, .write _ (.done _), by decide⟩
  obtain ⟨response, hyields, hlocation⟩ := h
  obtain ⟨reply, -, -, hredirect, hstays⟩ := respond_stays hyields
  obtain rfl := hredirect _ hlocation
  exact ⟨r, response, hyields, hlocation, hstays⟩

end Cimi.Web
