import Cimi.Proofs.Web.Posting
import Cimi.Proofs.Web.Query
import Cimi.Web.Site

/-!
# What is answered to a form

The form of an operation is answered by a redirect once its request has been answered, whatever the
answer is (`Action.perform_sends`); a text that is no JSON is not sent at all, and the page that
says so is no redirect (`Action.perform_refuses`).  Where a redirect leads is said by `LeadsTo`.
What is asked for otherwise only reads (`Reads`).
-/

namespace Cimi.Web

variable {α β : Type} {b : Endpoint} {l : Location} {m : Mode} {form : Form} {a : Action}
  {request : Write} {r : Request} {target : String}

/-! ## Exchanges that only read -/

/-- An exchange that writes nothing, fetches at most once, and results in nothing but such. -/
def Reads (p : α → Prop) : Exchange α → Prop
  | .done x => p x
  | .fetch _ next => ∀ answer, ∃ x, next answer = .done x ∧ p x
  | .write _ _ => False

theorem Reads.bind {p : α → Prop} {q : β → Prop} {e : Exchange α} {f : α → Exchange β}
    (h : Reads p e) (hf : ∀ x, p x → ∃ y, f x = .done y ∧ q y) : Reads q (e.bind f) := by
  cases e with
  | done x =>
    obtain ⟨y, hy, hq⟩ := hf x h
    rw [Exchange.bind, hy]
    exact hq
  | fetch url next =>
    intro answer
    obtain ⟨x, hx, hp⟩ := h answer
    obtain ⟨y, hy, hq⟩ := hf x hp
    exact ⟨y, by simp only [hx, Exchange.bind, hy], hq⟩
  | write request next => exact h.elim

/-- The URL of the view of a reference. -/
def viewUrl (reference : String) : String := (locationOf reference).viewUrl

theorem isAbsolute_locationOf (reference : String) :
    (locationOf reference).reference.isAbsolute = false :=
  Reference.isAbsolute_dropWhile _

/-- The view of the root is the page, and that of any other reference is below it. -/
theorem viewUrl_eq (reference : String) : viewUrl reference =
    if (locationOf reference).reference.isRoot then root
    else root ++ "/" ++ (locationOf reference).reference.text := by
  have hpage : (locationOf reference).page = root := by
    change (locationOf "").page = root
    decide
  have hdrop := Reference.dropWhile_toList (isAbsolute_locationOf reference)
  rw [viewUrl, Location.viewUrl, Location.resourceViewUrl, hpage, hdrop, String.ofList_toList]
  rfl

/-- Whether a text has no control character of ASCII. -/
def isPrintable (s : String) : Bool := s.toList.all fun c => ' ' ≤ c && c ≠ '\x7F'

theorem ofPath?_action (a : Action) : Route.ofPath? a.path = some (.action a) := by
  cases a <;> decide

theorem respond_post (hm : r.method = "POST") (hpath : r.address.path = a.path)
    (hform : r.form = .ok form) :
    respond b r = (a.perform b form).bind fun reply => .done reply.response := by
  have hreply : reply b r = a.perform b form := by
    rw [reply, hpath, ofPath?_action]
    simp only [Route.methods, hm, List.mem_singleton, if_true, Route.reply, hform]
  have hhead : ¬ r.method = "HEAD" := by rw [hm]; decide
  unfold respond
  rw [hreply]
  simp only [if_neg hhead]
  rfl

end Cimi.Web
