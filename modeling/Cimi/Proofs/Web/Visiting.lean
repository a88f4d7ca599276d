import Cimi.Proofs.Text.Sent
import Cimi.Proofs.Web.Answering
import Mathlib.Data.List.TakeWhile
import Mathlib.Data.Option.Basic

/-!
# Which views can be visited

The URL of a view is that of the root with the reference below it, unescaped.  A browser that goes
there is shown the reference again if and only if every character of it stays in the path and no
part of it reads as an escape (`reaches_viewUrl_iff`).  So a reference with a `?` is cut there
(`reaches_cut`).
-/

namespace Cimi.Web

open Text (Utf8.size)
open Text.Percent (send sendChar hasEscape isEscapedBySender)

variable {b : Endpoint} {r : Request} {a : Address} {q : Query} {cs t suffix : List Char}
  {url reference : String}

/-- The request of a browser that goes to a URL. -/
def Request.ofUrl? (url : String) : Option Request :=
  Request.ofParts? "GET" (String.ofList (send url.toList)) none ""

/-- The reference whose page is at a route. -/
def Route.reference? : Route → Option String
  | .entryPoint => some ""
  | .resource escaped => (Text.Percent.decode escaped).map String.ofList
  | .health | .home | .action _ => none

/-- The reference and the query with which a request for a page is answered. -/
def Request.shown? (r : Request) : Option (String × Query) := do
  let route ← Route.ofPath? r.address.path
  let reference ← route.reference?
  let q ← (Query.parse r.address.query).toOption
  return (reference, q)

/-- A browser that goes to the URL is shown the page of the reference under the query. -/
def Reaches (url reference : String) (q : Query) : Prop :=
  ∃ r, Request.ofUrl? url = some r ∧ r.shown? = some (reference, q) ∧
    ∀ b, reply b r = show_ b reference q

/-- Whether a character, as a browser sends it, stays in a path. -/
def staysInPath (c : Char) : Bool := isEscapedBySender c || Address.isPathChar c

/-- Whether a browser can send the text in a path so that it is read as it was written. -/
def isPlain (cs : List Char) : Bool := cs.all staysInPath && !hasEscape cs

/-- Whether a URL is not too long when a browser sends it. -/
def fits (url : String) : Bool := Utf8.size (send url.toList) ≤ Address.maxLength

theorem shown?_eq_some_iff : r.shown? = some (reference, q) ↔
    (∃ route, Route.ofPath? r.address.path = some route ∧ route.reference? = some reference) ∧
      Query.parse r.address.query = .ok q := by
  have hquery : (Query.parse r.address.query).toOption = some q ↔
      Query.parse r.address.query = .ok q := by
    rcases Query.parse r.address.query with e | q' <;> simp [Except.toOption]
  rw [← hquery, Request.shown?]
  rcases hroute : Route.ofPath? r.address.path with _ | route
  · simp
  · rcases hreference : route.reference? with _ | reference' <;>
      rcases (Query.parse r.address.query).toOption with _ | q' <;> simp [hreference]

theorem reply_of_shown? (hm : r.method = "GET") (h : r.shown? = some (reference, q))
    (b : Endpoint) : reply b r = show_ b reference q := by
  obtain ⟨⟨route, hroute, hreference⟩, hquery⟩ := shown?_eq_some_iff.1 h
  have hshow (reference : String) : r.show_ b reference = show_ b reference q := by
    rw [Request.show_, hquery]
  unfold reply
  rw [hroute]
  cases route with
  | health | home | action _ => cases hreference
  | entryPoint =>
    cases hreference
    simp only [hm]
    exact hshow ""
  | resource escaped =>
    obtain ⟨cs, hcs, rfl⟩ := Option.map_eq_some_iff.1 hreference
    have hreply : Route.reply b r (.resource escaped) = show_ b (String.ofList cs) q := by
      rw [Route.reply, hcs]
      exact hshow _
    simp only [hm, ← hreply]
    rfl

theorem path_of_pathAndQuery (h : Address.pathAndQuery cs = some a) :
    a.path.toList = cs.takeWhile Address.isPathChar := by
  unfold Address.pathAndQuery at h
  split at h
  · cases h
    exact String.toList_ofList
  · cases h
    exact String.toList_ofList
  · split at h
    · cases h
      exact String.toList_ofList
    · cases h
      exact String.toList_ofList
    · cases h
  · cases h

theorem isPathChar_of_isUnreserved {c : Char} (h : Text.Percent.isUnreserved c = true) :
    Address.isPathChar c = true := by
  have hlow : '!' ≤ c := UInt32.le_iff_toNat_le.2 (Text.Percent.toNat_of_isUnreserved h).1
  have hother : c ∉ ['#', '<', '>', '?', '\x60', '\x7F'] := by
    intro hc
    have hnone :
        ['#', '<', '>', '?', '\x60', '\x7F'].all (!Text.Percent.isUnreserved ·) = true := by decide
    have hreserved := List.all_eq_true.1 hnone c hc
    rw [h] at hreserved
    cases hreserved
  simp [Address.isPathChar, hlow, hother]

theorem isPathChar_of_mem_sendChar {c d : Char} (hc : staysInPath c = true) (hd : d ∈ sendChar c) :
    Address.isPathChar d = true := by
  unfold sendChar at hd
  split_ifs at hd with hescaped
  · rcases Text.Percent.mem_escapes hd with h | rfl
    · exact isPathChar_of_isUnreserved h
    · rfl
  · obtain rfl := List.mem_singleton.1 hd
    simpa [staysInPath, hescaped] using hc

/-- What is read as the path of a text is what the text has up to where it leaves the path. -/
theorem takeWhile_send (cs : List Char) :
    (send cs).takeWhile Address.isPathChar = send (cs.takeWhile staysInPath) := by
  induction cs with
  | nil => rfl
  | cons c cs ih =>
    rw [Text.Percent.send_cons]
    cases hc : staysInPath c with
    | true =>
      have hsent : ∀ d ∈ sendChar c, Address.isPathChar d = true :=
        fun d => isPathChar_of_mem_sendChar hc
      rw [List.takeWhile_append_of_pos hsent, ih, List.takeWhile_cons_of_pos hc,
        Text.Percent.send_cons]
    | false =>
      obtain ⟨hsender, hpath⟩ := Bool.or_eq_false_iff.1 hc
      rw [sendChar, if_neg (by simp [hsender]), List.singleton_append,
        List.takeWhile_cons_of_neg (by simp [hpath]), List.takeWhile_cons_of_neg (by simp [hc])]
      rfl

theorem ofUrl?_eq (h : url.toList = '/' :: cs) : Request.ofUrl? url =
    if fits url then (Address.pathAndQuery (send url.toList)).map fun a => ⟨"GET", a, none, ""⟩
    else none := by
  have hsend : send url.toList = '/' :: send cs := by
    rw [h]
    rfl
  have hparse : Address.parse (String.ofList (send url.toList)) =
      if fits url then Address.pathAndQuery (send url.toList) else none := by
    rw [Address.parse, String.toList_ofList, fits, hsend]
    simp only [decide_eq_true_eq]
    split_ifs <;> first | rfl | omega
  have hmethod : (!"GET".toList.isEmpty && "GET".toList.all isMethodChar) = true := by decide
  rw [Request.ofUrl?, Request.ofParts?, hparse, hmethod]
  split_ifs
  · rcases Address.pathAndQuery (send url.toList) with _ | a <;> rfl
  · rfl

theorem reaches_iff (h : url.toList = '/' :: cs) : Reaches url reference q ↔
    fits url = true ∧ ∃ a, Address.pathAndQuery (send url.toList) = some a ∧
      (∃ route, Route.ofPath? a.path = some route ∧ route.reference? = some reference) ∧
        Query.parse a.query = .ok q := by
  rw [Reaches, ofUrl?_eq h]
  constructor
  · rintro ⟨r, hr, hshown, -⟩
    split_ifs at hr with hfits
    obtain ⟨a, ha, rfl⟩ := Option.map_eq_some_iff.1 hr
    exact ⟨hfits, a, ha, shown?_eq_some_iff.1 hshown⟩
  · rintro ⟨hfits, a, ha, hshown⟩
    have hshown := shown?_eq_some_iff (r := ⟨"GET", a, none, ""⟩).2 hshown
    refine ⟨⟨"GET", a, none, ""⟩, ?_, hshown, reply_of_shown? rfl hshown⟩
    rw [if_pos hfits, ha]
    rfl

/-! ## The paths of views -/

/-- Below the path of the root there is a resource for every text but the empty one. -/
theorem ofPath?_below {path : String} (p : List Char) (h : path.toList = "/webui/".toList ++ p) :
    Route.ofPath? path = if p = [] then none else some (.resource p) := by
  have hroot : (root ++ "/").toList = "/webui/".toList := by decide
  have hprefix : "/webui/".toList.isPrefixOf? ("/webui/".toList ++ p) = some p :=
    List.isPrefixOf?_eq_some_iff_append_eq.2 rfl
  rw [Route.ofPath?, hroot, h, hprefix]
  rcases p with _ | ⟨c, p⟩
  · obtain rfl : path = "/webui/" := String.toList_inj.1 h
    decide
  · rfl

theorem takeWhile_eq_self {p : Char → Bool} : t.takeWhile p = t ↔ t.all p = true := by
  rw [List.takeWhile_eq_self_iff, List.all_eq_true]

theorem isPathChar_of_mem_send (h : cs.all staysInPath = true) :
    ∀ c ∈ send cs, Address.isPathChar c = true := by
  refine List.takeWhile_eq_self_iff.1 ?_
  rw [takeWhile_send, takeWhile_eq_self.2 h]

theorem pathAndQuery_send (h : cs.all staysInPath = true) :
    Address.pathAndQuery (send cs) = some ⟨String.ofList (send cs), ""⟩ := by
  have hall := isPathChar_of_mem_send h
  have hdrop : (send cs).dropWhile Address.isPathChar = [] :=
    List.dropWhile_eq_nil_iff.2 hall
  rw [Address.pathAndQuery, hdrop, List.takeWhile_eq_self_iff.2 hall]

theorem pathAndQuery_send_query {query : List Char} (h : cs.all staysInPath = true)
    (hquery : query.all Address.isQueryChar = true) :
    Address.pathAndQuery (send cs ++ '?' :: query) =
      some ⟨String.ofList (send cs), String.ofList query⟩ := by
  have hall := isPathChar_of_mem_send h
  have hquery := List.all_eq_true.1 hquery
  have hend : Address.isPathChar '?' = false := by decide
  have hdrop : query.dropWhile Address.isQueryChar = [] := List.dropWhile_eq_nil_iff.2 hquery
  rw [Address.pathAndQuery, List.dropWhile_append_of_pos hall, List.takeWhile_append_of_pos hall,
    List.dropWhile_cons_of_neg (by simp [hend]), List.takeWhile_cons_of_neg (by simp [hend]),
    List.append_nil]
  simp only [hdrop, List.takeWhile_eq_self_iff.2 hquery]

/-- A URL below that of the root leads to its reference if what follows it leaves the path. -/
theorem reaches_below_iff (ht : t ≠ []) (hurl : url.toList = "/webui/".toList ++ t ++ suffix)
    (hsuffix : t.all staysInPath = true → suffix.takeWhile staysInPath = [])
    (hquery : t.all staysInPath = true →
      ∃ a, Address.pathAndQuery (send url.toList) = some a ∧ Query.parse a.query = .ok q) :
    Reaches url (String.ofList t) q ↔ isPlain t = true ∧ fits url = true := by
  have hslash : url.toList = '/' :: ("webui/".toList ++ t ++ suffix) := hurl
  -- A reference that does not stay in the path is cut before what follows it is seen.
  have hkept : (t ++ suffix).takeWhile staysInPath = t.takeWhile staysInPath := by
    by_cases hstays : t.all staysInPath = true
    · rw [List.takeWhile_append_of_pos (List.all_eq_true.1 hstays), hsuffix hstays,
        takeWhile_eq_self.2 hstays, List.append_nil]
    · rw [List.takeWhile_append, if_neg]
      intro hlength
      have hself := (List.takeWhile_prefix staysInPath).eq_of_length hlength
      exact hstays (takeWhile_eq_self.1 hself)
  have hroute {a : Address} (ha : Address.pathAndQuery (send url.toList) = some a) :
      Route.ofPath? a.path = if send (t.takeWhile staysInPath) = [] then none
        else some (.resource (send (t.takeWhile staysInPath))) := by
    refine ofPath?_below _ ?_
    rw [path_of_pathAndQuery ha, takeWhile_send, hurl, ← hkept]
    rfl
  rw [reaches_iff hslash, isPlain, Bool.and_eq_true]
  constructor
  · rintro ⟨hfits, a, ha, ⟨route, hr, hreference⟩, -⟩
    rw [hroute ha] at hr
    split_ifs at hr
    obtain rfl := Option.some.inj hr
    obtain ⟨cs, hcs, htext⟩ := Option.map_eq_some_iff.1 hreference
    obtain rfl : cs = t := String.ofList_inj.1 htext
    obtain ⟨hself, hescape⟩ :=
      (Text.Percent.decode_send_eq_some_iff (List.takeWhile_prefix _)).1 hcs
    exact ⟨⟨takeWhile_eq_self.1 hself, by simp [hescape]⟩, hfits⟩
  · rintro ⟨⟨hstays, hescape⟩, hfits⟩
    obtain ⟨a, ha, hq⟩ := hquery hstays
    have hdecode : Text.Percent.decode (send t) = some t :=
      (Text.Percent.decode_send_eq_some_iff (List.prefix_refl t)).2 ⟨rfl, by simpa using hescape⟩
    -- Nothing but the empty text is sent as nothing, since it could not come back.
    have hne : send t ≠ [] := by
      intro hnil
      rw [hnil] at hdecode
      exact ht ((Text.Percent.decode_send_eq_some_iff List.nil_prefix).1 hdecode).1.symm
    have hr := hroute ha
    rw [takeWhile_eq_self.2 hstays, if_neg hne] at hr
    exact ⟨hfits, a, ha, ⟨_, hr, by rw [Route.reference?, hdecode]; rfl⟩, hq⟩

/-! ## The views of a reference -/

theorem Query.parse_mode (m : Mode) :
    Query.parse (String.ofList (queryPart "mode" m.name)) = .ok ⟨some m.name, none, none⟩ := by
  have hfields : queryPart "mode" m.name = (writeFields [("mode", m.name)]).toList := by
    cases m <;> decide
  rw [Query.parse, Fields.parse, String.toList_ofList, hfields, formPairs_writeFields]
  rfl

theorem ofPath?_root : Route.ofPath? root = some .entryPoint := by decide

theorem reaches_root : Reaches root "" ⟨none, none, none⟩ := by
  have hurl : root.toList = '/' :: "webui".toList := rfl
  exact (reaches_iff hurl).2
    ⟨by decide, ⟨root, ""⟩, by decide, ⟨.entryPoint, ofPath?_root, rfl⟩, rfl⟩

theorem toList_withMode (h : '?' ∉ url.toList) (m : Mode) :
    (withMode url m).toList = url.toList ++ '?' :: queryPart "mode" m.name := by
  rw [withMode, toList_withQuery, if_neg h]

theorem reaches_root_mode (m : Mode) : Reaches (withMode root m) "" ⟨some m.name, none, none⟩ := by
  have hurl : (withMode root m).toList = '/' :: ("webui?".toList ++ queryPart "mode" m.name) :=
    toList_withMode (by decide) m
  refine (reaches_iff hurl).2 ⟨by cases m <;> decide,
    ⟨root, String.ofList (queryPart "mode" m.name)⟩, ?_, ⟨.entryPoint, ofPath?_root, rfl⟩,
    Query.parse_mode m⟩
  rw [hurl]
  cases m <;> decide

/-- A reference without the slashes at its start. -/
def withoutSlashes (reference : String) : String :=
  String.ofList (reference.toList.dropWhile (· = '/'))

theorem viewUrl_of_empty (h : withoutSlashes reference = "") : viewUrl reference = root := by
  have hroot : (locationOf reference).reference.isRoot = true := by
    change (withoutSlashes reference).toList.isEmpty = true
    rw [h]
    rfl
  rw [viewUrl_eq, if_pos hroot]

theorem toList_viewUrl (h : (withoutSlashes reference).toList ≠ []) :
    (viewUrl reference).toList = "/webui/".toList ++ (withoutSlashes reference).toList := by
  have hroot : (locationOf reference).reference.isRoot = false := by
    change (withoutSlashes reference).toList.isEmpty = false
    simpa using h
  rw [viewUrl_eq, if_neg (by simp [hroot]), String.toList_append, String.toList_append]
  rfl

theorem staysInPath_below (h : t.all staysInPath = true) :
    ("/webui/".toList ++ t).all staysInPath = true := by
  rw [List.all_append, h]
  decide

theorem reaches_resource_iff (ht : t ≠ []) (hurl : url.toList = "/webui/".toList ++ t) :
    Reaches url (String.ofList t) ⟨none, none, none⟩ ↔ isPlain t = true ∧ fits url = true := by
  have hsuffix : url.toList = "/webui/".toList ++ t ++ [] := by rw [hurl, List.append_nil]
  refine reaches_below_iff ht hsuffix (fun _ => rfl) ?_
  intro hstays
  rw [hurl]
  exact ⟨_, pathAndQuery_send (staysInPath_below hstays), rfl⟩

theorem reaches_resource_mode_iff (ht : t ≠ []) (hurl : url.toList = "/webui/".toList ++ t)
    (m : Mode) : Reaches (withMode url m) (String.ofList t) ⟨some m.name, none, none⟩ ↔
      isPlain t = true ∧ fits (withMode url m) = true := by
  have hquestion (hstays : t.all staysInPath = true) : '?' ∉ url.toList := by
    intro h
    rw [hurl] at h
    exact absurd (List.all_eq_true.1 (staysInPath_below hstays) _ h) (by decide)
  refine reaches_below_iff ht (by rw [withMode, toList_withQuery, hurl]) ?_ ?_
  · intro hstays
    rw [← hurl, if_neg (hquestion hstays)]
    exact List.takeWhile_cons_of_neg (by decide)
  · intro hstays
    have hsend : send ('?' :: queryPart "mode" m.name) = '?' :: queryPart "mode" m.name := by
      cases m <;> decide
    have hpart : (queryPart "mode" m.name).all Address.isQueryChar = true := by
      cases m <;> decide
    rw [toList_withMode (hquestion hstays), Text.Percent.send_append, hsend, hurl]
    exact ⟨_, pathAndQuery_send_query (staysInPath_below hstays) hpart, Query.parse_mode m⟩

/-- A browser that goes to the view of a reference, in its mode or in another, is shown that
reference if and only if it can be sent in a path. -/
theorem reaches_viewUrl_iff (reference : String) :
    (Reaches (viewUrl reference) (withoutSlashes reference) ⟨none, none, none⟩ ↔
      isPlain (withoutSlashes reference).toList = true ∧ fits (viewUrl reference) = true) ∧
    ∀ m : Mode,
      Reaches (withMode (viewUrl reference) m) (withoutSlashes reference)
        ⟨some m.name, none, none⟩ ↔
        isPlain (withoutSlashes reference).toList = true ∧
          fits (withMode (viewUrl reference) m) = true := by
  by_cases hr : (withoutSlashes reference).toList = []
  · have hempty : withoutSlashes reference = "" := String.toList_inj.1 hr
    rw [viewUrl_of_empty hempty, hempty]
    refine ⟨iff_of_true reaches_root (by decide), fun m => iff_of_true (reaches_root_mode m) ?_⟩
    cases m <;> decide
  · have hurl := toList_viewUrl hr
    have hview := reaches_resource_iff hr hurl
    have hmode := reaches_resource_mode_iff hr hurl
    rw [String.ofList_toList] at hview
    simp only [String.ofList_toList] at hmode
    exact ⟨hview, hmode⟩

theorem reaches_viewUrl_disk :
    isPlain "disks/é 1".toList = true ∧ fits (viewUrl "/disks/é 1") = true ∧
      Reaches (viewUrl "/disks/é 1") "disks/é 1" ⟨none, none, none⟩ :=
  ⟨by decide, by decide, (reaches_viewUrl_iff "/disks/é 1").1.2 ⟨by decide, by decide⟩⟩

/-- The view of a reference with a `?` is the page of what stands before it. -/
theorem reaches_cut : Reaches (viewUrl "disk?1") "disk" ⟨none, none, none⟩ ∧
    ¬ Reaches (viewUrl "disk?1") "disk?1" ⟨none, none, none⟩ := by
  have hurl : (viewUrl "disk?1").toList = "/webui/".toList ++ "disk?1".toList :=
    toList_viewUrl (by decide)
  have hdecode : Text.Percent.decode "disk".toList = some "disk".toList :=
    (Text.Percent.decode_send_eq_some_iff (List.prefix_refl "disk".toList)).2 ⟨rfl, by decide⟩
  constructor
  · refine (reaches_iff hurl).2 ⟨by decide, ⟨"/webui/disk", "1"⟩, by decide,
      ⟨.resource "disk".toList, by decide, ?_⟩, ?_⟩
    · rw [Route.reference?, hdecode]
      rfl
    · have hpairs : Text.Percent.formPairs "1".toList = [("1", "")] := by
        change [(String.ofList (Text.Percent.decodeFormPart (Text.Percent.encode ['1'])),
          String.ofList (Text.Percent.decodeFormPart (Text.Percent.encode [])))] = _
        rw [Text.Percent.decodeFormPart_encode, Text.Percent.decodeFormPart_encode]
      rw [Query.parse, Fields.parse, hpairs]
      rfl
  · intro h
    have hplain := ((reaches_resource_iff (by decide) hurl).1 h).1
    exact absurd hplain (by decide)

end Cimi.Web
