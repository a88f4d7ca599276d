import Cimi.Proofs.Editor
import Cimi.Proofs.Terminal.Confirmed

/-!
# The report on a text that is formatted

A browser that is told to format the editor asks no server.  It prints the page again, and before it
a report that the editor holds no JSON if formatting has changed nothing (`Browser.feed_format`).
So it reports a text that is no JSON, and likewise one that is on indented lines already
(`Browser.reportsInvalid_iff`).  Such a text is what formatting leaves behind: of two lines that
format the same JSON, one right after the other, the second one brings the report
(`Browser.reportsInvalid_again`).
-/

namespace Cimi.Terminal

namespace Browser

variable {b : Browser} {line : Option String} {text : String} {v : Json.Value}

/-- The report that the editor holds no JSON. -/
def invalidReport (b : Browser) : String :=
  String.ofList (Terminal.line (paint b.color .yellow "editor does not hold valid JSON"))

/-- The browser with the text of its editor formatted. -/
def formatted (b : Browser) : Browser :=
  { b with
    session := { b.session with editor := b.session.editor.formatted }
    awaiting := .command }

theorem not_blank_of_parse {input : Input} (h : Input.parse text = .ok input) :
    (Text.trim text.toList).isEmpty = false := by
  by_contra hblank
  rw [parse_of_blank (by simpa using hblank)] at h
  cases h

theorem feed_format (h : b.Reads line .format) :
    b.feed line = .done (b.formatted, (if b.session.editor.format.2 then "" else b.invalidReport) ++
      b.formatted.show_ ++ prompt) := by
  obtain ⟨hb, text, rfl, hp⟩ := h
  unfold feed commandLine
  simp only [hb, not_blank_of_parse hp, hp]
  rfl

/-- A line makes the browser print the report, and then the page and the prompt. -/
def ReportsInvalid (b : Browser) (line : Option String) : Prop :=
  ∃ b', b.feed line = .done (b', b.invalidReport ++ b'.show_ ++ prompt)

theorem invalidReport_ne (b : Browser) : b.invalidReport ≠ "" := by
  rw [Ne, ← String.toList_inj, invalidReport, String.toList_ofList]
  simp [Terminal.line]

theorem reportsInvalid_iff_unchanged (h : b.Reads line .format) :
    b.ReportsInvalid line ↔ b.session.editor.format.2 = false := by
  rw [ReportsInvalid, feed_format h]
  constructor
  · rintro ⟨b', he⟩
    cases hchanged : b.session.editor.format.2 with
    | false => rfl
    | true =>
      -- Before the page there is nothing, which is no report.
      rw [hchanged] at he
      obtain ⟨rfl, hprinted⟩ := Prod.mk.inj (Exchange.done.inj he)
      have hshown := congrArg String.toList hprinted
      simp only [String.toList_append, List.append_assoc, List.append_cancel_right_eq] at hshown
      exact absurd (String.toList_inj.1 hshown).symm b.invalidReport_ne
  · intro hsame
    exact ⟨b.formatted, by simp [hsame]⟩

theorem reportsInvalid_of_pretty (h : b.Reads line .format)
    (hv : Json.parse b.session.editor.text = .ok v) (hpretty : b.session.editor.text = v.pretty) :
    b.ReportsInvalid line := by
  rw [reportsInvalid_iff_unchanged h, Editor.format_of_ok (Editor.validate_of_parse hv), hpretty]
  simp

/-- Whatever JSON the editor holds, it still holds it after a line that formats it, and the next
such line brings the report. -/
theorem reportsInvalid_again (h : b.Reads line .format)
    (hv : Json.parse b.session.editor.text = .ok v) (hexact : v.all Json.Value.isExact = true)
    (hnext : Input.parse text = .ok .format) :
    ∃ b' printed, b.feed line = .done (b', printed) ∧
      Json.parse b'.session.editor.text = .ok v ∧ b'.ReportsInvalid (some text) := by
  obtain ⟨hkeyed, hdepth⟩ := Json.parse_keyed hv
  have htext : b.formatted.session.editor.text = v.pretty := by
    rw [formatted, Editor.formatted, Editor.validate_of_parse hv]
  have hagain : Json.parse b.formatted.session.editor.text = .ok v := by
    rw [htext]
    exact Json.parse_pretty hexact hkeyed hdepth
  exact ⟨b.formatted, _, feed_format h, hagain,
    reportsInvalid_of_pretty ⟨rfl, text, rfl, hnext⟩ hagain htext⟩

/-- A line that formats the editor brings the report for a text that is no JSON, and for a text on
indented lines already. -/
theorem reportsInvalid_iff (h : b.Reads line .format) :
    b.ReportsInvalid line ↔ (∃ fault, Json.parse b.session.editor.text = .error fault) ∨
      ∃ v, Json.parse b.session.editor.text = .ok v ∧ b.session.editor.text = v.pretty := by
  rw [reportsInvalid_iff_unchanged h]
  rcases hparse : Json.parse b.session.editor.text with fault | v
  · simp [Editor.format_of_error (Editor.validate_of_fault hparse)]
  · simp [Editor.format_of_ok (Editor.validate_of_parse hparse)]

/-- A browser whose editor holds a text. -/
def holding (text : String) : Browser :=
  ⟨false, (Session.new ⟨"http://host/api/"⟩ ⟨"page", ⟨"disk/1"⟩, .fragment⟩).setText text,
    .command⟩

theorem reads_format (text : String) : (holding text).Reads (some " format ") .format :=
  ⟨rfl, " format ", rfl, by cbv⟩

theorem reportsInvalid_iff_open :
    (holding "\x7b").Reads (some " format ") .format ∧
      (holding "\x7b").ReportsInvalid (some " format ") := by
  have hfault : ∃ fault, Json.parse "\x7b" = .error fault := ⟨_, by cbv⟩
  exact ⟨reads_format _, (reportsInvalid_iff (reads_format _)).2 (.inl hfault)⟩

/-- The report comes for no text but one that is no JSON. -/
def ReportsOnlyInvalid : Prop :=
  ∀ (b : Browser) (line : Option String), b.Reads line .format →
    (b.ReportsInvalid line ↔ ∃ fault, Json.parse b.session.editor.text = .error fault)

theorem null_reported : ¬ReportsOnlyInvalid := by
  intro h
  have hnull : Json.parse "null" = .ok .null := by cbv
  have hreport : (holding "null").ReportsInvalid (some " format ") :=
    reportsInvalid_of_pretty (reads_format _) hnull (by cbv)
  obtain ⟨fault, hfault⟩ := (h _ _ (reads_format _)).1 hreport
  cases hfault.symm.trans hnull

end Browser

end Cimi.Terminal
