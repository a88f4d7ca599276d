import Cimi.Editor
import Cimi.Proofs.Json.Keyed
import Cimi.Proofs.Json.Written
import Mathlib

/-!
# Formatting the editor

A text that is no JSON is not touched (`Editor.format_of_error`).  Any other text becomes that of
its value on indented lines (`Editor.format_of_ok`), which spells the same value again, with all its
keys in their order, unless there are doubles in it (`Editor.validate_pretty`).  So formatting once
more changes nothing (`Editor.format_keeps`).
-/

namespace Cimi.Editor

variable {e : Editor} {err : Error} {v : Json.Value}

theorem format_of_error (h : e.validate = .error err) : e.format = (e, false) := by
  have hsame : e.formatted = e := by rw [formatted, h]
  rw [format, hsame]
  simp

theorem format_of_ok (h : e.validate = .ok v) :
    e.format = (⟨v.pretty⟩, decide (e.text ≠ v.pretty)) := by
  have hpretty : e.formatted = ⟨v.pretty⟩ := by rw [formatted, h]
  have hchanged : (⟨v.pretty⟩ : Editor) ≠ e ↔ e.text ≠ v.pretty := by
    obtain ⟨text⟩ := e
    rw [Ne, mk.injEq, eq_comm]
  rw [format, hpretty, decide_eq_decide.2 hchanged]

/-- The indented text of a value is read as that value. -/
theorem validate_pretty (hexact : v.all Json.Value.isExact = true)
    (hkeyed : v.all Json.Value.isKeyed = true) (hdepth : v.depth < 128) :
    (mk v.pretty).validate = .ok v :=
  validate_of_parse (Json.parse_pretty hexact hkeyed hdepth)

/-- Formatting leaves a text that is no JSON as it is.  Else the value of the text is written on
indented lines, which spell it again.  That is a change unless the text was written so already, and
formatting what has been written changes nothing. -/
theorem format_keeps (h : ∀ v, e.validate = .ok v → v.all Json.Value.isExact = true) :
    (∀ err, e.validate = .error err → e.format = (e, false)) ∧
      ∀ v, e.validate = .ok v → ∃ changed, e.format = (⟨v.pretty⟩, changed) ∧
        (mk v.pretty).validate = .ok v ∧ (changed = true ↔ e.text ≠ v.pretty) ∧
        (mk v.pretty).format = (⟨v.pretty⟩, false) := by
  refine ⟨fun err => format_of_error, fun v hv => ?_⟩
  obtain ⟨hkeyed, hdepth⟩ := Json.parse_keyed (of_mapError_eq_ok hv)
  have hagain : (mk v.pretty).validate = .ok v := validate_pretty (h v hv) hkeyed hdepth
  refine ⟨_, format_of_ok hv, hagain, decide_eq_true_iff, ?_⟩
  rw [format_of_ok hagain]
  simp

/-- A repeated key, an escape, the greatest and the least integer and an empty object. -/
theorem format_keeps_repeated :
    let e : Editor := ⟨"\x7b\"b\":0,\"a\":[18446744073709551615,-9223372036854775808," ++
      "\x7b\x7d],\"b\":\"\\u000a\"\x7d"⟩
    let v : Json.Value := .object [("b", .string "\n"), ("a", .array
      [.number (.int (2 ^ 64 - 1)), .number (.int (-2 ^ 63)), .object []])]
    e.validate = .ok v ∧ ∃ changed, e.format = (⟨v.pretty⟩, changed) ∧
      (mk v.pretty).validate = .ok v ∧ (changed = true ↔ e.text ≠ v.pretty) ∧
      (mk v.pretty).format = (⟨v.pretty⟩, false) := by
  intro e v
  have hv : e.validate = .ok v := by cbv
  refine ⟨hv, (format_keeps fun w hw => ?_).2 v hv⟩
  rw [hv] at hw
  cases hw
  decide

end Cimi.Editor
