import Cimi.Json.Printer
import Cimi.Json.Reader
import Mathlib.Data.List.Basic
import Mathlib.Tactic.IntervalCases

/-!
# Strings and integers are read as they were written

A reader that meets a written string takes off exactly that string, whatever follows
(`string_escaped`).  A written integer is read back if it is in the range in which integers stay
integers and nothing follows that would belong to a number (`scalar_writeInt`).
-/

namespace Cimi.Json.Reader

variable {cs rest text : List Char}

/-! ## Strings -/

theorem hexUnit_lower {m n : Nat} (hm : m < 16) (hn : n < 16) (cs : List Char) :
    ∃ h, hexUnit ('0' :: '0' :: Text.Hex.lower m :: Text.Hex.lower n :: cs) =
      .ok (m * 16 + n, ⟨cs, h⟩) := by
  have hzero : Text.Hex.value? '0' = some 0 := rfl
  refine ⟨by simp only [List.length_cons]; omega, ?_⟩
  rw [hexUnit]
  simp only [hzero, Text.Hex.value?_lower hm, Text.Hex.value?_lower hn, Nat.zero_mul, Nat.zero_add]

theorem unicodeEscape_lower {c : Char} (hc : c.toNat < 0x20) (cs : List Char) :
    ∃ h, unicodeEscape ('0' :: '0' :: Text.Hex.lower (c.toNat / 16) ::
      Text.Hex.lower (c.toNat % 16) :: cs) = .ok (c, ⟨cs, h⟩) := by
  obtain ⟨h, hunit⟩ := hexUnit_lower (m := c.toNat / 16) (n := c.toNat % 16) (by omega) (by omega) cs
  have hvalue : c.toNat / 16 * 16 + c.toNat % 16 = c.toNat := by omega
  have htrailing : isTrailing c.toNat = false := by
    simp [isTrailing]
    omega
  have hleading : isLeading c.toNat = false := by
    simp [isLeading]
    omega
  refine ⟨h, ?_⟩
  rw [hvalue] at hunit
  rw [unicodeEscape, hunit]
  simp only [htrailing, hleading, Bool.false_eq_true, ↓reduceIte, Char.ofNat_toNat]

/-- A character is written as itself, or as an escape that stands for it. -/
theorem escapeChar_cases (c : Char) :
    (escapeChar c = [c] ∧ c ≠ '"' ∧ c ≠ '\\' ∧ ¬ c.toNat < 0x20) ∨
      ∃ spelled, escapeChar c = '\\' :: spelled ∧
        ∀ cs, ∃ h, escape (spelled ++ cs) = .ok (c, ⟨cs, h⟩) := by
  unfold escapeChar
  split
  case h_8 hquote hslash _ _ _ _ _ =>
    split_ifs with hc
    · refine .inr ⟨_, rfl, fun cs => ?_⟩
      obtain ⟨h, hu⟩ := unicodeEscape_lower hc cs
      refine ⟨Nat.le_succ_of_le h, ?_⟩
      simp only [List.cons_append, List.nil_append, escape, hu]
      rfl
    · exact .inl ⟨rfl, hquote, hslash, hc⟩
  all_goals exact .inr ⟨_, rfl, fun cs => ⟨Nat.le_succ _, rfl⟩⟩

/-- A character is read back from what is written for it. -/
theorem stringChars_escapeChar {h} (hcs : stringChars cs = .ok (text, ⟨rest, h⟩)) (c : Char) :
    ∃ h, stringChars (escapeChar c ++ cs) = .ok (c :: text, ⟨rest, h⟩) := by
  rcases escapeChar_cases c with ⟨he, hquote, hslash, hc⟩ | ⟨spelled, he, hspelled⟩ <;> rw [he]
  · rw [List.singleton_append, stringChars.eq_4 c cs hquote hslash, if_neg hc, hcs]
    exact ⟨Nat.lt_succ_of_lt h, rfl⟩
  · obtain ⟨h', hs⟩ := hspelled cs
    rw [List.cons_append, stringChars, hs]
    refine ⟨Nat.lt_succ_of_lt (Nat.lt_of_lt_of_le h h'), ?_⟩
    simp only [hcs]
    rfl

theorem stringChars_escaped (rest text : List Char) :
    ∃ h, stringChars (text.flatMap escapeChar ++ '"' :: rest) = .ok (text, ⟨rest, h⟩) := by
  induction text with
  | nil => exact ⟨_, stringChars.eq_2 rest⟩
  | cons c text ih =>
    obtain ⟨h, ih⟩ := ih
    rw [List.flatMap_cons, List.append_assoc]
    exact stringChars_escapeChar ih c

theorem string_escaped (s : String) (rest : List Char) :
    ∃ h, string (s.toList.flatMap escapeChar ++ '"' :: rest) = .ok (s, ⟨rest, h⟩) := by
  obtain ⟨h, hs⟩ := stringChars_escaped rest s.toList
  refine ⟨h, ?_⟩
  rw [string, hs]
  simp only [String.ofList_toList]

/-! ## Integers -/

/-- Nothing follows that belongs to a number. -/
def EndsNumber (rest : List Char) : Prop :=
  ∀ c ∈ rest.head?, c.isDigit = false ∧ c ≠ '.' ∧ c ≠ 'e' ∧ c ≠ 'E'

theorem digitChar_ne_zero {n : Nat} (hn : n ≠ 0) (hlt : n < 10) : n.digitChar ≠ '0' := by
  interval_cases n <;> first | exact absurd rfl hn | decide

theorem head?_toDigits : ∀ {n : Nat}, n ≠ 0 → (Nat.toDigits 10 n).head? ≠ some '0' := by
  intro n
  induction n using Nat.strongRecOn with
  | _ n ih =>
    intro hn
    rw [Nat.toDigits_eq_if (by decide)]
    split_ifs with hlt
    · simpa using digitChar_ne_zero hn hlt
    · rw [List.head?_append_of_ne_nil _ Nat.toDigits_ne_nil]
      exact ih (n / 10) (by omega) (by omega)

/-- No numeral but that of zero begins with a zero. -/
theorem digits_eq_cons (n : Nat) : ∃ c ds, Text.Decimal.digits n = c :: ds ∧ c.isDigit = true ∧
    (∀ d ∈ ds, d.isDigit = true) ∧ (c = '0' → ds = []) := by
  have hdigit {c : Char} : c ∈ Text.Decimal.digits n → c.isDigit = true :=
    Text.Decimal.isDigit_of_mem_digits
  rcases hds : Text.Decimal.digits n with _ | ⟨c, ds⟩
  · exact absurd hds Nat.toDigits_ne_nil
  · refine ⟨c, ds, rfl, hdigit (by simp [hds]), fun d hd => hdigit (by simp [hds, hd]), ?_⟩
    rintro rfl
    by_cases hn : n = 0
    · subst hn
      exact (List.cons.inj hds).2.symm
    · exact absurd (congrArg List.head? hds) (head?_toDigits hn)

theorem le_ofDigitChars : ∀ (ds : List Char) (s : Nat), s ≤ Nat.ofDigitChars 10 ds s
  | [], _ => Nat.le_refl _
  | d :: ds, s => by
    have := le_ofDigitChars ds (10 * s + (d.toNat - '0'.toNat))
    rw [Nat.ofDigitChars_cons]
    omega

/-- Digits that name a number in range are all taken up. -/
theorem pushDigits_eq : ∀ (ds : List Char) (s : Nat), Nat.ofDigitChars 10 ds s ≤ maxSignificand →
    pushDigits s ds = (Nat.ofDigitChars 10 ds s, 0)
  | [], s, _ => rfl
  | d :: ds, s, h => by
    have hs : s * 10 + Text.Decimal.digitValue d = 10 * s + (d.toNat - '0'.toNat) := by
      rw [Text.Decimal.digitValue, Nat.mul_comm]
    rw [Nat.ofDigitChars_cons] at h ⊢
    simp only [pushDigits, hs]
    rw [if_pos (Nat.le_trans (le_ofDigitChars ds _) h)]
    exact pushDigits_eq ds _ h

theorem pushDigits_digits {n : Nat} (hn : n ≤ maxSignificand) :
    pushDigits 0 (Text.Decimal.digits n) = (n, 0) := by
  have hvalue : Nat.ofDigitChars 10 (Text.Decimal.digits n) 0 = n := Text.Decimal.value_digits n
  rw [pushDigits_eq _ 0 (by rwa [hvalue]), hvalue]

theorem digits_append {ds : List Char} (hds : ∀ d ∈ ds, d.isDigit = true)
    (hrest : EndsNumber rest) : ∃ h, digits (ds ++ rest) = (ds, ⟨rest, h⟩) := by
  have hnone : rest.takeWhile Char.isDigit = [] ∧ rest.dropWhile Char.isDigit = rest := by
    rcases rest with _ | ⟨c, rest⟩
    · exact ⟨rfl, rfl⟩
    · have hc : c.isDigit = false := (hrest c rfl).1
      simp [hc]
  refine ⟨by simp, ?_⟩
  unfold digits
  simp only [List.takeWhile_append_of_pos hds, List.dropWhile_append_of_pos hds, hnone,
    List.append_nil]

theorem whole_append {c : Char} {ds : List Char} (hds : ∀ d ∈ ds, d.isDigit = true)
    (hzero : c = '0' → ds = []) (hrest : EndsNumber rest) :
    ∃ h, whole c (ds ++ rest) = (c :: ds, ⟨rest, h⟩) := by
  unfold whole
  split_ifs with h
  · obtain rfl := hzero h
    exact ⟨Nat.le_refl _, rfl⟩
  · obtain ⟨h, hdigits⟩ := digits_append hds hrest
    exact ⟨h, by rw [hdigits]⟩

theorem afterWhole_of_endsNumber (negative : Bool) (n : Nat) (hrest : EndsNumber rest) :
    afterWhole negative n 0 rest = .ok (integer negative n, .all rest) := by
  unfold afterWhole
  split
  · exact absurd rfl (hrest _ rfl).2.1
  · exact absurd rfl (hrest _ rfl).2.2.1
  · exact absurd rfl (hrest _ rfl).2.2.2
  · have hdigit : rest.head?.any Char.isDigit = false := by
      rcases rest with _ | ⟨d, rest⟩
      · rfl
      · exact (hrest d rfl).1
    simp only [hdigit, Bool.false_eq_true, ↓reduceIte]

theorem number_digits (negative : Bool) {n : Nat} (hn : n ≤ maxSignificand)
    (hrest : EndsNumber rest) :
    ∃ h, number negative (Text.Decimal.digits n ++ rest) = .ok (integer negative n, ⟨rest, h⟩) := by
  obtain ⟨c, ds, hdigits, hc, hds, hzero⟩ := digits_eq_cons n
  have hpush := pushDigits_digits hn
  rw [hdigits] at hpush ⊢
  obtain ⟨h, hwhole⟩ := whole_append hds hzero hrest
  rw [List.cons_append, number, if_neg (by simp [hc]), hwhole]
  refine ⟨Nat.lt_succ_of_le h, ?_⟩
  simp only [hpush, afterWhole_of_endsNumber negative n hrest]
  rfl

/-- The integers that stay integers when they are read. -/
def InRange (z : Int) : Prop := -2 ^ 63 ≤ z ∧ z < 2 ^ 64

instance (z : Int) : Decidable (InRange z) := inferInstanceAs (Decidable (_ ∧ _))

theorem scalar_of_isDigit {c : Char} (hc : c.isDigit = true) (cs : List Char) :
    scalar c cs = (number false (c :: cs)).map fun (n, rest) => (.number n, rest.uncons) := by
  unfold scalar
  split
  case h_6 => rw [if_pos hc]
  all_goals exact absurd hc (by decide)

/-- An integer in range is read back. -/
theorem scalar_writeInt {z : Int} (hz : InRange z) (hrest : EndsNumber rest) :
    ∃ c cs, writeInt z = c :: cs ∧ (c = '-' ∨ c.isDigit = true) ∧
      ∃ h, scalar c (cs ++ rest) = .ok (.number (.int z), ⟨rest, h⟩) := by
  obtain ⟨hlow, hhigh⟩ := hz
  unfold writeInt
  split_ifs with hpos
  · obtain ⟨c, ds, hdigits, hc, -, -⟩ := digits_eq_cons z.toNat
    have hnumber := number_digits false (n := z.toNat) (by simp only [maxSignificand]; omega) hrest
    rw [hdigits, List.cons_append] at hnumber
    obtain ⟨h, hnumber⟩ := hnumber
    refine ⟨c, ds, hdigits, .inr hc, Nat.le_of_lt_succ h, ?_⟩
    have hint : integer false z.toNat = .int z := by simp [integer, hpos]
    rw [scalar_of_isDigit hc, hnumber, hint]
    rfl
  · obtain ⟨h, hnumber⟩ := number_digits true (n := (-z).toNat)
      (by simp only [maxSignificand]; omega) hrest
    refine ⟨'-', _, rfl, .inl rfl, Nat.le_of_lt h, ?_⟩
    have hint : integer true (-z).toNat = .int z := by
      rw [integer, if_pos rfl, if_neg (by simp; omega)]
      congr 1
      omega
    rw [scalar, hnumber, hint]
    rfl

end Cimi.Json.Reader
