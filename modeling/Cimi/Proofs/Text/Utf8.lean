import Cimi.Proofs.Outcome
import Cimi.Text.Utf8
import Mathlib.Tactic.Common

/-!
# Text and its bytes

A character is written in one to four bytes, of which all but the first carry six bits each.  The
first byte says how many there are and which second bytes may follow it, and the second byte of a
character that is no surrogate and not beyond U+10FFFF is always one of those
(`decodeOne_encodeChar`).  No other bytes are read as a character (`encodeChar_of_decodeOne`), so
bytes are text if and only if they are the bytes of that text (`decode_eq_ok_iff`).
-/

namespace Cimi.Text.Utf8

variable {a b c n : Nat}

theorem toNat_ofNat (h : n < 256) : (UInt8.ofNat n).toNat = n := UInt8.toNat_ofNat_of_lt' h

theorem encodeChar_ascii {c : Char} (hc : c.toNat < 128) :
    String.utf8EncodeChar c = [UInt8.ofNat c.toNat] := by
  have hval : c.val.toNat = c.toNat := rfl
  unfold String.utf8EncodeChar
  simp only [hval]
  rw [if_pos (by omega)]

theorem charOf_byte {c : Char} (hc : c.toNat < 128) :
    Char.ofNat (UInt8.ofNat c.toNat).toNat = c := by
  rw [toNat_ofNat (by omega), Char.ofNat_toNat]

theorem secondRange_eq (h : n < 256) : secondRange (UInt8.ofNat n) =
    if 0xC2 ≤ n ∧ n ≤ 0xDF then some (0x80, 0xBF)
    else if n = 0xE0 then some (0xA0, 0xBF)
    else if n = 0xED then some (0x80, 0x9F)
    else if 0xE1 ≤ n ∧ n ≤ 0xEF then some (0x80, 0xBF)
    else if n = 0xF0 then some (0x90, 0xBF)
    else if 0xF1 ≤ n ∧ n ≤ 0xF3 then some (0x80, 0xBF)
    else if n = 0xF4 then some (0x80, 0x8F)
    else none := by
  simp [secondRange, UInt8.le_iff_toNat_le, ← UInt8.toNat_inj, Nat.mod_eq_of_lt h]

theorem decodeTail_continuation (hn : n < 64) (more code : Nat) (bytes : List UInt8) :
    decodeTail (more + 1) code (UInt8.ofNat (n + 128) :: bytes) =
      decodeTail more (code * 64 + n) bytes := by
  have h := toNat_ofNat (n := n + 128) (by omega)
  have hc : isContinuation (UInt8.ofNat (n + 128)) = true := by
    simp [isContinuation, UInt8.le_iff_toNat_le]
    omega
  rw [decodeTail, if_pos hc, h, Nat.add_sub_cancel]

/-- The bytes after the first are read if the second one is in the range of the first. -/
theorem decodeOne_second {low high : UInt8} (hn : 128 ≤ n ∧ n < 256)
    (hrange : secondRange (UInt8.ofNat n) = some (low, high)) (hb : b < 64)
    (hlow : low.toNat ≤ b + 128) (hhigh : b + 128 ≤ high.toNat) (bytes : List UInt8) :
    decodeOne (UInt8.ofNat n) (UInt8.ofNat (b + 128) :: bytes) =
      decodeTail (if n < 0xE0 then 0 else if n < 0xF0 then 1 else 2)
        ((if n < 0xE0 then n - 0xC0 else if n < 0xF0 then n - 0xE0 else n - 0xF0) * 64 + b)
        bytes := by
  have hfirst : ¬ UInt8.ofNat n < 0x80 := by
    simp [UInt8.lt_iff_toNat_lt]
    omega
  have hextra : extraBytes (UInt8.ofNat n) =
      if n < 0xE0 then 0 else if n < 0xF0 then 1 else 2 := by
    simp [extraBytes, UInt8.lt_iff_toNat_lt, Nat.mod_eq_of_lt hn.2]
  have hlead : leadBits (UInt8.ofNat n) =
      if n < 0xE0 then n - 0xC0 else if n < 0xF0 then n - 0xE0 else n - 0xF0 := by
    simp [leadBits, UInt8.lt_iff_toNat_lt, Nat.mod_eq_of_lt hn.2]
  have hsecond := toNat_ofNat (n := b + 128) (by omega)
  unfold decodeOne
  rw [if_neg hfirst]
  simp only [hrange, UInt8.le_iff_toNat_le, hsecond, hlow, hhigh, decide_true, Bool.and_self,
    ↓reduceIte, hextra, hlead, Nat.add_sub_cancel]

theorem decodeOne_two (ha : 2 ≤ a ∧ a < 32) (hb : b < 64) (bytes : List UInt8) :
    decodeOne (UInt8.ofNat (a + 192)) (UInt8.ofNat (b + 128) :: bytes) =
      .char (Char.ofNat (a * 64 + b)) bytes := by
  have hrange : secondRange (UInt8.ofNat (a + 192)) = some (0x80, 0xBF) := by
    rw [secondRange_eq (by omega), if_pos (by omega)]
  rw [decodeOne_second (by omega) hrange hb (by simp) (by simp; omega), if_pos (by omega),
    if_pos (by omega), decodeTail, Nat.add_sub_cancel]

theorem decodeOne_three (ha : a < 16) (hb : b < 64) (hc : c < 64) (hlow : a = 0 → 32 ≤ b)
    (hhigh : a = 13 → b < 32) (bytes : List UInt8) :
    decodeOne (UInt8.ofNat (a + 224)) (UInt8.ofNat (b + 128) :: UInt8.ofNat (c + 128) :: bytes) =
      .char (Char.ofNat ((a * 64 + b) * 64 + c)) bytes := by
  obtain ⟨low, high, hrange, hl, hh⟩ : ∃ low high,
      secondRange (UInt8.ofNat (a + 224)) = some (low, high) ∧ low.toNat ≤ b + 128 ∧
        b + 128 ≤ high.toNat := by
    rw [secondRange_eq (by omega)]
    split_ifs <;> first | omega | exact ⟨_, _, rfl, by simp <;> omega, by simp; omega⟩
  rw [decodeOne_second (by omega) hrange hb hl hh, if_neg (by omega), if_pos (by omega),
    if_neg (by omega), if_pos (by omega), decodeTail_continuation hc, decodeTail,
    Nat.add_sub_cancel]

theorem decodeOne_four {d : Nat} (ha : a < 5) (hb : b < 64) (hc : c < 64) (hd : d < 64)
    (hlow : a = 0 → 16 ≤ b) (hhigh : a = 4 → b < 16) (bytes : List UInt8) :
    decodeOne (UInt8.ofNat (a + 240)) (UInt8.ofNat (b + 128) :: UInt8.ofNat (c + 128) ::
        UInt8.ofNat (d + 128) :: bytes) =
      .char (Char.ofNat (((a * 64 + b) * 64 + c) * 64 + d)) bytes := by
  obtain ⟨low, high, hrange, hl, hh⟩ : ∃ low high,
      secondRange (UInt8.ofNat (a + 240)) = some (low, high) ∧ low.toNat ≤ b + 128 ∧
        b + 128 ≤ high.toNat := by
    rw [secondRange_eq (by omega)]
    split_ifs <;> first | omega | exact ⟨_, _, rfl, by simp <;> omega, by simp; omega⟩
  rw [decodeOne_second (by omega) hrange hb hl hh, if_neg (by omega), if_neg (by omega),
    if_neg (by omega), if_neg (by omega), decodeTail_continuation hc, decodeTail_continuation hd,
    decodeTail, Nat.add_sub_cancel]

theorem decodeOne_encodeChar (c : Char) (bytes : List UInt8) :
    ∃ b bs, String.utf8EncodeChar c = b :: bs ∧ decodeOne b (bs ++ bytes) = .char c bytes := by
  have hvalid : c.toNat < 0xD800 ∨ 0xDFFF < c.toNat ∧ c.toNat < 0x110000 := c.valid
  have hval : c.val.toNat = c.toNat := rfl
  unfold String.utf8EncodeChar
  simp only [hval]
  split_ifs with h1 h2 h3
  · refine ⟨_, _, rfl, ?_⟩
    have hfirst : UInt8.ofNat c.toNat < 0x80 := by
      simp [UInt8.lt_iff_toNat_lt]
      omega
    unfold decodeOne
    rw [if_pos hfirst, charOf_byte (by omega)]
    rfl
  · refine ⟨_, _, rfl, ?_⟩
    have hcode : c.toNat / 64 % 32 * 64 + c.toNat % 64 = c.toNat := by omega
    rw [List.cons_append, List.nil_append, decodeOne_two (by omega) (by omega), hcode,
      Char.ofNat_toNat]
  · refine ⟨_, _, rfl, ?_⟩
    have hcode : (c.toNat / 4096 % 16 * 64 + c.toNat / 64 % 64) * 64 + c.toNat % 64 = c.toNat := by
      omega
    simp only [List.cons_append, List.nil_append]
    rw [decodeOne_three (by omega) (by omega) (by omega) (by omega) (by omega), hcode,
      Char.ofNat_toNat]
  · refine ⟨_, _, rfl, ?_⟩
    have hcode : ((c.toNat / 262144 % 8 * 64 + c.toNat / 4096 % 64) * 64 + c.toNat / 64 % 64) * 64 +
        c.toNat % 64 = c.toNat := by
      omega
    simp only [List.cons_append, List.nil_append]
    rw [decodeOne_four (by omega) (by omega) (by omega) (by omega) (by omega) (by omega), hcode,
      Char.ofNat_toNat]

/-- Text comes back from its bytes. -/
theorem decodeFrom_encode : ∀ (index : Nat) (cs : List Char), decodeFrom index (encode cs) = .ok cs
  | index, [] => by rw [encode_nil, decodeFrom]
  | index, c :: cs => by
    obtain ⟨b, bs, hb, hone⟩ := decodeOne_encodeChar c (encode cs)
    rw [encode_cons, hb, List.cons_append, decodeFrom]
    split
    · next d rest h =>
      rw [hone] at h
      cases h
      rw [decodeFrom_encode _ cs]
      rfl
    · next rest h =>
      rw [hone] at h
      cases h

theorem decodeLossy_encode : ∀ cs : List Char, decodeLossy (encode cs) = cs
  | [] => by rw [encode_nil, decodeLossy]
  | c :: cs => by
    obtain ⟨b, bs, hb, hone⟩ := decodeOne_encodeChar c (encode cs)
    rw [encode_cons, hb, List.cons_append, decodeLossy]
    split
    · next d rest h =>
      rw [hone] at h
      cases h
      rw [decodeLossy_encode cs]
    · next rest h =>
      rw [hone] at h
      cases h

/-! ## Bytes that are text are the bytes of that text -/

/-- A number that is no surrogate and not beyond U+10FFFF is that of a character. -/
theorem toNat_charOf (h : n < 0xD800 ∨ 0xDFFF < n ∧ n < 0x110000) : (Char.ofNat n).toNat = n := by
  have hn : n.isValidChar := h
  rw [Char.ofNat, dif_pos hn]
  rfl

theorem encodeChar_two (ha : 2 ≤ a ∧ a < 32) (hb : b < 64) :
    String.utf8EncodeChar (Char.ofNat (a * 64 + b)) =
      [UInt8.ofNat (a + 192), UInt8.ofNat (b + 128)] := by
  have hn : (Char.ofNat (a * 64 + b)).val.toNat = a * 64 + b := toNat_charOf (.inl (by omega))
  have h1 : (a * 64 + b) / 64 % 32 = a := by omega
  have h2 : (a * 64 + b) % 64 = b := by omega
  unfold String.utf8EncodeChar
  simp only [hn]
  rw [if_neg (by omega), if_pos (by omega), h1, h2]

theorem encodeChar_three (ha : a < 16) (hb : b < 64) (hc : c < 64) (hlow : a = 0 → 32 ≤ b)
    (hhigh : a = 13 → b < 32) :
    String.utf8EncodeChar (Char.ofNat ((a * 64 + b) * 64 + c)) =
      [UInt8.ofNat (a + 224), UInt8.ofNat (b + 128), UInt8.ofNat (c + 128)] := by
  have hn : (Char.ofNat ((a * 64 + b) * 64 + c)).val.toNat = (a * 64 + b) * 64 + c :=
    toNat_charOf (by omega)
  have h1 : ((a * 64 + b) * 64 + c) / 4096 % 16 = a := by omega
  have h2 : ((a * 64 + b) * 64 + c) / 64 % 64 = b := by omega
  have h3 : ((a * 64 + b) * 64 + c) % 64 = c := by omega
  unfold String.utf8EncodeChar
  simp only [hn]
  rw [if_neg (by omega), if_neg (by omega), if_pos (by omega), h1, h2, h3]

theorem encodeChar_four {d : Nat} (ha : a < 5) (hb : b < 64) (hc : c < 64) (hd : d < 64)
    (hlow : a = 0 → 16 ≤ b) (hhigh : a = 4 → b < 16) :
    String.utf8EncodeChar (Char.ofNat (((a * 64 + b) * 64 + c) * 64 + d)) =
      [UInt8.ofNat (a + 240), UInt8.ofNat (b + 128), UInt8.ofNat (c + 128),
        UInt8.ofNat (d + 128)] := by
  have hn : (Char.ofNat (((a * 64 + b) * 64 + c) * 64 + d)).val.toNat =
      ((a * 64 + b) * 64 + c) * 64 + d := toNat_charOf (by omega)
  have h1 : (((a * 64 + b) * 64 + c) * 64 + d) / 262144 % 8 = a := by omega
  have h2 : (((a * 64 + b) * 64 + c) * 64 + d) / 4096 % 64 = b := by omega
  have h3 : (((a * 64 + b) * 64 + c) * 64 + d) / 64 % 64 = c := by omega
  have h4 : (((a * 64 + b) * 64 + c) * 64 + d) % 64 = d := by omega
  unfold String.utf8EncodeChar
  simp only [hn]
  rw [if_neg (by omega), if_neg (by omega), if_neg (by omega), h1, h2, h3, h4]

/-- A byte in the range of continuations carries six bits. -/
theorem exists_continuation {b low high : UInt8} (hlow : 0x80 ≤ low.toNat)
    (hhigh : high.toNat ≤ 0xBF) (h : low ≤ b ∧ b ≤ high) :
    ∃ n < 64, b = UInt8.ofNat (n + 128) ∧ low.toNat ≤ n + 128 ∧ n + 128 ≤ high.toNat := by
  have h1 : low.toNat ≤ b.toNat := UInt8.le_iff_toNat_le.1 h.1
  have h2 : b.toNat ≤ high.toNat := UInt8.le_iff_toNat_le.1 h.2
  have hb : b.toNat - 128 + 128 = b.toNat := by omega
  refine ⟨b.toNat - 128, by omega, ?_, by omega, by omega⟩
  rw [hb, UInt8.ofNat_toNat]

theorem of_decodeTail {more code : Nat} {bytes rest : List UInt8} {d : Char}
    (h : decodeTail (more + 1) code bytes = .char d rest) :
    ∃ n < 64, ∃ bs, bytes = UInt8.ofNat (n + 128) :: bs ∧
      decodeTail more (code * 64 + n) bs = .char d rest := by
  rcases bytes with _ | ⟨b, bs⟩
  · cases h
  · rw [decodeTail] at h
    split_ifs at h with hb
    simp only [isContinuation, Bool.and_eq_true, decide_eq_true_eq] at hb
    obtain ⟨n, hn, rfl, -⟩ := exists_continuation (by decide) (by decide) hb
    rw [toNat_ofNat (by omega), Nat.add_sub_cancel] at h
    exact ⟨n, hn, bs, rfl, h⟩


/-- A byte that begins a longer character is followed by a second byte in its range. -/
theorem of_decodeOne {bytes rest : List UInt8} {d : Char} (hn : 128 ≤ n ∧ n < 256)
    (h : decodeOne (UInt8.ofNat n) bytes = .char d rest) :
    (194 ≤ n ∧ n < 245) ∧ ∃ b < 64, ∃ bs, bytes = UInt8.ofNat (b + 128) :: bs ∧
      (n = 224 → 32 ≤ b) ∧ (n = 237 → b < 32) ∧ (n = 240 → 16 ≤ b) ∧ (n = 244 → b < 16) ∧
      decodeTail (if n < 0xE0 then 0 else if n < 0xF0 then 1 else 2)
        ((if n < 0xE0 then n - 0xC0 else if n < 0xF0 then n - 0xE0 else n - 0xF0) * 64 + b)
        bs = .char d rest := by
  have hfirst : ¬ UInt8.ofNat n < 0x80 := by
    simp [UInt8.lt_iff_toNat_lt]
    omega
  have hone := h
  unfold decodeOne at hone
  rw [if_neg hfirst] at hone
  rcases hrange : secondRange (UInt8.ofNat n) with _ | ⟨low, high⟩ <;> rw [hrange] at hone
  · cases hone
  rcases bytes with _ | ⟨second, bs⟩
  · cases hone
  by_cases hsecond : low ≤ second ∧ second ≤ high
  · have hbounds : 0x80 ≤ low.toNat ∧ high.toNat ≤ 0xBF ∧ (194 ≤ n ∧ n < 245) ∧
        (n = 224 → 160 ≤ low.toNat) ∧ (n = 237 → high.toNat < 160) ∧
        (n = 240 → 144 ≤ low.toNat) ∧ (n = 244 → high.toNat < 144) := by
      rw [secondRange_eq hn.2] at hrange
      split_ifs at hrange <;> cases hrange <;> simp <;> omega
    obtain ⟨hl, hh, hlead, h224, h237, h240, h244⟩ := hbounds
    obtain ⟨b, hb, rfl, hlow, hhigh⟩ := exists_continuation hl hh hsecond
    rw [decodeOne_second hn hrange hb hlow hhigh] at h
    exact ⟨hlead, b, hb, bs, rfl, by omega, by omega, by omega, by omega, h⟩
  · simp [hsecond] at hone

/-- What is read as a character are the bytes of that character. -/
theorem encodeChar_of_decodeOne {first : UInt8} {bytes rest : List UInt8} {d : Char}
    (h : decodeOne first bytes = .char d rest) :
    String.utf8EncodeChar d ++ rest = first :: bytes := by
  by_cases hfirst : first < 0x80
  · unfold decodeOne at h
    rw [if_pos hfirst] at h
    obtain ⟨rfl, rfl⟩ := Step.char.inj h
    have hlt : first.toNat < 128 := UInt8.lt_iff_toNat_lt.1 hfirst
    have hchar : (Char.ofNat first.toNat).toNat = first.toNat := toNat_charOf (.inl (by omega))
    rw [encodeChar_ascii (by omega), hchar, UInt8.ofNat_toNat]
    rfl
  · obtain ⟨n, hn, rfl⟩ : ∃ n, (128 ≤ n ∧ n < 256) ∧ first = UInt8.ofNat n := by
      have hge : ¬ first.toNat < 128 := fun hlt => hfirst (UInt8.lt_iff_toNat_lt.2 hlt)
      exact ⟨first.toNat, ⟨by omega, first.toNat_lt⟩, UInt8.ofNat_toNat.symm⟩
    obtain ⟨hlead, b, hb, bs, rfl, h224, h237, h240, h244, htail⟩ := of_decodeOne hn h
    -- The first byte says whether there are two bytes, three or four.
    by_cases h2 : n < 0xE0
    · rw [if_pos h2, if_pos h2, decodeTail] at htail
      obtain ⟨rfl, rfl⟩ := Step.char.inj htail
      have hlead : n - 0xC0 + 192 = n := by omega
      rw [encodeChar_two (by omega) hb, hlead]
      rfl
    · by_cases h3 : n < 0xF0
      · rw [if_neg h2, if_pos h3, if_neg h2, if_pos h3] at htail
        obtain ⟨c, hc, bs, rfl, hchar⟩ := of_decodeTail htail
        obtain ⟨rfl, rfl⟩ := Step.char.inj hchar
        have hlead : n - 0xE0 + 224 = n := by omega
        rw [encodeChar_three (by omega) hb hc (by omega) (by omega), hlead]
        rfl
      · rw [if_neg h2, if_neg h3, if_neg h2, if_neg h3] at htail
        obtain ⟨c, hc, bs, rfl, hthird⟩ := of_decodeTail htail
        obtain ⟨e, he, bs, rfl, hchar⟩ := of_decodeTail hthird
        obtain ⟨rfl, rfl⟩ := Step.char.inj hchar
        have hlead : n - 0xF0 + 240 = n := by omega
        rw [encodeChar_four (by omega) hb hc he (by omega) (by omega), hlead]
        rfl

theorem encode_of_decodeFrom : ∀ {bytes : List UInt8} {index : Nat} {cs : List Char},
    decodeFrom index bytes = .ok cs → encode cs = bytes
  | [], index, cs, h => by
    rw [decodeFrom] at h
    cases h
    rfl
  | b :: bytes, index, cs, h => by
    rw [decodeFrom] at h
    split at h
    · next c rest hone =>
      obtain ⟨cs, hcs, rfl⟩ := of_map_eq_ok h
      have hrest : rest.length ≤ bytes.length := by
        have hle := rest_decodeOne b bytes
        rwa [hone] at hle
      rw [encode_cons, encode_of_decodeFrom hcs, encodeChar_of_decodeOne hone]
    · cases h
termination_by bytes => bytes.length
decreasing_by exact Nat.lt_succ_of_le ‹_›

theorem decode_eq_ok_iff {bytes : List UInt8} {cs : List Char} :
    decode bytes = .ok cs ↔ bytes = encode cs := by
  constructor
  · exact fun h => (encode_of_decodeFrom h).symm
  · rintro rfl
    exact decodeFrom_encode 0 cs

end Cimi.Text.Utf8
