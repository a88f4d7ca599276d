import Cimi.Proofs.Text.Utf8
import Cimi.Text.Percent

/-!
# Text comes back from its escapes

The bytes behind the escapes of an encoded value are those of the value (`decodeBytes_encode`), so
the value comes back as a part of a path and as a part of a form (`decode_encode`,
`decodeFormPart_encode`).
-/

namespace Cimi.Text.Percent

variable {c : Char} {cs : List Char}

/-- A byte that marks no escape stands for itself. -/
theorem decodeBytes_cons {b : UInt8} (hb : b ≠ mark) (bytes : List UInt8) :
    decodeBytes (b :: bytes) = b :: decodeBytes bytes := by
  rcases bytes with _ | ⟨c, _ | ⟨d, bytes⟩⟩
  · rfl
  · rfl
  · rw [decodeBytes, if_neg hb]

theorem toNat_upper {n : Nat} (h : n < 16) : (Hex.upper n).toNat < 128 := by
  revert n; decide

/-- The escape of a byte stands for that byte. -/
theorem decodeBytes_escape (b : UInt8) (bytes : List UInt8) :
    decodeBytes (Utf8.encode (escape b) ++ bytes) = b :: decodeBytes bytes := by
  have hb : b.toNat < 256 := b.toNat_lt
  have hdigit {n : Nat} (hn : n < 16) :
      Char.ofNat (UInt8.ofNat (Hex.upper n).toNat).toNat = Hex.upper n :=
    Utf8.charOf_byte (toNat_upper hn)
  have hescaped : escaped (UInt8.ofNat (Hex.upper (b.toNat / 16)).toNat)
      (UInt8.ofNat (Hex.upper (b.toNat % 16)).toNat) = some b := by
    have hhigh : b.toNat / 16 < 16 := by omega
    have hlow : b.toNat % 16 < 16 := by omega
    have hvalue : b.toNat / 16 * 16 + b.toNat % 16 = b.toNat := by omega
    rw [escaped, hdigit hhigh, hdigit hlow, Hex.value?_upper hhigh, Hex.value?_upper hlow]
    change some (UInt8.ofNat (b.toNat / 16 * 16 + b.toNat % 16)) = some b
    rw [hvalue, UInt8.ofNat_toNat]
  rw [escape, Utf8.encode_cons, Utf8.encode_cons, Utf8.encode_cons, Utf8.encode_nil,
    Utf8.encodeChar_ascii (by decide), Utf8.encodeChar_ascii (toNat_upper (by omega)),
    Utf8.encodeChar_ascii (toNat_upper (by omega))]
  have hmark : UInt8.ofNat '%'.toNat = mark := rfl
  simp only [List.cons_append, List.nil_append, hmark]
  rw [decodeBytes, if_pos rfl, hescaped]

theorem decodeBytes_escapes : ∀ bs bytes : List UInt8,
    decodeBytes (Utf8.encode (bs.flatMap escape) ++ bytes) = bs ++ decodeBytes bytes
  | [], bytes => rfl
  | b :: bs, bytes => by
    rw [List.flatMap_cons, Utf8.encode_append, List.append_assoc, decodeBytes_escape,
      decodeBytes_escapes bs bytes]
    rfl

theorem decodeBytes_ascii (hc : c.toNat < 128) (hmark : c ≠ '%') (bytes : List UInt8) :
    decodeBytes (String.utf8EncodeChar c ++ bytes) =
      String.utf8EncodeChar c ++ decodeBytes bytes := by
  rw [Utf8.encodeChar_ascii hc]
  refine decodeBytes_cons (fun h => hmark ?_) bytes
  have hnat : c.toNat = mark.toNat := by rw [← h, Utf8.toNat_ofNat (by omega)]
  exact Char.toNat_inj.1 hnat

theorem toNat_of_isUnreserved (h : isUnreserved c = true) : 0x20 < c.toNat ∧ c.toNat < 0x7F := by
  have hbounds (d e : Char) (hd : 0x20 < d.toNat) (he : e.toNat < 0x7F)
      (h : c.val ≥ d.val ∧ c.val ≤ e.val) : 0x20 < c.toNat ∧ c.toNat < 0x7F :=
    ⟨Nat.lt_of_lt_of_le hd (UInt32.le_iff_toNat_le.1 h.1),
      Nat.lt_of_le_of_lt (UInt32.le_iff_toNat_le.1 h.2) he⟩
  have hrange {low high : Prop} [Decidable low] [Decidable high]
      (h : (decide low && decide high) = true) : low ∧ high := by simpa using h
  simp only [isUnreserved, Bool.or_eq_true, decide_eq_true_eq] at h
  rcases h with (((h | rfl) | rfl) | rfl) | rfl
  · rcases Bool.or_eq_true_iff.1 h with hletter | hdigit
    · rcases Bool.or_eq_true_iff.1 hletter with hupper | hlower
      · exact hbounds 'A' 'Z' (by decide) (by decide) (of_decide_eq_true hupper)
      · exact hbounds 'a' 'z' (by decide) (by decide) (hrange hlower)
    · exact hbounds '0' '9' (by decide) (by decide) (hrange hdigit)
  all_goals decide

/-- The bytes behind an encoded value are those of the value. -/
theorem decodeBytes_encode : ∀ cs : List Char,
    decodeBytes (Utf8.encode (encode cs)) = Utf8.encode cs
  | [] => rfl
  | c :: cs => by
    have ih : decodeBytes (Utf8.encode (cs.flatMap encodeChar)) = Utf8.encode cs :=
      decodeBytes_encode cs
    rw [encode, List.flatMap_cons, Utf8.encode_append, Utf8.encode_cons, encodeChar]
    split_ifs with hc
    · have hascii : c.toNat < 128 := Nat.lt_succ_of_lt (toNat_of_isUnreserved hc).2
      have hmark : c ≠ '%' := by
        rintro rfl
        exact absurd hc (by decide)
      rw [Utf8.encode_cons, Utf8.encode_nil, List.append_nil, decodeBytes_ascii hascii hmark, ih]
    · rw [decodeBytes_escapes, ih]

theorem decode_encode (cs : List Char) : decode (encode cs) = some cs := by
  rw [decode, decodeBytes_encode, Utf8.decode, Utf8.decodeFrom_encode]
  rfl

/-! ## The characters of an encoded value -/

theorem isUnreserved_upper {n : Nat} (h : n < 16) : isUnreserved (Hex.upper n) = true := by
  revert n; decide

/-- In an encoded value every character is unreserved or belongs to an escape, whose two digits are
in upper case. -/
inductive Escaped : List Char → Prop
  | nil : Escaped []
  | plain {c : Char} {cs : List Char} (hc : isUnreserved c = true) (h : Escaped cs) :
    Escaped (c :: cs)
  | byte {high low : Nat} {cs : List Char} (hhigh : high < 16) (hlow : low < 16) (h : Escaped cs) :
    Escaped ('%' :: Hex.upper high :: Hex.upper low :: cs)

theorem Escaped.escapes (h : Escaped cs) : ∀ bs : List UInt8, Escaped (bs.flatMap escape ++ cs)
  | [] => h
  | b :: bs => by
    have hb : b.toNat < 256 := b.toNat_lt
    exact .byte (by omega) (by omega) (h.escapes bs)

theorem escaped_encode : ∀ cs : List Char, Escaped (encode cs)
  | [] => .nil
  | c :: cs => by
    have ih : Escaped (cs.flatMap encodeChar) := escaped_encode cs
    rw [encode, List.flatMap_cons, encodeChar]
    split_ifs with hc
    · exact .plain hc ih
    · exact ih.escapes _

theorem Escaped.mem (h : Escaped cs) (hc : c ∈ cs) : isUnreserved c = true ∨ c = '%' := by
  induction h with
  | nil => cases hc
  | plain hplain h ih =>
    rcases List.mem_cons.1 hc with rfl | hc
    · exact .inl hplain
    · exact ih hc
  | byte hhigh hlow h ih =>
    simp only [List.mem_cons] at hc
    rcases hc with rfl | rfl | rfl | hc
    · exact .inr rfl
    · exact .inl (isUnreserved_upper hhigh)
    · exact .inl (isUnreserved_upper hlow)
    · exact ih hc

theorem mem_escapes {bs : List UInt8} (h : c ∈ bs.flatMap escape) :
    isUnreserved c = true ∨ c = '%' := by
  rw [← List.append_nil (bs.flatMap escape)] at h
  exact (Escaped.nil.escapes bs).mem h

theorem mem_encode (h : c ∈ encode cs) : isUnreserved c = true ∨ c = '%' :=
  (escaped_encode cs).mem h

/-! ## Parts of forms -/

theorem map_plus (h : '+' ∉ cs) : cs.map (fun c => if c = '+' then ' ' else c) = cs := by
  refine (List.map_congr_left fun c hc => ?_).trans (List.map_id cs)
  rw [if_neg (by rintro rfl; exact h hc)]
  rfl

theorem decodeFormPart_encode (cs : List Char) : decodeFormPart (encode cs) = cs := by
  have hplus : '+' ∉ encode cs := by
    intro h
    rcases mem_encode h with h | h <;> exact absurd h (by decide)
  rw [decodeFormPart, map_plus hplus, decodeBytes_encode, Utf8.decodeLossy_encode]

theorem decodeBytes_plain : ∀ {cs : List Char}, (∀ c ∈ cs, c.toNat < 128 ∧ c ≠ '%') →
    decodeBytes (Utf8.encode cs) = Utf8.encode cs
  | [], _ => rfl
  | c :: cs, h => by
    obtain ⟨hascii, hmark⟩ := h c List.mem_cons_self
    rw [Utf8.encode_cons, decodeBytes_ascii hascii hmark,
      decodeBytes_plain fun d hd => h d (List.mem_cons_of_mem c hd)]

/-- A part without a `+` or a `%` stands for itself, if all of it is ASCII. -/
theorem decodeFormPart_plain (h : ∀ c ∈ cs, c.toNat < 128 ∧ c ≠ '%') (hplus : '+' ∉ cs) :
    decodeFormPart cs = cs := by
  rw [decodeFormPart, map_plus hplus, decodeBytes_plain h, Utf8.decodeLossy_encode]

end Cimi.Text.Percent
