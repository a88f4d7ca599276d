import Cimi.Proofs.Text.Percent

/-!
# Text in the path of a URL

A browser escapes the spaces of a URL and what is not ASCII, and sends the rest as it is written.
Whoever undoes the escapes also undoes what the text itself has that reads as one, and each of those
makes three bytes one.  So a text comes back if and only if it has none
(`decode_send_eq_some_iff`).
-/

namespace Cimi.Text.Percent

variable {c : Char} {cs p t : List Char}

/-- Whether a browser escapes a character of a URL. -/
def isEscapedBySender (c : Char) : Bool := c = ' ' || 128 ≤ c.toNat

/-- A character of a URL as a browser sends it. -/
def sendChar (c : Char) : List Char :=
  if isEscapedBySender c then (String.utf8EncodeChar c).flatMap escape else [c]

/-- A URL as a browser sends it. -/
def send (cs : List Char) : List Char := cs.flatMap sendChar

/-- Whether a text begins with two digits of an escape. -/
def startsDigits : List Char → Bool
  | high :: low :: _ => (Hex.value? high).isSome && (Hex.value? low).isSome
  | _ => false

/-- Whether some part of a text reads as an escape. -/
def hasEscape : List Char → Bool
  | [] => false
  | c :: cs => (c = '%' && startsDigits cs) || hasEscape cs

@[simp] theorem send_nil : send [] = [] := rfl

@[simp] theorem send_cons (c : Char) (cs : List Char) : send (c :: cs) = sendChar c ++ send cs :=
  List.flatMap_cons

@[simp] theorem send_append (as bs : List Char) : send (as ++ bs) = send as ++ send bs :=
  List.flatMap_append

/-! ## Digits of escapes -/

theorem isUnreserved_of_value? (h : (Hex.value? c).isSome) : isUnreserved c = true := by
  have halphanum (h : c.isAlphanum = true) : isUnreserved c = true := by simp [isUnreserved, h]
  have hletter (h : (c.isUpper || c.isLower) = true) : isUnreserved c = true :=
    halphanum (Bool.or_eq_true_iff.2 (.inl h))
  unfold Hex.value? at h
  split_ifs at h with hdigit hlower hupper
  · exact halphanum (Bool.or_eq_true_iff.2 (.inr hdigit))
  · obtain ⟨hlow, hhigh⟩ := Bool.and_eq_true_iff.1 hlower
    have hz : c ≤ 'z' := Char.le_trans (of_decide_eq_true hhigh) (by decide)
    refine hletter (Bool.or_eq_true_iff.2 (.inr (Bool.and_eq_true_iff.2 ⟨hlow, ?_⟩)))
    exact decide_eq_true hz
  · obtain ⟨hlow, hhigh⟩ := Bool.and_eq_true_iff.1 hupper
    have hz : c ≤ 'Z' := Char.le_trans (of_decide_eq_true hhigh) (by decide)
    exact hletter (Bool.or_eq_true_iff.2 (.inl (decide_eq_true ⟨of_decide_eq_true hlow, hz⟩)))
  · cases h

theorem isEscapedBySender_eq_false (hc : isUnreserved c = true) : isEscapedBySender c = false := by
  obtain ⟨hlow, hhigh⟩ := toNat_of_isUnreserved hc
  have hspace : c ≠ ' ' := by
    rintro rfl
    exact absurd hlow (by decide)
  have hascii : ¬ 128 ≤ c.toNat := by omega
  simp [isEscapedBySender, hspace, hascii]

theorem lt_of_isEscapedBySender (hc : isEscapedBySender c = false) : c.toNat < 128 := by
  simp only [isEscapedBySender, Bool.or_eq_false_iff, decide_eq_false_iff_not] at hc
  omega

/-- What is sent as it is is one byte. -/
theorem encode_send_kept (hc : isEscapedBySender c = false) (cs : List Char) :
    Utf8.encode (send (c :: cs)) = UInt8.ofNat c.toNat :: Utf8.encode (send cs) := by
  rw [send_cons, sendChar, if_neg (by simp [hc]), List.singleton_append, Utf8.encode_cons,
    Utf8.encodeChar_ascii (lt_of_isEscapedBySender hc)]
  rfl

theorem encode_send_escaped (hc : isEscapedBySender c = true) (cs : List Char) :
    ∃ bytes, Utf8.encode (send (c :: cs)) = mark :: bytes := by
  obtain ⟨b, bs, hb, -⟩ := Utf8.decodeOne_encodeChar c []
  rw [send_cons, sendChar, if_pos hc, hb, List.flatMap_cons]
  exact ⟨_, rfl⟩

/-- If what is sent begins with a digit, so does the text. -/
theorem of_encode_send {b : UInt8} {bytes : List UInt8} (hcs : Utf8.encode (send cs) = b :: bytes)
    (hb : (Hex.value? (Char.ofNat b.toNat)).isSome) :
    ∃ c rest, cs = c :: rest ∧ (Hex.value? c).isSome ∧ bytes = Utf8.encode (send rest) := by
  rcases cs with _ | ⟨c, rest⟩
  · cases hcs
  · cases hc : isEscapedBySender c with
    | true =>
      obtain ⟨bytes', hmark⟩ := encode_send_escaped hc rest
      rw [hmark] at hcs
      obtain ⟨rfl, -⟩ := List.cons.inj hcs
      exact absurd hb (by decide)
    | false =>
      rw [encode_send_kept hc] at hcs
      obtain ⟨rfl, rfl⟩ := List.cons.inj hcs
      rw [Utf8.charOf_byte (lt_of_isEscapedBySender hc)] at hb
      exact ⟨c, rest, rfl, hb, rfl⟩

/-! ## Undoing the escapes -/

theorem escaped_eq_none {high low : UInt8} (h : ¬ ((Hex.value? (Char.ofNat high.toNat)).isSome ∧
    (Hex.value? (Char.ofNat low.toNat)).isSome)) : escaped high low = none := by
  rcases hh : Hex.value? (Char.ofNat high.toNat) with _ | m
  · simp [escaped, hh]
  · rcases hl : Hex.value? (Char.ofNat low.toNat) with _ | n
    · simp [escaped, hl]
    · simp [hh, hl] at h

theorem exists_of_startsDigits (h : startsDigits cs = true) :
    ∃ high low rest, cs = high :: low :: rest := by
  rcases cs with _ | ⟨high, _ | ⟨low, rest⟩⟩
  · cases h
  · cases h
  · exact ⟨high, low, rest, rfl⟩

/-- A mark with no two digits after it stands for itself. -/
theorem decodeBytes_mark (h : startsDigits cs = false) :
    decodeBytes (mark :: Utf8.encode (send cs)) = mark :: decodeBytes (Utf8.encode (send cs)) := by
  rcases hbytes : Utf8.encode (send cs) with _ | ⟨high, _ | ⟨low, bytes⟩⟩
  · rfl
  · rfl
  · have hnone : escaped high low = none := by
      refine escaped_eq_none fun ⟨hhigh, hlow⟩ => ?_
      obtain ⟨c, rest, rfl, hc, hrest⟩ := of_encode_send hbytes hhigh
      obtain ⟨d, rest, rfl, hd, -⟩ := of_encode_send hrest.symm hlow
      simp [startsDigits, hc, hd] at h
    rw [decodeBytes, if_pos rfl, hnone]

/-- A mark and two digits are three bytes of which one is left. -/
theorem decodeBytes_digits {high low : Char} (h : startsDigits (high :: low :: cs) = true) :
    ∃ b, decodeBytes (Utf8.encode (send ('%' :: high :: low :: cs))) =
      b :: decodeBytes (Utf8.encode (send cs)) := by
  obtain ⟨hhigh, hlow⟩ := Bool.and_eq_true_iff.1 h
  have hkept {c : Char} (hc : (Hex.value? c).isSome) : isEscapedBySender c = false :=
    isEscapedBySender_eq_false (isUnreserved_of_value? hc)
  have hbyte {c : Char} (hc : (Hex.value? c).isSome) :
      Char.ofNat (UInt8.ofNat c.toNat).toNat = c :=
    Utf8.charOf_byte (lt_of_isEscapedBySender (hkept hc))
  obtain ⟨m, hm⟩ := Option.isSome_iff_exists.1 hhigh
  obtain ⟨n, hn⟩ := Option.isSome_iff_exists.1 hlow
  have hescaped : escaped (UInt8.ofNat high.toNat) (UInt8.ofNat low.toNat) =
      some (UInt8.ofNat (m * 16 + n)) := by
    rw [escaped, hbyte hhigh, hbyte hlow, hm, hn]
    rfl
  have hmark : UInt8.ofNat '%'.toNat = mark := rfl
  refine ⟨UInt8.ofNat (m * 16 + n), ?_⟩
  rw [encode_send_kept (by decide), encode_send_kept (hkept hhigh), encode_send_kept (hkept hlow),
    hmark, decodeBytes, if_pos rfl, hescaped]

/-- Any other character stands for itself. -/
theorem decodeBytes_send_cons (h : (c = '%' && startsDigits cs) = false) :
    decodeBytes (Utf8.encode (send (c :: cs))) =
      String.utf8EncodeChar c ++ decodeBytes (Utf8.encode (send cs)) := by
  cases hc : isEscapedBySender c with
  | true => rw [send_cons, sendChar, if_pos hc, Utf8.encode_append, decodeBytes_escapes]
  | false =>
    by_cases hmark : c = '%'
    · subst hmark
      rw [encode_send_kept hc]
      exact decodeBytes_mark (by simpa using h)
    · rw [send_cons, sendChar, if_neg (by simp [hc]), List.singleton_append, Utf8.encode_cons,
        decodeBytes_ascii (lt_of_isEscapedBySender hc) hmark]

theorem decodeBytes_send : ∀ {cs : List Char}, hasEscape cs = false →
    decodeBytes (Utf8.encode (send cs)) = Utf8.encode cs
  | [], _ => rfl
  | c :: cs, h => by
    obtain ⟨hc, hcs⟩ := Bool.or_eq_false_iff.1 h
    rw [decodeBytes_send_cons hc, decodeBytes_send hcs, Utf8.encode_cons]

theorem length_decodeBytes_send : ∀ cs : List Char,
    (decodeBytes (Utf8.encode (send cs))).length ≤ (Utf8.encode cs).length ∧
      (hasEscape cs = true →
        (decodeBytes (Utf8.encode (send cs))).length < (Utf8.encode cs).length)
  | [] => ⟨Nat.le_refl _, nofun⟩
  | c :: cs => by
    cases hc : decide (c = '%') && startsDigits cs with
    | true =>
      -- Three bytes are read as one, so what follows them need not come back in full.
      obtain ⟨hmark, hdigits⟩ := Bool.and_eq_true_iff.1 hc
      obtain rfl : c = '%' := of_decide_eq_true hmark
      obtain ⟨high, low, rest, rfl⟩ := exists_of_startsDigits hdigits
      obtain ⟨b, hb⟩ := decodeBytes_digits hdigits
      have hrest := (length_decodeBytes_send rest).1
      have hhigh := high.utf8Size_pos
      have hlow := low.utf8Size_pos
      have hlt : (decodeBytes (Utf8.encode (send ('%' :: high :: low :: rest)))).length <
          (Utf8.encode ('%' :: high :: low :: rest)).length := by
        simp only [hb, Utf8.encode_cons, List.length_cons, List.length_append,
          String.length_utf8EncodeChar]
        omega
      exact ⟨Nat.le_of_lt hlt, fun _ => hlt⟩
    | false =>
      obtain ⟨hle, hlt⟩ := length_decodeBytes_send cs
      rw [decodeBytes_send_cons hc, Utf8.encode_cons, List.length_append, List.length_append,
        hasEscape, hc, Bool.false_or]
      exact ⟨Nat.add_le_add_left hle _, fun h => Nat.add_lt_add_left (hlt h) _⟩
termination_by cs => cs.length

/-- What is sent of the beginning of a text is decoded to that text only if it is all of it and
nothing in it reads as an escape. -/
theorem decode_send_eq_some_iff (hp : p <+: t) :
    decode (send p) = some t ↔ p = t ∧ hasEscape t = false := by
  have hdecode : decode (send p) = some t ↔
      decodeBytes (Utf8.encode (send p)) = Utf8.encode t := by
    rw [← Utf8.decode_eq_ok_iff, decode]
    rcases Utf8.decode (decodeBytes (Utf8.encode (send p))) with e | u <;>
      simp [Except.toOption]
  rw [hdecode]
  constructor
  · intro h
    obtain ⟨rest, rfl⟩ := hp
    obtain ⟨hle, hlt⟩ := length_decodeBytes_send p
    rw [h, Utf8.encode_append, List.length_append] at hle hlt
    have hrest : (Utf8.encode rest).length = 0 := by omega
    have hp : hasEscape p = false := by
      by_contra hp
      have hlt := hlt (by simpa using hp)
      omega
    cases rest with
    | nil => exact ⟨(List.append_nil p).symm, by rwa [List.append_nil]⟩
    | cons c rest =>
      have hc := c.utf8Size_pos
      simp at hrest
      omega
  · rintro ⟨rfl, ht⟩
    exact decodeBytes_send ht

end Cimi.Text.Percent
