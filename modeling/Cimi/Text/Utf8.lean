/-!
# UTF-8

Text as bytes and back.  `decodeOne` reads one character from the start of a byte sequence, or says
how many bytes form the longest beginning of a character that never comes.  Strict decoding
(`decode`) refuses such bytes and says where they are, lenient decoding (`decodeLossy`) puts U+FFFD
in their place.
-/

namespace Cimi.Text.Utf8

/-- The bytes of a text. -/
def encode (cs : List Char) : List UInt8 := cs.flatMap String.utf8EncodeChar

/-- The number of bytes of a text. -/
def size : List Char → Nat
  | [] => 0
  | c :: cs => c.utf8Size + size cs

/-- One character with what follows it, or the number of bytes that begin none. -/
inductive Step where
  | char (c : Char) (rest : List UInt8)
  | bad (rest : List UInt8)

/-- Whether a byte continues a character. -/
def isContinuation (b : UInt8) : Bool := 0x80 ≤ b && b ≤ 0xBF

/-- The second bytes that may follow a first byte; none if the byte begins no longer character.
The narrower ranges leave out overlong forms, surrogates and what lies beyond U+10FFFF. -/
def secondRange (first : UInt8) : Option (UInt8 × UInt8) :=
  if 0xC2 ≤ first && first ≤ 0xDF then some (0x80, 0xBF)
  else if first = 0xE0 then some (0xA0, 0xBF)
  else if first = 0xED then some (0x80, 0x9F)
  else if 0xE1 ≤ first && first ≤ 0xEF then some (0x80, 0xBF)
  else if first = 0xF0 then some (0x90, 0xBF)
  else if 0xF1 ≤ first && first ≤ 0xF3 then some (0x80, 0xBF)
  else if first = 0xF4 then some (0x80, 0x8F)
  else none

/-- How many bytes a character that starts so has beyond the second. -/
def extraBytes (first : UInt8) : Nat :=
  if first < 0xE0 then 0 else if first < 0xF0 then 1 else 2

/-- The bits that a first byte gives to its character. -/
def leadBits (first : UInt8) : Nat :=
  if first < 0xE0 then first.toNat - 0xC0
  else if first < 0xF0 then first.toNat - 0xE0
  else first.toNat - 0xF0

/-- Reads `more` further bytes of a character whose bits so far are `code`. -/
def decodeTail : (more code : Nat) → List UInt8 → Step
  | 0, code, bytes => .char (Char.ofNat code) bytes
  | _ + 1, _, [] => .bad []
  | more + 1, code, b :: bytes =>
    if isContinuation b then decodeTail more (code * 64 + (b.toNat - 0x80)) bytes
    else .bad (b :: bytes)

/-- Reads one character that starts with the byte `first`. -/
def decodeOne (first : UInt8) (bytes : List UInt8) : Step :=
  if first < 0x80 then .char (Char.ofNat first.toNat) bytes
  else match secondRange first, bytes with
    | some (low, high), b :: rest =>
      if low ≤ b && b ≤ high then
        decodeTail (extraBytes first) (leadBits first * 64 + (b.toNat - 0x80)) rest
      else .bad bytes
    | _, _ => .bad bytes

/-- What a step leaves unread. -/
def Step.rest : Step → List UInt8
  | .char _ rest => rest
  | .bad rest => rest

theorem rest_decodeTail : ∀ (more code : Nat) (bytes : List UInt8),
    (decodeTail more code bytes).rest.length ≤ bytes.length
  | 0, _, _ => by simp [decodeTail, Step.rest]
  | _ + 1, _, [] => by simp [decodeTail, Step.rest]
  | more + 1, code, b :: bytes => by
    rw [decodeTail]
    split
    · exact Nat.le_succ_of_le (rest_decodeTail more _ bytes)
    · simp [Step.rest]

theorem rest_decodeOne (first : UInt8) (bytes : List UInt8) :
    (decodeOne first bytes).rest.length ≤ bytes.length := by
  unfold decodeOne
  split
  · simp [Step.rest]
  · split
    · split
      · exact Nat.le_succ_of_le (rest_decodeTail _ _ _)
      · simp [Step.rest]
    · simp [Step.rest]

/-- Why bytes are no text, with the index of the first byte that belongs to no character. -/
inductive Fault where
  /-- So many bytes begin no character. -/
  | invalid (length index : Nat)
  /-- The last character is not finished. -/
  | incomplete (index : Nat)
deriving DecidableEq, Repr

/-- The words for why bytes are no text. -/
def Fault.message : Fault → String
  | .invalid length index => s!"invalid utf-8 sequence of {length} bytes from index {index}"
  | .incomplete index => s!"incomplete utf-8 byte sequence from index {index}"

/-- The fault of a byte at an index, with bytes after it of which `rest` are no part of the fault.
A first byte that can begin a character has only missed the others if there are no more. -/
def faultAt (index : Nat) (first : UInt8) (bytes rest : List UInt8) : Fault :=
  if rest.isEmpty && (secondRange first).isSome then .incomplete index
  else .invalid (bytes.length + 1 - rest.length) index

/-- The text of a byte sequence that starts at an index, if every byte belongs to a character. -/
def decodeFrom (index : Nat) : List UInt8 → Except Fault (List Char)
  | [] => .ok []
  | b :: bytes =>
    match _h : decodeOne b bytes with
    | .char c rest => (decodeFrom (index + c.utf8Size) rest).map (c :: ·)
    | .bad rest => .error (faultAt index b bytes rest)
termination_by bytes => bytes.length
decreasing_by
  have := rest_decodeOne b bytes
  rw [_h] at this
  exact Nat.lt_succ_of_le this

/-- The text of a byte sequence, if every byte belongs to a character. -/
def decode (bytes : List UInt8) : Except Fault (List Char) := decodeFrom 0 bytes

/-- The text of a byte sequence, with U+FFFD for each run of bytes that begins a character and does
not finish it. -/
def decodeLossy : List UInt8 → List Char
  | [] => []
  | b :: bytes =>
    match _h : decodeOne b bytes with
    | .char c rest => c :: decodeLossy rest
    | .bad rest => '\uFFFD' :: decodeLossy rest
termination_by bytes => bytes.length
decreasing_by
  all_goals
    have := rest_decodeOne b bytes
    rw [_h] at this
    exact Nat.lt_succ_of_le this

@[simp] theorem size_nil : size [] = 0 := rfl

@[simp] theorem size_cons (c : Char) (cs : List Char) : size (c :: cs) = c.utf8Size + size cs :=
  rfl

@[simp] theorem size_append (as bs : List Char) : size (as ++ bs) = size as + size bs := by
  induction as with
  | nil => simp
  | cons a as ih => simp [ih, Nat.add_assoc]

@[simp] theorem encode_nil : encode [] = [] := rfl

@[simp] theorem encode_cons (c : Char) (cs : List Char) :
    encode (c :: cs) = String.utf8EncodeChar c ++ encode cs := by
  simp [encode]

@[simp] theorem encode_append (as bs : List Char) : encode (as ++ bs) = encode as ++ encode bs := by
  simp [encode]

end Cimi.Text.Utf8
