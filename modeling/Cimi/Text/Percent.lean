import Cimi.Text.Hex
import Cimi.Text.Split
import Cimi.Text.Utf8

/-!
# Percent encoding

The escapes of URLs and of HTML forms.  `encode` writes a value so that only letters, digits and
`-._~` stand for themselves; `decodeBytes` undoes the escapes and leaves a `%` that starts none.
A form or a query is a list of pairs (`formPairs`), in which `+` is a space.
-/

namespace Cimi.Text.Percent

/-- Whether a character stands for itself in an encoded value. -/
def isUnreserved (c : Char) : Bool :=
  c.isAlphanum || c = '-' || c = '.' || c = '_' || c = '~'

/-- The escape of a byte. -/
def escape (b : UInt8) : List Char :=
  ['%', Hex.upper (b.toNat / 16), Hex.upper (b.toNat % 16)]

/-- A character in an encoded value: itself, or the escapes of its bytes. -/
def encodeChar (c : Char) : List Char :=
  if isUnreserved c then [c] else (String.utf8EncodeChar c).flatMap escape

/-- A value with everything but unreserved characters escaped. -/
def encode (cs : List Char) : List Char := cs.flatMap encodeChar

/-- The byte that an escape `%XX` with these digits stands for. -/
def escaped (high low : UInt8) : Option UInt8 := do
  let h ← Hex.value? (Char.ofNat high.toNat)
  let l ← Hex.value? (Char.ofNat low.toNat)
  return UInt8.ofNat (h * 16 + l)

/-- The byte of `%`. -/
def mark : UInt8 := 0x25

/-- The bytes behind the escapes; a `%` that is followed by no two digits stands for itself. -/
def decodeBytes : List UInt8 → List UInt8
  | [] => []
  | [b] => [b]
  | [b, c] => [b, c]
  | b :: high :: low :: rest =>
    if b = mark then
      match escaped high low with
      | some byte => byte :: decodeBytes rest
      | none => b :: decodeBytes (high :: low :: rest)
    else b :: decodeBytes (high :: low :: rest)

/-- The text behind the escapes, if its bytes are text. -/
def decode (cs : List Char) : Option (List Char) :=
  (Utf8.decode (decodeBytes (Utf8.encode cs))).toOption

/-- A name or value of a form: `+` is a space, and bytes that are no text become U+FFFD. -/
def decodeFormPart (cs : List Char) : List Char :=
  Utf8.decodeLossy (decodeBytes (Utf8.encode (cs.map fun c => if c = '+' then ' ' else c)))

/-- The pairs of a form or of the query of a URL.  Parts are separated by `&`, a part without `=`
has the empty value, and empty parts are no pairs. -/
def formPairs (cs : List Char) : List (String × String) :=
  ((split '&' cs).filter (!·.isEmpty)).map fun part =>
    let (name, value) := (cutFirst '=' part).getD (part, [])
    (String.ofList (decodeFormPart name), String.ofList (decodeFormPart value))

theorem encode_append (as bs : List Char) : encode (as ++ bs) = encode as ++ encode bs := by
  simp [encode]

end Cimi.Text.Percent
