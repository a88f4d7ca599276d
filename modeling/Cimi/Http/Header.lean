/-!
# Header values

A header value is one line without control characters other than the tab.  Everyone can read a value
that has only characters of ASCII.
-/

namespace Cimi.Http

/-- Whether a character may stand in a header value. -/
def isHeaderChar (c : Char) : Bool := (' ' ≤ c && c ≠ '\x7F') || c = '\t'

/-- Whether a text can be sent as a header value. -/
def isHeaderValue (text : String) : Bool := text.toList.all isHeaderChar

/-- Whether a header value can be read as text. -/
def isReadable (value : String) : Bool :=
  value.toList.all fun c => (' ' ≤ c && c < '\x7F') || c = '\t'

/-- What is said of a text that cannot be sent as a header value. -/
def badHeaderValue : String := "failed to parse header value"

end Cimi.Http
