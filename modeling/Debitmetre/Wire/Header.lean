import Debitmetre.Wire.Url

/-!
# Header fields

The lines of a message's header, each a name and a value.  Names are kept in lower
case, and every name is that of a token in any case; values are any octets but
controls.  A value can be a list of names, separated by commas.
-/

namespace Wire

namespace Ascii

/-- The octets of the names of headers: those of tokens, in lower case. -/
def isNameOctet (b : UInt8) : Bool :=
  isDigit b || (0x61 ≤ b && b ≤ 0x7A) || (utf8 "!#$%&\x27*+-.^_\x60|~").contains b

/-- The octets of the values of headers: all but controls, and the tab. -/
def isValueOctet (b : UInt8) : Bool := (0x20 ≤ b && b != 0x7F) || b == tab

/-- The octets that are trimmed of a text in the range of ASCII. -/
def isBlank (b : UInt8) : Bool := b == space || (tab ≤ b && b ≤ cr)

end Ascii

open Ascii

/-- A text in lower case is the name of a header; `MAX_HEADER_NAME_LEN` bounds it. -/
def isName (text : Bytes) : Bool :=
  !text.isEmpty && text.length ≤ 65535 && text.all isNameOctet

/-- The name of a header. -/
structure HeaderName where
  text : Bytes
  valid : isName text = true
  deriving DecidableEq

/-- The value of a header. -/
structure HeaderValue where
  octets : Bytes
  plain : octets.all isValueOctet = true
  deriving DecidableEq

namespace HeaderName

/-- `header::CONNECTION`. -/
def connection : HeaderName := ⟨utf8 "connection", rfl⟩

/-- `HeaderName::from_bytes`. -/
def fromBytes (octets : Bytes) : Option HeaderName :=
  if valid : isName (octets.map toLower) = true then some ⟨octets.map toLower, valid⟩ else none

/-- A name is read from its text in any case. -/
theorem fromBytes_eq_some_iff {octets : Bytes} {name : HeaderName} :
    fromBytes octets = some name ↔ octets.map toLower = name.text := by
  unfold fromBytes
  constructor
  · intro read
    split at read
    · rw [← Option.some.inj read]
    · cases read
  · intro same
    obtain ⟨text, valid⟩ := name
    subst same
    exact dif_pos valid

end HeaderName

/-- `str::trim` of a text in the range of ASCII.  Of the octets of a header's value
these are the space and the tab, its optional whitespace. -/
def trim (octets : Bytes) : Bytes :=
  ((octets.dropWhile isBlank).reverse.dropWhile isBlank).reverse

/-- The lines of a header, in the order of their iteration. -/
abbrev HeaderMap := List (HeaderName × HeaderValue)

namespace HeaderMap

/-- The values of the lines with a name. -/
def getAll (headers : HeaderMap) (name : HeaderName) : List HeaderValue :=
  (headers.filter fun header => header.1 = name).map Prod.snd

/-- The value of the first line with a name. -/
def get (headers : HeaderMap) (name : HeaderName) : Option HeaderValue :=
  (headers.getAll name).head?

end HeaderMap

/-- Some values, each a list of names, have a name. -/
def nominatedIn (values : List HeaderValue) (name : HeaderName) : Bool :=
  values.any fun value =>
    (value.octets.splitOn comma).any fun token => (trim token).map toLower == name.text

end Wire
