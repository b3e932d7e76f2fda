import Gatehouse.Http.Token
import Gatehouse.Text.Utf8

/-!
# Header fields

The headers of a message are fields in the order in which they were added; names are kept in lower
case, and one name may have many fields. The value of a field is bytes: the blank and everything
above it but DEL, and the tab. A value can be read as text only if all of it is ASCII.

* `Headers.values`  the values of a name, in order
* `Headers.add`     adds a field behind the others
* `Headers.set`     makes a value the only one of its name
-/

namespace Gatehouse.Http

/-- A field: its name in lower case, and its value. -/
structure Header where
  name : String
  value : List UInt8
deriving DecidableEq

/-- The longest name that a field may have, in bytes. -/
def maxNameLength : Nat := 65535

/-- The name of a field, in lower case, if the text can be one. -/
def fieldName? (s : String) : Option String :=
  if isToken s && s.utf8ByteSize ≤ maxNameLength then some s.toLower else none

/-- Whether a byte may stand in the value of a field. -/
def isValueByte (b : UInt8) : Bool := b == 9 || (32 ≤ b && b != 127)

/-- Whether a byte of a value can be read as text. -/
def isReadableByte (b : UInt8) : Bool := b == 9 || (32 ≤ b && b < 127)

namespace Header

/-- A field whose value is a text. -/
def ofText (name value : String) : Header := ⟨name, value.toUTF8.toList⟩

/-- The value as text, if it can be read so. -/
def text? (h : Header) : Option String :=
  if h.value.all isReadableByte then some (Text.ofBytesLossy h.value) else none

end Header

/-- The fields of a message, in the order in which they were added. -/
abbrev Headers := List Header

namespace Headers

/-- The values of a name, in order. -/
def values (hs : Headers) (name : String) : List (List UInt8) :=
  (hs.filter (·.name = name)).map (·.value)

/-- The first field of a name. -/
def first? (hs : Headers) (name : String) : Option Header := hs.find? (·.name = name)

/-- The text of the first field of a name, if there is one and it can be read. -/
def text? (hs : Headers) (name : String) : Option String := (hs.first? name).bind Header.text?

/-- Whether a name has a field. -/
def has (hs : Headers) (name : String) : Bool := hs.any (·.name = name)

/-- The fields without those of a name. -/
def without (hs : Headers) (name : String) : Headers := hs.filter (·.name ≠ name)

/-- Adds a field behind the others. -/
def add (hs : Headers) (h : Header) : Headers := hs ++ [h]

/-- Makes a field the only one of its name. -/
def set (hs : Headers) (h : Header) : Headers := (hs.without h.name).add h

/-- Makes a field the only one of its name, unless the name has one already. -/
def offer (hs : Headers) (h : Header) : Headers := if hs.has h.name then hs else hs.add h

end Headers

end Gatehouse.Http
