-- Tags: names of types in front of values. A tag is a handle and a suffix and stands for what its
-- handle stands for, followed by the suffix; between angle brackets it stands for itself.
import Ingress.Text.Digit
import Ingress.Text.Utf8
import Ingress.Yaml.Glyph

namespace Ingress.Yaml

/-- The type that a value is said to have. A lone exclamation mark names none, a local tag is a name
behind such a mark and means what its reader takes it for, and a global tag means the same
everywhere. What stands behind the mark may be no text and cannot be read then. -/
inductive Tag where
  | nonSpecific
  | unreadable
  | localTag (name : String)
  | globalTag (uri : String)
deriving DecidableEq

namespace Tag

/-! ## Common types -/

/-- What the tags of common types begin with. -/
def commonUri : String := "tag:yaml.org,2002:"

/-- The tag of nothing. -/
def null : Tag := .globalTag (commonUri ++ "null")

/-- The tag of truth values. -/
def bool : Tag := .globalTag (commonUri ++ "bool")

/-- The tag of integers. -/
def int : Tag := .globalTag (commonUri ++ "int")

/-- The tag of floating point numbers. -/
def float : Tag := .globalTag (commonUri ++ "float")

/-- The name that a tag leaves to its reader. -/
def localName? : Tag → Option String
  | .nonSpecific => some "!"
  | .localTag name => some name
  | _ => none

/-- The tag that bytes denote. -/
def ofBytes (bytes : List UInt8) : Tag :=
  let text := Text.utf8Decode bytes
  match text with
  | ['!'] => .nonSpecific
  | '!' :: name =>
    if Text.utf8Encode (String.ofList text) = bytes then .localTag (String.ofList name)
    else .unreadable
  | _ => .globalTag (String.ofList text)

/-! ## Bytes of a tag -/

/-- The number of bytes of a character whose first byte is given. -/
def width? (byte : Nat) : Option Nat :=
  if byte < 0x80 then some 1
  else if byte / 32 = 6 then some 2
  else if byte / 16 = 14 then some 3
  else if byte / 8 = 30 then some 4
  else none

/-- How many bytes of a character are missing behind a byte, if `missing` were missing before it. -/
def missingBehind? (missing byte : Nat) : Option Nat :=
  if missing = 0 then (width? byte).map (· - 1)
  else if byte / 64 = 2 then some (missing - 1)
  else none

/-- The bytes of a tag as it is written. A percent sign with two hexadecimal digits stands for a
byte, and the bytes of a character stand side by side. -/
def unescape? : Nat → List Char → Option (List UInt8)
  | 0, [] => some []
  | missing, '%' :: c :: d :: rest => do
    let byte := 16 * (← Text.hexDigit? c) + (← Text.hexDigit? d)
    return UInt8.ofNat byte :: (← unescape? (← missingBehind? missing byte) rest)
  | 0, c :: rest => if c = '%' then none else (unescape? 0 rest).map (UInt8.ofNat c.toNat :: ·)
  | _ + 1, _ => none

/-- Whether a character may stand in a tag. Some stand only between angle brackets. -/
def isUriChar (bracketed : Bool) (c : Char) : Bool :=
  isWordChar c || ";/?:@&=+$.%!~*'()".toList.contains c || (bracketed && ",[]".toList.contains c)

/-- Reads bytes of a tag up to a byte of zero, and skips the others. -/
def uri? (bracketed : Bool) (gs : List Glyph) : Option (List UInt8 × List Glyph) := do
  let (written, rest) := gs.span fun g => isUriChar bracketed g.char
  let bytes ← unescape? 0 (written.map (·.char))
  return (bytes.takeWhile (· ≠ 0), rest)

/-- Reads bytes of a tag, of which something has to be written. -/
def writtenUri? (bracketed : Bool) (gs : List Glyph) : Option (List UInt8 × List Glyph) :=
  if gs.head?.any fun g => isUriChar bracketed g.char then uri? bracketed gs else none

/-! ## Handles -/

/-- What handles stand for. -/
abbrev Handles := List (String × List UInt8)

/-- The handle of local tags. -/
def localHandle : String := "!"

/-- What handles stand for unless something else is said. -/
def defaultHandles : Handles :=
  [(localHandle, Text.utf8Encode "!"), ("!!", Text.utf8Encode commonUri)]

/-- The bytes of a handle followed by a suffix. -/
def expand? (handles : Handles) (handle : String) (suffix : List UInt8) : Option (List UInt8) :=
  ((handles ++ defaultHandles).lookup handle).map (· ++ suffix)

/-- Reads a handle behind its exclamation mark: a word with another mark behind it, or nothing. -/
def handle (gs : List Glyph) : String × List Glyph :=
  let (word, behind) := gs.span fun g => isWordChar g.char
  match behind with
  | g :: rest => if g.char = '!' then ("!" ++ textOf word ++ "!", rest) else (localHandle, gs)
  | [] => (localHandle, gs)

/-! ## Reading -/

/-- Reads a tag between angle brackets, behind the first one. -/
def bracketed? (gs : List Glyph) : Option (List UInt8 × List Glyph) := do
  let (bytes, rest) ← writtenUri? true gs
  if atChar '>' rest then return (bytes, rest.drop 1) else none

/-- Reads a handle and a suffix behind the exclamation mark. A lone mark is not expanded. -/
def shorthand? (handles : Handles) (gs : List Glyph) : Option (List UInt8 × List Glyph) := do
  let (handle, behind) := handle gs
  if handle = localHandle then
    let (suffix, rest) ← uri? false behind
    if suffix = [] then return (Text.utf8Encode "!", rest)
    else return (← expand? handles handle suffix, rest)
  else
    let (suffix, rest) ← writtenUri? false behind
    return (← expand? handles handle suffix, rest)

/-- Reads a tag behind its exclamation mark. It ends at a gap, or in brackets at a comma. -/
def read? (handles : Handles) (inFlow : Bool) (gs : List Glyph) : Option (Tag × List Glyph) := do
  let (bytes, rest) ← if atChar '<' gs then bracketed? (gs.drop 1) else shorthand? handles gs
  if atGap rest || (inFlow && atChar ',' rest) then return (ofBytes bytes, rest) else none

end Tag

end Ingress.Yaml
