-- The characters of a YAML text with their places. Every line break counts as one character, and
-- the usual ones all read as a line feed; a text with control characters has no glyphs. Columns are
-- counted in characters, and distances on a line in bytes.

namespace Ingress.Yaml

/-- A character and its place: how many bytes of UTF-8, and how many lines, stand before it, and how
many characters before it on its line. -/
structure Glyph where
  char : Char
  offset : Nat
  line : Nat
  column : Nat

/-- Whether a character may stand in a YAML text. -/
def isAllowed (c : Char) : Bool :=
  c = '\t' || c = '\n' || c = '\r' || c.toNat = 0x85 || (0x20 ≤ c.toNat && c.toNat ≤ 0x7E) ||
    (0xA0 ≤ c.toNat && c.toNat ≤ 0xFFFD) || 0x10000 ≤ c.toNat

/-- Whether a character is a separator of lines or paragraphs, which ends a line and is kept. -/
def isSeparator (c : Char) : Bool := c.toNat = 0x2028 || c.toNat = 0x2029

/-- Whether a character ends a line. -/
def isBreak (c : Char) : Bool := c = '\n' || isSeparator c

/-- Whether a character is a space or a tab. -/
def isBlank (c : Char) : Bool := c = ' ' || c = '\t'

/-- Whether a character may stand in a word, such as the name of an anchor or of a directive. -/
def isWordChar (c : Char) : Bool := c.isAlphanum || c = '-' || c = '_'

/-- The glyphs of a text from a place on. -/
def glyphsFrom (offset line column : Nat) : List Char → List Glyph
  | [] => []
  | '\r' :: '\n' :: cs => ⟨'\n', offset, line, column⟩ :: glyphsFrom (offset + 2) (line + 1) 0 cs
  | c :: cs =>
    let behind := offset + c.utf8Size
    if c = '\n' || c = '\r' || c.toNat = 0x85 then
      ⟨'\n', offset, line, column⟩ :: glyphsFrom behind (line + 1) 0 cs
    else if isSeparator c then ⟨c, offset, line, column⟩ :: glyphsFrom behind (line + 1) 0 cs
    else ⟨c, offset, line, column⟩ :: glyphsFrom behind line (column + 1) cs

/-- The glyphs of a text whose characters are all allowed. -/
def glyphs? (s : String) : Option (List Glyph) :=
  if s.toList.all isAllowed then some (glyphsFrom 0 0 0 s.toList) else none

/-! ## What stands ahead -/

/-- Whether a blank, a line break or the end stands ahead. -/
def atGap : List Glyph → Bool
  | [] => true
  | g :: _ => isBlank g.char || isBreak g.char

/-- Whether a character stands ahead. -/
def atChar (c : Char) : List Glyph → Bool
  | [] => false
  | g :: _ => g.char = c

/-- Whether a line begins with three times a character and a gap. -/
def atMark (c : Char) : List Glyph → Bool
  | g :: h :: i :: rest =>
    g.column = 0 && g.char = c && h.char = c && i.char = c && atGap rest
  | _ => false

/-- Whether a mark of the start or the end of a document stands ahead. -/
def atDocumentMark (gs : List Glyph) : Bool := atMark '-' gs || atMark '.' gs

/-- What stands behind the blanks ahead. -/
def skipBlanks (gs : List Glyph) : List Glyph := gs.dropWhile fun g => isBlank g.char

/-- What stands behind the blanks and the comment ahead. -/
def skipComment (gs : List Glyph) : List Glyph :=
  let rest := skipBlanks gs
  if atChar '#' rest then rest.dropWhile fun g => !isBreak g.char else rest

/-- What stands on the next line, if nothing but blanks and a comment is left of this one. -/
def nextLine? (gs : List Glyph) : Option (List Glyph) :=
  match skipComment gs with
  | [] => some []
  | g :: rest => if isBreak g.char then some rest else none

/-- The text of some glyphs. -/
def textOf (gs : List Glyph) : String := String.ofList (gs.map (·.char))

end Ingress.Yaml
