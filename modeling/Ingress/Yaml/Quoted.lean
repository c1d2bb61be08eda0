-- Scalars between quotes. Between single quotes, two quotes stand for one; between double quotes, a
-- backslash begins an escape.
import Ingress.Text.Digit
import Ingress.Yaml.Folding

namespace Ingress.Yaml

/-! ## Single quotes -/

/-- Reads behind the opening single quote. The text so far is in reverse. -/
def singleQuoted (text : List Char) (gap : Gap) : List Glyph → Option Scanned
  | [] => none
  | g :: rest =>
    if atDocumentMark (g :: rest) then none
    else if isBlank g.char then singleQuoted text (gap.addBlank g.char) rest
    else if isBreak g.char then singleQuoted text (gap.addBreak g.char) rest
    else
      let text := gap.text.reverse ++ text
      if g.char = '\'' then
        match rest with
        | h :: rest =>
          if h.char = '\'' then singleQuoted ('\'' :: text) .empty rest
          else some ⟨text.reverse, h :: rest⟩
        | [] => some ⟨text.reverse, []⟩
      else singleQuoted (g.char :: text) .empty rest

/-! ## Double quotes -/

/-- Where a reader between double quotes stands: in the text, behind a backslash, or before the
remaining hexadecimal digits of an escape. -/
inductive Escape where
  | outside
  | backslash
  | digits (left value : Nat)

/-- The character that stands for another one behind a backslash. -/
def escaped? (c : Char) : Option Char :=
  [('0', '\x00'), ('a', '\x07'), ('b', '\x08'), ('t', '\t'), ('\t', '\t'), ('n', '\n'),
   ('v', '\x0b'), ('f', '\x0c'), ('r', '\r'), ('e', '\x1b'), (' ', ' '), ('"', '"'),
   ('/', '/'), ('\\', '\\'), ('N', '\u0085'), ('_', '\u00a0'), ('L', '\u2028'),
   ('P', '\u2029')].lookup c

/-- The number of hexadecimal digits behind a backslash and a letter. -/
def escapeLength? (c : Char) : Option Nat := [('x', 2), ('u', 4), ('U', 8)].lookup c

/-- The character of a code point. -/
def codePoint? (n : Nat) : Option Char :=
  if n.isValidChar then some (Char.ofNat n) else none

/-- Reads behind the opening double quote. The text so far is in reverse. -/
def doubleQuoted (text : List Char) (gap : Gap) : Escape → List Glyph → Option Scanned
  | _, [] => none
  | .outside, g :: rest =>
    if atDocumentMark (g :: rest) then none
    else if isBlank g.char then doubleQuoted text (gap.addBlank g.char) .outside rest
    else if isBreak g.char then doubleQuoted text (gap.addBreak g.char) .outside rest
    else
      let text := gap.text.reverse ++ text
      if g.char = '"' then some ⟨text.reverse, rest⟩
      else if g.char = '\\' then doubleQuoted text .empty .backslash rest
      else doubleQuoted (g.char :: text) .empty .outside rest
  | .backslash, g :: rest =>
    if isBreak g.char then doubleQuoted text .escaped .outside rest
    else match escaped? g.char with
      | some c => doubleQuoted (c :: text) .empty .outside rest
      | none =>
        match escapeLength? g.char with
        | some n => doubleQuoted text .empty (.digits n 0) rest
        | none => none
  | .digits left value, g :: rest =>
    match Text.hexDigit? g.char with
    | none => none
    | some d =>
      if left ≤ 1 then
        match codePoint? (16 * value + d) with
        | some c => doubleQuoted (c :: text) .empty .outside rest
        | none => none
      else doubleQuoted text .empty (.digits (left - 1) (16 * value + d)) rest

end Ingress.Yaml
