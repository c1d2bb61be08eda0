-- Scalars without quotes. Outside brackets they go on over lines that are indented more deeply than
-- what they stand in; a colon before a gap ends them, and so does a comment.
import Ingress.Yaml.Folding

namespace Ingress.Yaml

/-- A scalar without quotes, and whether a line break stands behind it. -/
structure ScannedPlain extends Scanned where
  broken : Bool

/-- Whether a character stands for a part of a collection in brackets. -/
def isFlowIndicator (c : Char) : Bool := ",[]\x7b\x7d".toList.contains c

/-- Whether a colon ends a scalar in brackets wrongly, without a gap behind it. -/
def atBadColon (inFlow : Bool) (gs : List Glyph) : Bool :=
  match gs with
  | g :: h :: _ => inFlow && g.char = ':' && (isFlowIndicator h.char || h.char = '?')
  | _ => false

/-- Whether a scalar ends before what stands ahead. -/
def endsPlain (inFlow : Bool) : List Glyph → Bool
  | [] => true
  | g :: rest => (g.char = ':' && atGap rest) || (inFlow && isFlowIndicator g.char)

/-- Whether a gap ends a scalar before what stands behind it: a comment, a mark of a document, or a
line that is not indented enough. -/
def endsGap (inFlow : Bool) (indent : Nat) (gap : Gap) (gs : List Glyph) : Bool :=
  match gs with
  | [] => true
  | g :: _ =>
    (gap.broken || gap.blanks ≠ []) && (g.char = '#' || (!inFlow && decide (g.column < indent)))
      || atDocumentMark gs

/-- Reads a scalar whose further lines are indented by at least `indent`. The text so far is in
reverse. -/
def plainFrom (inFlow : Bool) (indent : Nat) (text : List Char) (gap : Gap) :
    List Glyph → Option ScannedPlain
  | [] => some ⟨⟨text.reverse, []⟩, gap.broken⟩
  | g :: rest =>
    if isBlank g.char then
      if gap.broken && g.char = '\t' && decide (g.column < indent) then none
      else plainFrom inFlow indent text (gap.addBlank g.char) rest
    else if isBreak g.char then plainFrom inFlow indent text (gap.addBreak g.char) rest
    else if endsGap inFlow indent gap (g :: rest) then
      some ⟨⟨text.reverse, g :: rest⟩, gap.broken⟩
    else if atBadColon inFlow (g :: rest) then none
    else if endsPlain inFlow (g :: rest) then
      some ⟨⟨text.reverse, g :: rest⟩, gap.broken⟩
    else plainFrom inFlow indent (g.char :: (gap.text.reverse ++ text)) .empty rest

/-- Whether a scalar without quotes may begin with what stands ahead. -/
def atPlain (inFlow : Bool) : List Glyph → Bool
  | [] => false
  | g :: rest =>
    let gap := isBlank g.char || isBreak g.char
    (!gap && !("-?:,[]\x7b\x7d#&*!|>'\"%@\x60".toList.contains g.char))
      || (g.char = '-' && !(match rest with
        | h :: _ => isBlank h.char
        | [] => false))
      || (!inFlow && (g.char = '?' || g.char = ':') && !atGap rest)

end Ingress.Yaml
