import TypedTemplate.Piece

/-!
# Whitespace control

A tag or comment may ask for the blanks around it to be stripped. Comments go away here, and so
does text of which nothing is left; what remains are the parts that a program is assembled from.

* `Part`: text as it will be rendered, or the inside of a tag.
* `Stripping.step`: one piece.
* `stripPieces`: the parts of the pieces of a template.
-/

namespace TypedTemplate

/-- A part of a template after whitespace control. -/
inductive Part where
  | content (span : Span) (text : List Char)
  | tag (span : Span) (inner : Excerpt)
  deriving DecidableEq

/-- Whitespace control under way. -/
structure Stripping where
  /-- The parts up to the last tag, in reverse. -/
  settled : List Part
  /-- The texts since the last tag, in reverse. The last one may still lose blanks at its end. -/
  pending : List (Span × List Char)
  /-- A text that comes next loses the blanks at its front. -/
  stripNext : Bool

namespace Stripping

/-- Nothing read yet. -/
def start : Stripping := ⟨[], [], false⟩

/-- Strip the blanks at the end of the last text, and the text with them if nothing is left. -/
def stripLast : List (Span × List Char) → List (Span × List Char)
  | [] => []
  | (span, text) :: earlier =>
    if (Text.trimEnd text).isEmpty then earlier else (span, Text.trimEnd text) :: earlier

/-- All parts so far, in reverse. -/
def parts (s : Stripping) : List Part :=
  s.pending.map (fun p => .content p.1 p.2) ++ s.settled

/-- The state after one more piece. -/
def step (s : Stripping) (l : LocatedPiece) : Stripping :=
  match l.piece with
  | .text raw =>
    let text := unescapeBraces raw
    let text := if s.stripNext then Text.trimStart text else text
    let pending := if text.isEmpty then s.pending else (l.span, text) :: s.pending
    { s with pending, stripNext := false }
  | .comment strip _ _ =>
    let pending := if strip.before then stripLast s.pending else s.pending
    { s with pending, stripNext := strip.after }
  | .tag strip braces inner =>
    let pending := if strip.before then stripLast s.pending else s.pending
    let tag := Part.tag l.span (innerExcerpt l.start strip braces inner)
    ⟨tag :: parts { s with pending }, [], strip.after⟩

end Stripping

/-- The parts of a template. -/
def stripPieces (pieces : List LocatedPiece) : List Part :=
  (pieces.foldl Stripping.step .start).parts.reverse

end TypedTemplate
