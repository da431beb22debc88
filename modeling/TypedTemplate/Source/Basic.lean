import TypedTemplate.Number.Text

/-!
# Sources and their messages

A source is the text of a template under a name. What is said about a place in it shows the line
and points at the column. The lines are found once, in a pass that notes between which bytes each of
them stands, and cut out of the text when they are shown.

* `LineScan.bounds`: the pass over a text, and the table of its lines.
* `charsBetween?`: what stands between two offsets of a text.
* `Source.line`: a line, by its number in the table.
* `Source.message`: a remark about a place.
-/

namespace TypedTemplate

/-! ## The table of lines -/

/-- The offsets between which a line stands. -/
structure LineBounds where
  start : UInt32
  stop : UInt32
  deriving DecidableEq

/-- What is kept of the text gone through so far: the offset at which the line at hand starts, and
the last character with its offset. -/
structure LineScan where
  start : UInt32
  last : Char
  lastAt : UInt32

namespace LineScan

/-- Nothing has been gone through. -/
def initial : LineScan := ⟨0, ' ', 0⟩

/-- The scan behind one more character, which stands at an offset. -/
def next (s : LineScan) (offset : UInt32) (c : Char) : LineScan :=
  ⟨if c = '\n' then offset + 1 else s.start, c, offset⟩

/-- The line at hand, when a line end stands at an offset. A carriage return in front of a line end
belongs to it. -/
def ended (s : LineScan) (offset : UInt32) : LineBounds :=
  ⟨s.start, if s.last = '\r' then s.lastAt else offset⟩

/-- The line at hand, when a text of some size is at its end. -/
def remaining (s : LineScan) (size : Nat) : LineBounds :=
  if s.start.toNat < size then ⟨s.start, size.toUInt32⟩
  else if size = 0 then ⟨0, 0⟩
  else ⟨size.toUInt32, size.toUInt32⟩

/-- The lines that end in what follows an offset, in a text of some size. -/
def bounds (size : Nat) (s : LineScan) (offset : Nat) : List Char → List LineBounds
  | [] => [s.remaining size]
  | c :: rest =>
    let further := bounds size (s.next offset.toUInt32 c) (offset + c.utf8Size) rest
    if c = '\n' then s.ended offset.toUInt32 :: further else further

end LineScan

/-! ## Slices -/

/-- The text cut at an offset, unless the offset lies inside a character or behind the text. -/
def cutAt? (offset : Nat) : List Char → Option (List Char × List Char)
  | [] => if offset = 0 then some ([], []) else none
  | c :: rest =>
    if offset = 0 then some ([], c :: rest)
    else if c.utf8Size ≤ offset then
      (cutAt? (offset - c.utf8Size) rest).map fun parts => (c :: parts.1, parts.2)
    else none

/-- What stands between two offsets, unless they are out of order or one of them does not lie between
two characters. -/
def charsBetween? (cs : List Char) (start stop : Nat) : Option (List Char) :=
  if start ≤ stop then
    match cutAt? start cs with
    | some (_, behind) => (cutAt? (stop - start) behind).map (·.1)
    | none => none
  else none

/-! ## Sources -/

/-- The text of a template under a name. -/
structure Source where
  file : String
  text : String
  deriving DecidableEq

namespace Source

/-- The most bytes that a text may have, so that offsets in it, and what is counted along with them,
fit 32 bits. -/
def sizeLimit : Nat := UInt32.size - 1 - 2

/-- The table of the lines. -/
def table (s : Source) : List LineBounds :=
  LineScan.initial.bounds s.text.utf8ByteSize 0 s.text.toList

/-- What stands between the bounds of a line. -/
def slice? (s : Source) (b : LineBounds) : Option (List Char) :=
  charsBetween? s.text.toList b.start.toNat b.stop.toNat

/-- The lines of the source. -/
def lines (s : Source) : List (List Char) := s.table.map fun b => (s.slice? b).getD []

/-- The line at an index, counted from zero; empty beyond the last one. -/
def line (s : Source) (index : Nat) : String := String.ofList (s.lines[index]?.getD [])

/-- The text and blanks behind it, to a given width. -/
def padRight (cs : List Char) (width : Nat) : List Char :=
  cs ++ List.replicate (width - cs.length) ' '

/-- A remark about a place, with the line it is in and a mark under the column. -/
def message (s : Source) (line col : Nat) (kind text : String) : String :=
  if line = 0 || s.lines.length < line then
    s.file ++ ": invalid line " ++ toString line ++ " specified"
  else
    let number := Number.natChars line
    let width := number.length + 1
    "\n--> " ++ s.file ++ ":" ++ toString line ++ ":" ++ toString col ++ "\n" ++
      String.ofList (padRight [] width) ++ "|\n" ++
      String.ofList (padRight number width) ++ "| " ++ s.line (line - 1) ++ "\n" ++
      String.ofList (padRight [] width) ++ "| " ++ String.ofList (padRight [] (col - 1)) ++ "^\n" ++
      kind ++ ": " ++ text

end Source

end TypedTemplate
