import Mathlib.Data.List.Induction
import TypedTemplate.Proofs.Piece.Partition

/-!
# True positions

Lines and columns are counted along while a text is cut. What the counts stand for is said here of
offsets alone: the line of an offset is one more than the number of line ends in front of it, and
its column one more than the number of characters behind the last of these. A position is *true*
when its offset lies between two characters, and its line and column are those of the offset.

* `charsBefore`, `lineAt`, `colAt`: what is in front of an offset, and its line and column.
* `Position.TrueIn`, `Span.TrueIn`: true positions and spans of a text.
* `Span.QuotedIn`: the span inside quotes, whose line and column are those of the opening quote.
* `SyntaxError.TrueIn`: a fault that is blamed on a place of the text.
* **`Position.trueIn_advance`**: advancing from the front of a text counts truly.
* `SyntaxError.TrueIn.line_le`: a true fault is in one of the lines of its source, and its remark
  shows that line (`Source.exists_excerpt`).
-/

namespace TypedTemplate

/-! ## What is in front of an offset -/

/-- The characters that begin in the first bytes of a text. -/
def takeBytes (size : Nat) : List Char → List Char
  | [] => []
  | c :: rest => if size = 0 then [] else c :: takeBytes (size - c.utf8Size) rest

/-- The characters in front of an offset. -/
def charsBefore (text : String) (offset : Nat) : List Char := takeBytes offset text.toList

/-- The line of an offset. -/
def lineAt (text : String) (offset : Nat) : Nat := 1 + (charsBefore text offset).count '\n'

/-- The column of an offset. -/
def colAt (text : String) (offset : Nat) : Nat :=
  1 + ((charsBefore text offset).reverse.takeWhile (· != '\n')).length

theorem byteSize_cons (c : Char) (cs : List Char) :
    byteSize (c :: cs) = c.utf8Size + byteSize cs := by
  rw [← byteSize_singleton, ← byteSize_append]
  rfl

theorem takeBytes_zero (cs : List Char) : takeBytes 0 cs = [] := by
  cases cs <;> simp [takeBytes]

theorem takeBytes_append (front rest : List Char) :
    takeBytes (byteSize front) (front ++ rest) = front := by
  induction front with
  | nil => exact takeBytes_zero rest
  | cons c front ih =>
    have hpos : byteSize (c :: front) ≠ 0 :=
      Nat.ne_of_gt (byteSize_pos (List.cons_ne_nil c front))
    rw [List.cons_append, takeBytes, if_neg hpos, byteSize_cons, Nat.add_sub_cancel_left, ih]

theorem isPrefix_takeBytes (size : Nat) (cs : List Char) : takeBytes size cs <+: cs := by
  induction cs generalizing size with
  | nil => simp [takeBytes]
  | cons c cs ih =>
    unfold takeBytes
    by_cases hsize : size = 0
    · simp [hsize]
    · simpa [hsize] using ih (size - c.utf8Size)

/-- In front of the offset behind the beginning of a text is that beginning. -/
theorem charsBefore_of_append {text : String} {before after : List Char}
    (h : text.toList = before ++ after) : charsBefore text (byteSize before) = before := by
  unfold charsBefore
  rw [h, takeBytes_append]

/-- The offset behind the beginning of a text lies between two characters. -/
theorem isValid_of_append {text : String} {before after : List Char}
    (h : text.toList = before ++ after) :
    (String.Pos.Raw.mk (byteSize before)).IsValid text := by
  rw [← String.ofList_toList (s := text), String.Pos.Raw.isValid_ofList]
  refine ⟨before.length, ?_⟩
  rw [h, List.take_left']
  · rfl
  · rfl

/-! ## Counting -/

namespace Position

theorem line_advance (p : Position) (cs : List Char) :
    (p.advance cs).line = p.line + cs.count '\n' := by
  induction cs generalizing p with
  | nil => rfl
  | cons c cs ih =>
    have hstep : (p.advance (c :: cs)).line = ((p.next c).advance cs).line := rfl
    rw [hstep, ih]
    by_cases hc : c = '\n'
    · simp [next, hc]
      omega
    · simp [next, hc]

/-- The column counts the characters behind the last line end. -/
theorem col_advance_start (cs : List Char) :
    (start.advance cs).col = 1 + (cs.reverse.takeWhile (· != '\n')).length := by
  induction cs using List.reverseRecOn with
  | nil => rfl
  | append_singleton cs c ih =>
    have hstep : start.advance (cs ++ [c]) = (start.advance cs).next c := advance_append ..
    rw [hstep]
    by_cases hc : c = '\n'
    · simp [next, hc]
    · simp [next, hc, ih]
      omega

/-- **A true position**: its offset lies between two characters of the text, and its line and column
are those of the offset. -/
structure TrueIn (text : String) (p : Position) : Prop where
  valid : (String.Pos.Raw.mk p.offset).IsValid text
  line_eq : p.line = lineAt text p.offset
  col_eq : p.col = colAt text p.offset

/-- **Advancing counts truly.** -/
theorem trueIn_advance {text : String} {before after : List Char}
    (h : text.toList = before ++ after) : (start.advance before).TrueIn text := by
  have hoffset : (start.advance before).offset = byteSize before := by
    simp [offset_advance, start]
  have hline : (start.advance before).line = 1 + before.count '\n' := line_advance start before
  refine ⟨?_, ?_, ?_⟩
  · rw [hoffset]
    exact isValid_of_append h
  · rw [hoffset, lineAt, charsBefore_of_append h, hline]
  · rw [hoffset, colAt, charsBefore_of_append h, col_advance_start]

end Position

/-! ## Spans and faults -/

/-- A span that begins and ends between characters of the text. -/
structure Span.Within (text : String) (s : Span) : Prop where
  start_le_stop : s.start ≤ s.stop
  stop_le_size : s.stop ≤ text.utf8ByteSize
  start_valid : (String.Pos.Raw.mk s.start).IsValid text
  stop_valid : (String.Pos.Raw.mk s.stop).IsValid text

/-- **A true span**: line and column are those of its start. -/
structure Span.TrueIn (text : String) (s : Span) : Prop where
  within : s.Within text
  begins : (Position.mk s.line s.col s.start).TrueIn text

/-- **The span inside quotes**: line and column are those of the opening quote, which is the
character in front of its start. -/
structure Span.QuotedIn (text : String) (s : Span) : Prop where
  within : s.Within text
  quote : ∃ q, isQuote q = true ∧
    charsBefore text s.start = charsBefore text (s.start - 1) ++ [q]
  begins : (Position.mk s.line s.col (s.start - 1)).TrueIn text

/-- **A true fault** is blamed on the line and column of an offset of the text. -/
def SyntaxError.TrueIn (text : String) (e : SyntaxError) : Prop :=
  ∃ offset, (Position.mk e.line e.col offset).TrueIn text

/-- A fault at a true position is true. -/
theorem SyntaxError.trueIn_at {text : String} {p : Position} (h : p.TrueIn text) (cause : Cause) :
    (at' p cause).TrueIn text := ⟨p.offset, h⟩

/-- A fault at a true span is true. -/
theorem Span.TrueIn.fault {text : String} {s : Span} (h : s.TrueIn text)
    (cause : SyntaxError.Cause) : (SyntaxError.on s cause).TrueIn text := ⟨s.start, h.begins⟩

/-- What stands between two ends of a text is within it. -/
theorem Span.within_of_append {text : String} {before chars after : List Char}
    (h : text.toList = before ++ chars ++ after) {s : Span} (hstart : s.start = byteSize before)
    (hstop : s.stop = byteSize (before ++ chars)) : s.Within text := by
  have hsize : text.utf8ByteSize = byteSize (before ++ chars) + byteSize after := by
    rw [← byteSize_toList, h, byteSize_append]
  have hsplit := byteSize_append before chars
  refine ⟨by omega, by omega, ?_, ?_⟩
  · rw [hstart]
    rw [List.append_assoc] at h
    exact isValid_of_append h
  · rw [hstop]
    exact isValid_of_append h

/-! ## Excerpts -/

namespace Excerpt

variable {text : String} {e : Excerpt}

/-- A position inside an excerpt that stands in a text is true. -/
theorem StandsIn.advance (h : e.StandsIn text) {front rest : List Char}
    (hchars : e.chars = front ++ rest) : (e.start.advance front).TrueIn text := by
  obtain ⟨before, after, htext, hstart⟩ := h
  have hsplit : text.toList = (before ++ front) ++ (rest ++ after) := by
    rw [htext, hchars]
    simp
  rw [hstart, ← Position.advance_append]
  exact Position.trueIn_advance hsplit

theorem StandsIn.start_trueIn (h : e.StandsIn text) : e.start.TrueIn text :=
  h.advance (List.nil_append e.chars).symm

/-- The span of an excerpt that stands in a text is true. -/
theorem StandsIn.span_trueIn (h : e.StandsIn text) : e.span.TrueIn text := by
  refine ⟨?_, h.start_trueIn⟩
  obtain ⟨before, after, htext, hstart⟩ := h
  refine Span.within_of_append htext ?_ ?_
  · simp [span, hstart, Position.offset_advance, Position.start]
  · simp [span, hstart, Position.offset_advance, Position.start, byteSize_append]

/-- What is left of an excerpt stands where it stood. -/
theorem StandsIn.drop (h : e.StandsIn text) (count : Nat) : (e.drop count).StandsIn text := by
  obtain ⟨before, after, htext, hstart⟩ := h
  refine ⟨before ++ e.chars.take count, after, ?_, ?_⟩
  · simp [Excerpt.drop, htext]
  · simp [Excerpt.drop, hstart, Position.advance_append]

theorem StandsIn.trimStart (h : e.StandsIn text) : e.trimStart.StandsIn text := h.drop _

end Excerpt

/-! ## Lines of a source -/

theorem LineScan.length_bounds (size : Nat) (s : LineScan) (offset : Nat) (cs : List Char) :
    (s.bounds size offset cs).length = 1 + cs.count '\n' := by
  induction cs generalizing s offset with
  | nil => rfl
  | cons c rest ih =>
    unfold bounds
    by_cases hc : c = '\n'
    · rw [if_pos hc, List.length_cons, ih, hc, List.count_cons_self]
      omega
    · rw [if_neg hc, ih, List.count_cons_of_ne hc]

/-- A source has one line more than line ends. -/
theorem Source.length_table (s : Source) : s.table.length = 1 + s.text.toList.count '\n' :=
  LineScan.length_bounds ..

theorem Source.length_lines (s : Source) : s.lines.length = 1 + s.text.toList.count '\n' := by
  rw [lines, List.length_map, s.length_table]

/-- A remark about a line that the source has shows that line, with a mark under it. -/
theorem Source.exists_excerpt {s : Source} {line : Nat} (hpos : 1 ≤ line)
    (hle : line ≤ s.lines.length) (col : Nat) (kind text : String) :
    ∃ margin gap, s.message line col kind text =
      "\n--> " ++ s.file ++ ":" ++ toString line ++ ":" ++ toString col ++ "\n" ++ margin ++
        s.line (line - 1) ++ "\n" ++ gap ++ "^\n" ++ kind ++ ": " ++ text := by
  have hguard : ¬(line = 0 || s.lines.length < line) = true := by
    simp
    omega
  unfold Source.message
  rw [if_neg hguard]
  simp only [String.append_assoc]
  exact ⟨_ ++ ("|\n" ++ (_ ++ "| ")), _ ++ ("| " ++ _), by simp only [String.append_assoc]; rfl⟩

/-- The line of a true fault is one of the source. -/
theorem SyntaxError.TrueIn.line_le {text : String} {e : SyntaxError} (h : e.TrueIn text)
    (file : String) : 1 ≤ e.line ∧ e.line ≤ (Source.mk file text).lines.length := by
  obtain ⟨offset, htrue⟩ := h
  have hcount : (charsBefore text offset).count '\n' ≤ text.toList.count '\n' :=
    (isPrefix_takeBytes offset text.toList).sublist.count_le '\n'
  have hline : e.line = lineAt text offset := htrue.line_eq
  unfold lineAt at hline
  rw [Source.length_lines]
  constructor
  · omega
  · simp only
    omega

end TypedTemplate
