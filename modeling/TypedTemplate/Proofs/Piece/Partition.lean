import TypedTemplate.Proofs.Piece.Scanner

/-!
# Pieces partition a template

The pieces of a template that is cut without a fault stand one behind the other, from its first
byte to its last. Each one has its shape where it stands, and the marks it is read with are those
that are written.

* `byteSize`: the size of a text in bytes, by which offsets advance.
* `Tiles`: spans that follow each other without a gap.
* `Excerpt.StandsIn`: an excerpt that is found in a text at its position.
* `CommentMarks`, `TagMarks`: the marks of a comment and of a tag are those that are written.
* `Partition`: what the pieces of a template are to it.
* **`readPieces_partition`**: the pieces of a template that is cut without a fault partition it;
  cutting always comes to an end, and fails only at a tag or comment that is not closed.
-/

namespace TypedTemplate

/-! ## Offsets -/

/-- The size of a text in bytes. -/
def byteSize (cs : List Char) : Nat := (String.ofList cs).utf8ByteSize

theorem byteSize_append (as bs : List Char) : byteSize (as ++ bs) = byteSize as + byteSize bs := by
  unfold byteSize
  rw [String.ofList_append, String.utf8ByteSize_append]

theorem byteSize_singleton (c : Char) : byteSize [c] = c.utf8Size := by
  unfold byteSize
  rw [← String.singleton_eq_ofList, String.utf8ByteSize_singleton]

theorem byteSize_toList (text : String) : byteSize text.toList = text.utf8ByteSize := by
  unfold byteSize
  rw [String.ofList_toList]

/-- A text that is not empty has bytes. -/
theorem byteSize_pos {cs : List Char} (h : cs ≠ []) : 0 < byteSize cs := by
  cases cs with
  | nil => exact absurd rfl h
  | cons c cs =>
    have hsplit := byteSize_append [c] cs
    have hpos := c.utf8Size_pos
    rw [byteSize_singleton] at hsplit
    simp only [List.cons_append, List.nil_append] at hsplit
    omega

theorem Position.offset_next (p : Position) (c : Char) :
    (p.next c).offset = p.offset + c.utf8Size := by
  unfold Position.next
  split <;> rfl

/-- The offset advances by the size of the text. -/
theorem Position.offset_advance (p : Position) (cs : List Char) :
    (p.advance cs).offset = p.offset + byteSize cs := by
  induction cs generalizing p with
  | nil => rfl
  | cons c cs ih =>
    have hsplit := byteSize_append [c] cs
    rw [byteSize_singleton] at hsplit
    calc (p.advance (c :: cs)).offset
        = ((p.next c).advance cs).offset := rfl
      _ = p.offset + c.utf8Size + byteSize cs := by rw [ih, p.offset_next]
      _ = p.offset + byteSize (c :: cs) := by
        simp only [List.cons_append, List.nil_append] at hsplit
        omega

/-! ## Excerpts of a text -/

/-- **Spans that follow each other** without a gap and without an overlap, none of them empty, from
one offset to another. -/
def Tiles : Nat → List Span → Nat → Prop
  | first, [], last => first = last
  | first, span :: spans, last =>
    span.start = first ∧ span.start < span.stop ∧ Tiles span.stop spans last

/-- An excerpt is found in a text at its position. -/
def Excerpt.StandsIn (e : Excerpt) (text : String) : Prop :=
  ∃ before after, text.toList = before ++ e.chars ++ after ∧
    e.start = Position.start.advance before

/-- A piece of plain text. -/
def Piece.IsText (piece : Piece) : Prop := ∃ raw, piece = .text raw

/-- **The marks of a comment** as it is written: how it begins says whether blanks are stripped
before it, and how it ends whether they are after it. -/
structure CommentMarks (strip : Strip) (cs : List Char) : Prop where
  before : strip.before = true ↔ ['{', '{', '~', '!'] <+: cs
  plain : strip.before = false ↔ ['{', '{', '!'] <+: cs
  after : strip.after = true ↔ ['~', '}', '}'] <:+ cs
  closed : ['}', '}'] <:+ cs

/-- **The marks of a tag** around its inside: where the inside stands, and that no mark stands at
its ends where none is read. -/
structure TagMarks (text : String) (l : LocatedPiece) (strip : Strip) (braces : Braces)
    (inner : List Char) : Prop where
  stands : (innerExcerpt l.start strip braces inner).StandsIn text
  opening : (innerExcerpt l.start strip braces inner).span.start =
    l.span.start + byteSize (braces.opening ++ Piece.stripMark strip.before)
  closing : l.span.stop = (innerExcerpt l.start strip braces inner).span.stop +
    byteSize (Piece.stripMark strip.after ++ braces.closing)
  unmarkedFront : strip.before = false → inner.head? ≠ some '~'
  unmarkedBack : strip.after = false → inner.getLast? ≠ some '~'

/-- **The pieces partition a text**: they follow each other from its first byte to its last, and
each has its shape where it stands. -/
structure Partition (text : String) (pieces : List LocatedPiece) : Prop where
  tiles : Tiles 0 (pieces.map LocatedPiece.span) text.utf8ByteSize
  shaped : ∀ l ∈ pieces, ∃ before after, text.toList = before ++ l.piece.chars ++ after ∧
    l.start = Position.start.advance before ∧ l.piece.Shaped after
  apart : ∀ first second, [first, second] <:+: pieces → first.piece.IsText →
    ¬second.piece.IsText
  comments : ∀ l ∈ pieces, ∀ strip long body, l.piece = .comment strip long body →
    CommentMarks strip l.piece.chars
  tags : ∀ l ∈ pieces, ∀ strip braces inner, l.piece = .tag strip braces inner →
    TagMarks text l strip braces inner

/-! ## The pieces of a template -/

/-- Where a piece stops. -/
theorem LocatedPiece.span_stop (l : LocatedPiece) :
    l.span.stop = l.span.start + byteSize l.piece.chars :=
  l.start.offset_advance l.piece.chars

/-- Pieces that make up a text follow each other. -/
theorem Cuts.tiles {cs : List Char} {pieces : List Piece} (h : Cuts cs pieces) (p : Position) :
    Tiles p.offset ((locatePieces p pieces).map LocatedPiece.span) (p.offset + byteSize cs) := by
  induction h generalizing p with
  | nil => rfl
  | @cons piece rest pieces hshaped _ ih =>
    have hstop := (LocatedPiece.mk p piece).span_stop
    have hpos := byteSize_pos hshaped.chars_ne_nil
    have htail := ih (p.advance piece.chars)
    rw [p.offset_advance, Nat.add_assoc, ← byteSize_append] at htail
    refine ⟨rfl, ?_, ?_⟩
    · rw [hstop]
      exact Nat.lt_add_of_pos_right hpos
    · rw [hstop]
      exact htail

/-- Pieces that make up the rest of a text stand in it where they are located. -/
theorem Cuts.shaped {cs : List Char} {pieces : List Piece} (h : Cuts cs pieces)
    (front : List Char) {l : LocatedPiece}
    (hl : l ∈ locatePieces (Position.start.advance front) pieces) :
    ∃ before after, front ++ cs = before ++ l.piece.chars ++ after ∧
      l.start = Position.start.advance before ∧ l.piece.Shaped after := by
  induction h generalizing front with
  | nil => cases hl
  | @cons piece rest pieces hshaped _ ih =>
    rw [locatePieces] at hl
    rcases List.mem_cons.mp hl with rfl | htail
    · exact ⟨front, rest, by simp, rfl, hshaped⟩
    · rw [← Position.advance_append] at htail
      obtain ⟨before, after, hcs, hstart, hpiece⟩ := ih (front ++ piece.chars) htail
      exact ⟨before, after, by rw [← hcs]; simp, hstart, hpiece⟩

theorem map_piece_locatePieces (p : Position) (pieces : List Piece) :
    (locatePieces p pieces).map LocatedPiece.piece = pieces := by
  induction pieces generalizing p with
  | nil => rfl
  | cons piece pieces ih => rw [locatePieces, List.map_cons, ih]

/-- Among pieces that make up a text, no plain text follows plain text. -/
theorem Cuts.apart {cs : List Char} {pieces : List Piece} (h : Cuts cs pieces)
    {first second : Piece} (hadjacent : [first, second] <:+: pieces) (hfirst : first.IsText) :
    ¬second.IsText := by
  induction h with
  | nil => simp at hadjacent
  | @cons piece rest pieces hshaped hcuts ih =>
    rcases List.infix_cons_iff.mp hadjacent with hfront | hlater
    · rintro ⟨raw, rfl⟩
      obtain ⟨raw', rfl⟩ := hfirst
      obtain ⟨more, hmore⟩ := hfront
      obtain ⟨rfl, rfl⟩ := List.cons.inj hmore
      exact (hcuts.cons hshaped).not_text_text
    · exact ih hlater

/-- What stands in front of two closing braces is a mark if and only if the text ends with a
marked end. -/
theorem marked_suffix_iff (cs : List Char) :
    ['~', '}', '}'] <:+ cs ++ ['}', '}'] ↔ cs.getLast? = some '~' := by
  rw [← List.reverse_prefix, List.getLast?_eq_head?_reverse, List.reverse_append]
  generalize cs.reverse = back
  cases back with
  | nil => simp
  | cons c rest => simp [eq_comm]

/-- A comment of its shape is written with the marks it is read with. -/
theorem Piece.Shaped.commentMarks {strip : Strip} {long : Bool} {body after : List Char}
    (h : (Piece.comment strip long body).Shaped after) :
    CommentMarks strip (Piece.comment strip long body).chars := by
  obtain ⟨stripBefore, stripAfter⟩ := strip
  cases h with
  | comment hshort hwithin =>
    refine ⟨?_, ?_, ?_, ?_⟩
    · cases stripBefore <;> simp [Piece.chars, Piece.stripMark]
    · cases stripBefore <;> simp [Piece.chars, Piece.stripMark]
    · have hends : (Piece.comment ⟨stripBefore, stripAfter⟩ long body).chars =
          ['{', '{'] ++ Piece.stripMark stripBefore ++ ['!'] ++ Piece.dashes long ++ body ++
            Piece.dashes long ++ Piece.stripMark stripAfter ++ ['}', '}'] := rfl
      rw [hends, marked_suffix_iff]
      simp only [List.getLast?_append]
      cases stripAfter with
      | true => simp [Piece.stripMark]
      | false =>
        cases long with
        | true => simp [Piece.stripMark, Piece.dashes]
        | false =>
          -- The body is all that could bring a mark in front of the end of a short comment.
          have hbody := hwithin.getLast?_ne ⟨after, by
            simp [commentEnd, Piece.dashes, Piece.stripMark]⟩
          simp only [Bool.false_eq_true, false_iff]
          cases hlast : body.getLast? with
          | none => simp [Piece.stripMark, Piece.dashes]
          | some c =>
            rw [hlast] at hbody
            simpa [Piece.stripMark, Piece.dashes] using hbody
    · exact ⟨_, rfl⟩

/-- A tag of its shape has the marks it is read with around its inside. -/
theorem tagMarks_of_shaped {text : String} {l : LocatedPiece} {strip : Strip} {braces : Braces}
    {inner before after : List Char} (hl : l.piece = .tag strip braces inner)
    (htext : text.toList = before ++ l.piece.chars ++ after)
    (hstart : l.start = Position.start.advance before) (hshaped : l.piece.Shaped after) :
    TagMarks text l strip braces inner := by
  have hchars : l.piece.chars = (braces.opening ++ Piece.stripMark strip.before) ++ inner ++
      (Piece.stripMark strip.after ++ braces.closing) := by
    rw [hl]
    simp [Piece.chars]
  have hopening : (innerExcerpt l.start strip braces inner).start.offset =
      l.start.offset + byteSize (braces.opening ++ Piece.stripMark strip.before) :=
    l.start.offset_advance _
  have hinner : (innerExcerpt l.start strip braces inner).span.stop =
      (innerExcerpt l.start strip braces inner).start.offset + byteSize inner :=
    Position.offset_advance _ inner
  rw [hl] at hshaped
  cases hshaped with
  | tag hdouble hunmarked hcomment hinside =>
    refine ⟨⟨before ++ (braces.opening ++ Piece.stripMark strip.before),
      Piece.stripMark strip.after ++ braces.closing ++ after, ?_, ?_⟩, hopening, ?_, ?_, ?_⟩
    · rw [htext, hchars]
      simp [innerExcerpt]
    · rw [Position.advance_append, ← hstart]
      rfl
    · rw [l.span_stop, hinner, hopening, hchars, byteSize_append, byteSize_append]
      simp only [LocatedPiece.span, LocatedPiece.whole, Excerpt.span]
      omega
    · intro hbefore hhead
      obtain ⟨rest, rfl⟩ := List.head?_eq_some_iff.mp hhead
      exact hunmarked hbefore (by simp)
    · intro hafter
      refine hinside.getLast?_ne ⟨after, ?_⟩
      simp [tagEnd, hafter, Piece.stripMark]

/-- Pieces that make up a text partition it. -/
theorem Cuts.partition {text : String} {pieces : List Piece} (h : Cuts text.toList pieces) :
    Partition text (locatePieces .start pieces) where
  tiles := by
    have htiles := h.tiles .start
    rw [byteSize_toList] at htiles
    simpa [Position.start] using htiles
  shaped l hl := by simpa using h.shaped [] hl
  apart first second hadjacent := by
    have hpieces := hadjacent.map LocatedPiece.piece
    rw [map_piece_locatePieces] at hpieces
    exact h.apart hpieces
  comments l hl strip long body hpiece := by
    obtain ⟨before, after, -, -, hshaped⟩ := h.shaped [] hl
    rw [hpiece] at hshaped ⊢
    exact hshaped.commentMarks
  tags l hl strip braces inner hpiece := by
    obtain ⟨before, after, htext, hstart, hshaped⟩ := h.shaped [] hl
    exact tagMarks_of_shaped hpiece (by simpa using htext) hstart hshaped

/-! ## Every template -/

/-- **What one call of the scanner comes to**: the end of the text; a piece of its shape, and less
of the text; or a tag or comment that is not closed. -/
inductive CallOutcome (cs : List Char) : Prop where
  | done (call : nextPiece? cs = .ok none) (finished : cs = [])
  | piece {piece : Piece} {rest : List Char} (call : nextPiece? cs = .ok (some (piece, rest)))
    (consumed : cs = piece.chars ++ rest) (less : rest.length < cs.length)
    (shaped : piece.Shaped rest)
  | fault {cause : SyntaxError.Cause} (call : nextPiece? cs = .error cause)
    (unterminated : cause = .unterminatedTag ∨ cause = .unterminatedComment)
    (unclosed : ∀ piece rest, cs = piece.chars ++ rest → ¬Piece.Shaped rest piece)

theorem callOutcome (cs : List Char) : CallOutcome cs := by
  cases hcall : nextPiece? cs with
  | error cause =>
    obtain ⟨hcause, -, hunclosed⟩ := nextPiece?_eq_error hcall
    exact .fault hcall hcause hunclosed
  | ok found =>
    cases found with
    | none => exact .done hcall (nextPiece?_eq_none_iff.mp hcall)
    | some found =>
      obtain ⟨piece, rest⟩ := found
      obtain ⟨hconsumed, hshaped⟩ := nextPiece?_eq_some_iff.mp hcall
      exact .piece hcall hconsumed (length_lt_of_nextPiece? hcall) hshaped

/-- The calls on a text fail only at a tag or comment that is not closed. -/
theorem Scans.unterminated {cs : List Char} {pieces : List Piece} {fault : PieceFault}
    (h : Scans cs pieces (some fault)) :
    fault.cause = .unterminatedTag ∨ fault.cause = .unterminatedComment := by
  generalize hfault : some fault = outcome at h
  induction h with
  | done => cases hfault
  | stuck call =>
    cases hfault
    exact (nextPiece?_eq_error call).1
  | more _ _ ih => exact ih hfault

/-- **Cutting a template loses and repeats nothing.** On every text the calls of the scanner come
to an end, each of them at the end of the text, with a piece and less of the text, or with a tag or
comment that is not closed. If none of them fails, the pieces partition the text. -/
theorem readPieces_partition (text : String) :
    (∀ cs, CallOutcome cs) ∧
    (∃ pieces fault, Scans text.toList pieces fault ∧
      readPieces text = (locatePieces .start pieces, fault.map fun f =>
        SyntaxError.at' (Position.start.advance (pieces.flatMap Piece.chars)) f.cause)) ∧
    (∀ e, (readPieces text).2 = some e →
      e.cause = .unterminatedTag ∨ e.cause = .unterminatedComment) ∧
    (∀ pieces, readPieces text = (pieces, none) → Partition text pieces) := by
  have hscans := scans_cutPieces text.toList
  refine ⟨callOutcome, ⟨_, _, hscans, rfl⟩, ?_, ?_⟩
  · intro e he
    obtain ⟨fault, hfault, rfl⟩ := Option.map_eq_some_iff.mp he
    rw [hfault] at hscans
    exact hscans.unterminated
  · intro pieces hread
    obtain ⟨hpieces, hfault⟩ := Prod.mk.inj hread
    have hnone : (cutPieces text.toList).2 = none := Option.map_eq_none_iff.mp hfault
    rw [← hpieces]
    exact (cuts_of_scans hscans hnone).partition

/-- A text with an escape, a tag with quoted braces, and a comment of either length. -/
def mixedText : String :=
  "a \\\x7b\x7bb\x7d\x7d" ++
  "\x7b\x7b\x7b~ x '\x7d\x7d\x7d' ~\x7d\x7d\x7d" ++
  "\x7b\x7b! c \x7d\x7d" ++
  "\x7b\x7b~!-- \x7d\x7d --~\x7d\x7d"

theorem mixedText_partition :
    ((readPieces mixedText).2 = none ∧ (readPieces mixedText).1.length = 4) ∧
      Partition mixedText (readPieces mixedText).1 := by
  have hread : (readPieces mixedText).2 = none ∧ (readPieces mixedText).1.length = 4 := by
    decide +kernel
  exact ⟨hread, (readPieces_partition mixedText).2.2.2 _ (Prod.ext rfl hread.1)⟩

end TypedTemplate
