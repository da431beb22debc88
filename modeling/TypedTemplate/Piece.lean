import TypedTemplate.SyntaxError

/-!
# Pieces of a template

The text of a template is cut into plain text, comments and tags. A piece keeps what it was written
with, so that the pieces one after the other make up the template.

* `Piece.chars`: the text of a piece as it was written.
* `cutPieces`: the pieces of a template, and the fault that ends them early, if any.
* `flatMap_chars_cutPieces`: the pieces, and what a fault leaves, make up the template.
* `readPieces`: the pieces with their positions.
-/

namespace TypedTemplate

/-! ## Pieces -/

/-- Whether blanks are stripped before and after a tag. -/
structure Strip where
  before : Bool
  after : Bool
  deriving DecidableEq

/-- How many braces a tag is written with on either side. -/
inductive Braces where
  | double
  | triple
  deriving DecidableEq

/-- The opening braces. -/
def Braces.opening : Braces → List Char
  | .double => ['{', '{']
  | .triple => ['{', '{', '{']

/-- The closing braces. -/
def Braces.closing : Braces → List Char
  | .double => ['}', '}']
  | .triple => ['}', '}', '}']

theorem Braces.two_le_length_opening (b : Braces) : 2 ≤ b.opening.length := by
  cases b <;> decide

theorem Braces.two_le_length_closing (b : Braces) : 2 ≤ b.closing.length := by
  cases b <;> decide

/-- How many braces there are. -/
def Braces.count : Braces → Nat
  | .double => 2
  | .triple => 3

/-- A part of a template. -/
inductive Piece where
  | text (raw : List Char)
  /-- A comment; a long one is set off by dashes, and may hold closing braces. -/
  | comment (strip : Strip) (long : Bool) (body : List Char)
  | tag (strip : Strip) (braces : Braces) (inner : List Char)
  deriving DecidableEq

namespace Piece

/-- The mark for stripping blanks, where it is set. -/
def stripMark (set : Bool) : List Char := if set then ['~'] else []

/-- The dashes of a comment, where it is a long one. -/
def dashes (long : Bool) : List Char := if long then ['-', '-'] else []

/-- The text of a piece as it was written. -/
def chars : Piece → List Char
  | .text raw => raw
  | .comment strip long body =>
    ['{', '{'] ++ stripMark strip.before ++ ['!'] ++ dashes long ++ body ++ dashes long ++
      stripMark strip.after ++ ['}', '}']
  | .tag strip braces inner =>
    braces.opening ++ stripMark strip.before ++ inner ++ stripMark strip.after ++ braces.closing

end Piece

/-! ## Plain text -/

/-- Plain text with the backslashes removed that keep braces from opening a tag. -/
def unescapeBraces : List Char → List Char
  | '\\' :: '{' :: '{' :: rest => '{' :: '{' :: unescapeBraces rest
  | c :: rest => c :: unescapeBraces rest
  | [] => []

/-- The plain text at the front of a template, and what follows it. Braces behind a backslash
belong to it. -/
def spanText : List Char → List Char × List Char
  | [] => ([], [])
  | '{' :: '{' :: rest => ([], '{' :: '{' :: rest)
  | '\\' :: '{' :: '{' :: rest =>
    let (raw, rest) := spanText rest
    ('\\' :: '{' :: '{' :: raw, rest)
  | c :: rest =>
    let (raw, rest) := spanText rest
    (c :: raw, rest)

/-! ## Tags and comments -/

/-- The text behind a given beginning. -/
def dropStart? : List Char → List Char → Option (List Char)
  | [], cs => some cs
  | _ :: _, [] => none
  | p :: ps, c :: cs => if p = c then dropStart? ps cs else none

/-- The end of a tag at the front of a text: whether blanks are stripped after it, and what
follows it. -/
def closing? (close cs : List Char) : Option (Bool × List Char) :=
  match dropStart? ('~' :: close) cs with
  | some rest => some (true, rest)
  | none => (dropStart? close cs).map fun rest => (false, rest)

/-- The inside of a tag up to the first end that is not inside quotes, whether blanks are stripped
after the tag, and what follows it. Inside quotes a backslash keeps the next character from ending
them. -/
def spanTag? (close : List Char) (quote : Option Char) :
    List Char → Option (List Char × Bool × List Char)
  | [] => none
  | c :: rest =>
    match quote with
    | some q =>
      if c = '\\' then
        match rest with
        | [] => none
        | d :: rest =>
          (spanTag? close quote rest).map fun r => (c :: d :: r.1, r.2.1, r.2.2)
      else
        (spanTag? close (if c = q then none else quote) rest).map fun r => (c :: r.1, r.2.1, r.2.2)
    | none =>
      if c = '"' || c = '\'' then
        (spanTag? close (some c) rest).map fun r => (c :: r.1, r.2.1, r.2.2)
      else
        match closing? close (c :: rest) with
        | some (after, rest) => some ([], after, rest)
        | none => (spanTag? close none rest).map fun r => (c :: r.1, r.2.1, r.2.2)

/-- The body of a comment up to its first end, whether blanks are stripped after it, and what
follows it. -/
def spanComment? (long : Bool) : List Char → Option (List Char × Bool × List Char)
  | [] => none
  | c :: rest =>
    match (dropStart? (Piece.dashes long) (c :: rest)).bind (closing? ['}', '}']) with
    | some (after, rest) => some ([], after, rest)
    | none => (spanComment? long rest).map fun r => (c :: r.1, r.2.1, r.2.2)

/-- Whether a third brace follows two opening ones, and what follows it. -/
def splitThird : List Char → Braces × List Char
  | '{' :: rest => (.triple, rest)
  | cs => (.double, cs)

/-- Whether the mark for stripping blanks is at the front, and what follows it. -/
def splitMark : List Char → Bool × List Char
  | '~' :: rest => (true, rest)
  | cs => (false, cs)

/-- Whether the dashes of a long comment are at the front, and what follows them. -/
def splitDashes : List Char → Bool × List Char
  | '-' :: '-' :: rest => (true, rest)
  | cs => (false, cs)

/-- The comment whose exclamation mark is behind, and what follows it. -/
def spanCommentPiece? (before : Bool) (cs : List Char) :
    Except SyntaxError.Cause (Piece × List Char) :=
  let (long, cs) := splitDashes cs
  match spanComment? long cs with
  | some (body, after, rest) => .ok (.comment ⟨before, after⟩ long body, rest)
  | none => .error .unterminatedComment

/-- The tag whose opening is behind, and what follows it. -/
def spanTagPiece? (before : Bool) (braces : Braces) (cs : List Char) :
    Except SyntaxError.Cause (Piece × List Char) :=
  match spanTag? braces.closing none cs with
  | some (inner, after, rest) => .ok (.tag ⟨before, after⟩ braces inner, rest)
  | none => .error .unterminatedTag

/-- The tag or comment behind two opening braces, and what follows it. -/
def spanBraces? (cs : List Char) : Except SyntaxError.Cause (Piece × List Char) :=
  let (braces, cs) := splitThird cs
  let (before, cs) := splitMark cs
  match braces, cs with
  | .double, '!' :: rest => spanCommentPiece? before rest
  | braces, cs => spanTagPiece? before braces cs

/-! ## Cutting is exact -/

theorem spanText_append (cs : List Char) : (spanText cs).1 ++ (spanText cs).2 = cs := by
  fun_induction spanText cs <;> simp_all

theorem eq_append_of_dropStart? {start cs rest : List Char} (h : dropStart? start cs = some rest) :
    cs = start ++ rest := by
  induction start generalizing cs with
  | nil => simpa [dropStart?] using h
  | cons p ps ih =>
    cases cs with
    | nil => simp [dropStart?] at h
    | cons c cs =>
      simp only [dropStart?] at h
      split at h
      · next hp => rw [ih h, hp]; rfl
      · cases h

theorem eq_append_of_closing? {close cs rest : List Char} {after : Bool}
    (h : closing? close cs = some (after, rest)) :
    cs = Piece.stripMark after ++ close ++ rest := by
  unfold closing? at h
  split at h
  · next h' =>
    cases h
    simpa [Piece.stripMark] using eq_append_of_dropStart? h'
  · obtain ⟨r, hr, he⟩ := Option.map_eq_some_iff.mp h
    cases he
    simpa [Piece.stripMark] using eq_append_of_dropStart? hr

theorem eq_append_of_spanTag? {close cs inner rest : List Char} {quote : Option Char}
    {after : Bool} (h : spanTag? close quote cs = some (inner, after, rest)) :
    cs = inner ++ Piece.stripMark after ++ close ++ rest := by
  fun_induction spanTag? close quote cs generalizing inner after rest with
  | case1 => cases h
  | case2 => cases h
  | case3 _ _ _ ih =>
    obtain ⟨⟨i, a, r⟩, hr, he⟩ := Option.map_eq_some_iff.mp h
    cases he
    simpa using ih hr
  | case4 _ _ _ _ ih =>
    obtain ⟨⟨i, a, r⟩, hr, he⟩ := Option.map_eq_some_iff.mp h
    cases he
    simpa using ih hr
  | case5 _ _ _ ih =>
    obtain ⟨⟨i, a, r⟩, hr, he⟩ := Option.map_eq_some_iff.mp h
    cases he
    simpa using ih hr
  | case6 _ _ _ _ _ hc =>
    cases h
    simpa using eq_append_of_closing? hc
  | case7 _ _ _ _ ih =>
    obtain ⟨⟨i, a, r⟩, hr, he⟩ := Option.map_eq_some_iff.mp h
    cases he
    simpa using ih hr

theorem eq_append_of_spanComment? {long : Bool} {cs body rest : List Char} {after : Bool}
    (h : spanComment? long cs = some (body, after, rest)) :
    cs = body ++ Piece.dashes long ++ Piece.stripMark after ++ ['}', '}'] ++ rest := by
  fun_induction spanComment? long cs generalizing body after rest with
  | case1 => cases h
  | case2 _ _ _ _ hc =>
    cases h
    obtain ⟨r, hr, he⟩ := Option.bind_eq_some_iff.mp hc
    rw [eq_append_of_dropStart? hr, eq_append_of_closing? he]
    simp
  | case3 _ _ _ ih =>
    obtain ⟨⟨i, a, r⟩, hr, he⟩ := Option.map_eq_some_iff.mp h
    cases he
    simpa using ih hr

theorem eq_append_splitThird (cs : List Char) :
    '{' :: '{' :: cs = (splitThird cs).1.opening ++ (splitThird cs).2 := by
  unfold splitThird
  split <;> rfl

theorem eq_append_splitMark (cs : List Char) :
    cs = Piece.stripMark (splitMark cs).1 ++ (splitMark cs).2 := by
  unfold splitMark
  split <;> rfl

theorem eq_append_splitDashes (cs : List Char) :
    cs = Piece.dashes (splitDashes cs).1 ++ (splitDashes cs).2 := by
  unfold splitDashes
  split <;> rfl

/-- A tag or comment, and what follows it, make up the text. -/
theorem eq_append_of_spanBraces? {cs rest : List Char} {piece : Piece}
    (h : spanBraces? cs = .ok (piece, rest)) : '{' :: '{' :: cs = piece.chars ++ rest := by
  rw [eq_append_splitThird cs]
  unfold spanBraces? at h
  generalize splitThird cs = third at h ⊢
  obtain ⟨braces, cs⟩ := third
  simp only at h ⊢
  rw [eq_append_splitMark cs]
  generalize splitMark cs = mark at h ⊢
  obtain ⟨before, cs⟩ := mark
  simp only at h ⊢
  split at h
  · next body =>
    unfold spanCommentPiece? at h
    simp only at h
    split at h
    · next hc =>
      cases h
      have hd := eq_append_splitDashes body
      generalize splitDashes body = dashed at hc hd
      rw [hd, eq_append_of_spanComment? hc]
      simp [Piece.chars, Braces.opening]
    · cases h
  · unfold spanTagPiece? at h
    split at h
    · next ht =>
      cases h
      rw [eq_append_of_spanTag? ht]
      simp [Piece.chars]
    · cases h

/-- A piece is not empty. -/
theorem length_lt_of_spanBraces? {cs rest : List Char} {piece : Piece}
    (h : spanBraces? cs = .ok (piece, rest)) : rest.length < cs.length + 2 := by
  have hlen := congrArg List.length (eq_append_of_spanBraces? h)
  have hpos : 4 ≤ piece.chars.length := by
    unfold spanBraces? at h
    simp only at h
    split at h
    · unfold spanCommentPiece? at h
      simp only at h
      split at h
      · cases h; simp [Piece.chars]; omega
      · cases h
    · unfold spanTagPiece? at h
      split at h
      · cases h
        have hopen := (splitThird cs).1.two_le_length_opening
        have hclose := (splitThird cs).1.two_le_length_closing
        simp only [Piece.chars, List.length_append]
        omega
      · cases h
  simp only [List.length_cons, List.length_append] at hlen
  omega

/-- Plain text does not grow. -/
theorem length_spanText_le (cs : List Char) : (spanText cs).2.length ≤ cs.length := by
  conv => rhs; rw [← spanText_append cs]
  simp

/-! ## All pieces -/

/-- A fault, and the text from it on. -/
structure PieceFault where
  cause : SyntaxError.Cause
  rest : List Char

/-- The pieces of a template, and the fault that ends them early, if any. -/
def cutPieces (cs : List Char) : List Piece × Option PieceFault :=
  match cs with
  | [] => ([], none)
  | '{' :: '{' :: rest =>
    match _h : spanBraces? rest with
    | .error cause => ([], some ⟨cause, '{' :: '{' :: rest⟩)
    | .ok (piece, after) =>
      let (pieces, fault) := cutPieces after
      (piece :: pieces, fault)
  | '\\' :: '{' :: '{' :: rest =>
    let (pieces, fault) := cutPieces (spanText rest).2
    (.text ('\\' :: '{' :: '{' :: (spanText rest).1) :: pieces, fault)
  | c :: rest =>
    let (pieces, fault) := cutPieces (spanText rest).2
    (.text (c :: (spanText rest).1) :: pieces, fault)
termination_by cs.length
decreasing_by
  · exact length_lt_of_spanBraces? (by assumption)
  · have := length_spanText_le rest
    simp only [List.length_cons]
    omega
  · have := length_spanText_le rest
    simp only [List.length_cons]
    omega

/-- What a fault leaves of the text. -/
def PieceFault.unread : Option PieceFault → List Char
  | none => []
  | some fault => fault.rest

/-- The pieces, and what a fault leaves, make up the template. -/
theorem flatMap_chars_cutPieces (cs : List Char) :
    (cutPieces cs).1.flatMap Piece.chars ++ PieceFault.unread (cutPieces cs).2 = cs := by
  fun_induction cutPieces cs with
  | case1 => rfl
  | case2 => simp [PieceFault.unread]
  | case3 rest piece after h pieces fault hr ih =>
    rw [hr] at ih
    rw [eq_append_of_spanBraces? h]
    simpa using ih
  | case4 rest pieces fault hr ih =>
    rw [hr] at ih
    conv => rhs; rw [← spanText_append rest]
    simpa [Piece.chars] using ih
  | case5 c rest _ _ pieces fault hr ih =>
    rw [hr] at ih
    conv => rhs; rw [← spanText_append rest]
    simpa [Piece.chars] using ih

/-! ## Positions -/

/-- A piece and where it starts. -/
structure LocatedPiece where
  start : Position
  piece : Piece
  deriving DecidableEq

/-- Pieces with their positions, the first one at a given place. -/
def locatePieces (p : Position) : List Piece → List LocatedPiece
  | [] => []
  | piece :: rest => ⟨p, piece⟩ :: locatePieces (p.advance piece.chars) rest

namespace LocatedPiece

/-- The piece as it was written. -/
def whole (l : LocatedPiece) : Excerpt := ⟨l.start, l.piece.chars⟩

/-- The span of the piece. -/
def span (l : LocatedPiece) : Span := l.whole.span

end LocatedPiece

/-- The inside of a tag that starts at a given place. -/
def innerExcerpt (start : Position) (strip : Strip) (braces : Braces) (inner : List Char) :
    Excerpt :=
  ⟨start.advance (braces.opening ++ Piece.stripMark strip.before), inner⟩

/-- The located pieces of a template, or those before a fault and the fault. -/
def readPieces (text : String) : List LocatedPiece × Option SyntaxError :=
  let (pieces, fault) := cutPieces text.toList
  let located := locatePieces .start pieces
  let stop := Position.start.advance (pieces.flatMap Piece.chars)
  (located, fault.map fun f => SyntaxError.at' stop f.cause)

end TypedTemplate
