import TypedTemplate.Text.Quoted

/-!
# Positions and spans

A position counts lines and columns in characters, from one, and its offset in bytes of UTF-8.
Nothing scans and counts at once: text is cut into pieces first, and positions are found by
advancing over what has been cut.

* `Position.advance`: the position behind a text.
* `Span`: where a text stands, by its start and the offsets of its ends.
* `Excerpt`: a text together with the position of its first character.
-/

namespace TypedTemplate

/-- A place in a text. -/
structure Position where
  line : Nat
  col : Nat
  offset : Nat
  deriving DecidableEq

namespace Position

/-- The front of a text. -/
def start : Position := ⟨1, 1, 0⟩

/-- The position behind one character. -/
def next (p : Position) (c : Char) : Position :=
  if c = '\n' then ⟨p.line + 1, 1, p.offset + c.utf8Size⟩
  else ⟨p.line, p.col + 1, p.offset + c.utf8Size⟩

/-- The position behind a text. -/
def advance (p : Position) (cs : List Char) : Position := cs.foldl next p

/-- Advancing over two texts is advancing over the first and then the second. -/
theorem advance_append (p : Position) (as bs : List Char) :
    p.advance (as ++ bs) = (p.advance as).advance bs := List.foldl_append

end Position

/-- Where a text stands: line and column of its start, and the offsets of both ends. -/
structure Span where
  line : Nat
  col : Nat
  start : Nat
  stop : Nat
  deriving DecidableEq

/-- A text and the position of its first character. -/
structure Excerpt where
  start : Position
  chars : List Char
  deriving DecidableEq

namespace Excerpt

/-- The text as a string. -/
def text (e : Excerpt) : String := String.ofList e.chars

/-- The span of the text. -/
def span (e : Excerpt) : Span :=
  ⟨e.start.line, e.start.col, e.start.offset, (e.start.advance e.chars).offset⟩

/-- The excerpt without its first characters. -/
def drop (e : Excerpt) (count : Nat) : Excerpt :=
  ⟨e.start.advance (e.chars.take count), e.chars.drop count⟩

/-- The excerpt without the blanks it starts with. -/
def trimStart (e : Excerpt) : Excerpt := e.drop (e.chars.takeWhile Text.isBlank).length

/-- Leaving blanks out at the front is moving behind them. -/
theorem trimStart_eq (e : Excerpt) :
    e.trimStart = ⟨e.start.advance (e.chars.takeWhile Text.isBlank), Text.trimStart e.chars⟩ := by
  have hsplit := Text.eq_append_trimStart e.chars
  have htake : e.chars.take (e.chars.takeWhile Text.isBlank).length =
      e.chars.takeWhile Text.isBlank := by
    conv => lhs; arg 2; rw [hsplit]
    exact List.take_left
  have hdrop : e.chars.drop (e.chars.takeWhile Text.isBlank).length =
      Text.trimStart e.chars := by
    conv => lhs; arg 2; rw [hsplit]
    exact List.drop_left
  unfold trimStart drop
  rw [htake, hdrop]

/-- An excerpt that starts with no blank is left as it is. -/
theorem trimStart_cons {p : Position} {c : Char} {rest : List Char}
    (h : Text.isBlank c = false) :
    trimStart ⟨p, c :: rest⟩ = ⟨p, c :: rest⟩ := by
  have hnot : ¬Text.isBlank c = true := by simp [h]
  rw [trimStart_eq, Text.trimStart, List.takeWhile_cons_of_neg hnot,
    List.dropWhile_cons_of_neg hnot]
  rfl

/-- The length of an excerpt up to which it is shown whole. -/
def shownLength : Nat := 32

/-- The excerpt on one line: where it stands, and its text, cut off when it is long. -/
def shown (e : Excerpt) : String :=
  let escaped := Text.escaped e.chars
  let size := escaped.foldl (fun n c => n + c.utf8Size) 0
  let text :=
    if shownLength < size then String.ofList (escaped.take shownLength) ++ "..."
    else String.ofList escaped
  let s := e.span
  toString s.line ++ ":" ++ toString s.col ++ ":" ++ toString s.start ++ ":" ++ toString s.stop ++
    ", \"" ++ text ++ "\""

end Excerpt

end TypedTemplate
