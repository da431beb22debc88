import TypedTemplate.SyntaxError

/-!
# Paths

A path refers to data: segments behind the marks that say where to start. `../` leaves the
innermost context, `this` stays in it, and `@` refers to a variable of the iteration.

* `Path`: segments and marks.
* `Path.splitSegments?`: the segments of a text; brackets quote a segment.
* `Path.read`: the path of a word.
-/

namespace TypedTemplate

/-- A reference to data. -/
structure Path where
  span : Span
  /-- The path as it is written. -/
  written : String
  /-- The segments behind the marks; the selector of an identifier is part of the last one. -/
  parts : List String
  /-- How many contexts the path leaves first. -/
  depth : Nat
  /-- The path refers to a variable of the iteration. -/
  data : Bool
  /-- The path starts explicitly at the current context. -/
  this : Bool
  deriving DecidableEq

namespace Path

/-- The path is the current context itself. -/
def isThis (p : Path) : Bool := p.this && p.parts.isEmpty && p.depth = 0 && !p.data

/-- The name of a helper that the path may stand for: one segment without any mark. -/
def simpleName? (p : Path) : Option String :=
  match p.parts with
  | [name] => if !p.this && !p.data && p.depth = 0 then some name else none
  | _ => none

/-! ## Segments -/

/-- The segments of a text, from inside a segment whose characters so far are given in reverse.
Dots and slashes separate segments, except inside brackets, and a bracket opens only at the front
of a segment. A segment without brackets is not empty. -/
def splitFrom? (segment : List Char) (bracketed inside : Bool) :
    List Char → Option (List (List Char))
  | [] => if segment.isEmpty && !bracketed then none else some [segment.reverse]
  | c :: rest =>
    if c = '[' && !inside && segment.isEmpty then splitFrom? segment true true rest
    else if c = ']' && inside then splitFrom? segment bracketed false rest
    else if (c = '.' || c = '/') && !inside then
      if segment.isEmpty && !bracketed then none
      else (splitFrom? [] false false rest).map (segment.reverse :: ·)
    else splitFrom? (c :: segment) bracketed inside rest

/-- The segments of a text. -/
def splitSegments? (cs : List Char) : Option (List String) :=
  (splitFrom? [] false false cs).map fun parts => parts.map String.ofList

/-! ## Marks -/

/-- The number of contexts left at the front, and what follows. -/
def splitParents : List Char → Nat × List Char
  | '.' :: '.' :: '/' :: rest => let (depth, rest) := splitParents rest; (depth + 1, rest)
  | ['.', '.'] => (1, [])
  | cs => (0, cs)

/-- The explicit start at the current context, and what follows. -/
def splitThis : List Char → Bool × List Char
  | ['t', 'h', 'i', 's'] => (true, [])
  | ['.'] => (true, [])
  | 't' :: 'h' :: 'i' :: 's' :: '.' :: rest => (true, rest)
  | 't' :: 'h' :: 'i' :: 's' :: '/' :: rest => (true, rest)
  | '.' :: '/' :: rest => (true, rest)
  | cs => (false, cs)

/-! ## Reading -/

/-- The path of a word. -/
def read (word : Excerpt) : Except SyntaxError Path :=
  let fail (cause : SyntaxError.Cause) := SyntaxError.at' word.start cause
  let path : Path := ⟨word.span, word.text, [], 0, false, false⟩
  if word.chars.contains '|' then .error (fail .blockParameters)
  else
    match word.chars with
    | '@' :: rest =>
      match splitSegments? rest with
      | some parts => .ok { path with data := true, parts }
      | none => .error (fail (.invalidPath word.text))
    | _ =>
      let (depth, rest) := splitParents word.chars
      let (this, rest) := splitThis rest
      if rest.isEmpty then
        if 0 < depth || this then .ok { path with depth, this }
        else .error (fail .emptyPath)
      else
        match splitSegments? rest with
        | some parts => .ok { path with depth, this, parts }
        | none => .error (fail (.invalidPath word.text))

end Path

end TypedTemplate
