import TypedTemplate.Program.Expression
import TypedTemplate.Program.Whitespace

/-!
# Programs from parts

The parts of a template are taken one at a time; what is kept is the statements of the innermost
body, and the blocks that are open around it.

* `Directive.ofTag`: what a tag asks for, by its first characters.
* `OpenBlock.close`: the statement of a block, where its chain of alternatives ends.
* `Assembly.step`: one part.
* `Program.read`: the program of a template.
-/

namespace TypedTemplate

/-! ## Tags -/

/-- What a tag asks for. -/
inductive Directive where
  /-- The alternative of the innermost block. -/
  | otherwise
  /-- The alternative of the innermost block under a header of its own. -/
  | otherwiseIf (header : Excerpt)
  /-- The end of the innermost block. -/
  | close (name : String)
  /-- A new block. -/
  | opens (header : Excerpt)
  /-- An expression. -/
  | leaf (inner : Excerpt)
  | refused (cause : SyntaxError.Cause)

/-- The header behind the word `else` and at least one blank. -/
def elseHeader? (inner : Excerpt) : Option Excerpt :=
  match dropStart? ['e', 'l', 's', 'e'] (Text.trimEnd inner.chars) with
  | some (c :: _) => if Text.isBlank c then some (inner.drop 4).trimStart else none
  | _ => none

/-- What the inside of a tag asks for. -/
def Directive.ofTag (inside : Excerpt) : Directive :=
  let inner := inside.trimStart
  let text := Text.trimEnd inner.chars
  if text = ['e', 'l', 's', 'e'] || text = ['^'] then .otherwise
  else
    match elseHeader? inner with
    | some header => .otherwiseIf header
    | none =>
      match text with
      | [] => .refused .emptyTag
      | '/' :: name => .close (String.ofList (Text.trim name))
      | '#' :: '*' :: _ => .refused .decoratorBlock
      | '#' :: '>' :: _ => .refused .decoratorBlock
      | '#' :: _ => .opens (inner.drop 1)
      | '>' :: _ => .refused .partialTag
      | '^' :: _ => .refused .inverseSection
      | '*' :: _ => .refused .decoratorTag
      | '&' :: _ => .leaf (inner.drop 1)
      | _ => .leaf inner

/-! ## Open blocks -/

/-- A block whose end is still to come. -/
structure OpenBlock where
  /-- The statements in front of the block, in reverse. -/
  before : List Statement
  /-- The name that the closing tag has to carry. -/
  name : String
  /-- The headers in front of the current one, each with its body, innermost first. -/
  earlier : List (Header × Program)
  /-- The header of the current body. -/
  header : Header
  /-- The body under the header, once the current one is its alternative. -/
  main : Option Program

/-- The statement of a block whose last body is complete. Each earlier header takes what follows it
as its alternative. -/
def OpenBlock.close (b : OpenBlock) (body : Program) : Statement :=
  let last := match b.main with
    | none => b.header.block body none
    | some main => b.header.block main (some body)
  b.earlier.foldl (fun inner link => link.1.block link.2 (some [inner])) last

/-! ## Assembly -/

/-- A program under way. -/
structure Assembly where
  /-- The statements of the innermost body, in reverse. -/
  body : List Statement
  /-- The open blocks, innermost first. -/
  blocks : List OpenBlock

namespace Assembly

/-- Nothing read yet. -/
def start : Assembly := ⟨[], []⟩

/-- The state with one more statement. -/
def push (a : Assembly) (s : Statement) : Assembly := { a with body := s :: a.body }

/-- The state inside a new block. -/
def openBlock (a : Assembly) (header : Header) : Assembly :=
  ⟨[], ⟨a.body, header.kind.name, [], header, none⟩ :: a.blocks⟩

/-- The state after a tag. -/
def stepTag (a : Assembly) (span : Span) (inside : Excerpt) : Except SyntaxError Assembly :=
  match Directive.ofTag inside with
  | .refused cause => .error (SyntaxError.on span cause)
  | .leaf inner => (readExpression span inner).map a.push
  | .opens header => (readHeader span header).map a.openBlock
  | .otherwise =>
    match a.blocks with
    | [] => .error (SyntaxError.on span .elseOutsideBlock)
    | b :: outer =>
      match b.main with
      | some _ => .error (SyntaxError.on span .duplicateElse)
      | none => .ok ⟨[], { b with main := some a.body.reverse } :: outer⟩
  | .otherwiseIf text =>
    match a.blocks with
    | [] => .error (SyntaxError.on text.span .elseOutsideBlock)
    | b :: outer =>
      match b.main with
      | some _ => .error (SyntaxError.on text.span .duplicateElse)
      | none =>
        (readHeader text.span text).map fun header =>
          ⟨[], { b with earlier := (b.header, a.body.reverse) :: b.earlier, header } :: outer⟩
  | .close name =>
    match a.blocks with
    | [] => .error (SyntaxError.on span (.unexpectedClose name))
    | b :: outer =>
      if name = b.name then .ok ⟨b.close a.body.reverse :: b.before, outer⟩
      else .error (SyntaxError.on span (.mismatchedClose name b.name))

/-- The state after one more part. -/
def step (a : Assembly) : Part → Except SyntaxError Assembly
  | .content span text => .ok (a.push (.content span (String.ofList text)))
  | .tag span inner => a.stepTag span inner

/-- The state after a sequence of parts. -/
def run (a : Assembly) (parts : List Part) : Except SyntaxError Assembly := parts.foldlM step a

/-- The program, when no block is open. -/
def finish (a : Assembly) : Except SyntaxError Program :=
  match a.blocks with
  | [] => .ok a.body.reverse
  | b :: _ => .error (SyntaxError.on b.header.span (.unclosedBlock b.name))

end Assembly

/-! ## Templates -/

/-- The program of the text of a template. A fault in cutting the text comes before any other. -/
def readProgram (text : String) : Except SyntaxError Program :=
  match readPieces text with
  | (_, some e) => .error e
  | (pieces, none) =>
    match Assembly.start.run (stripPieces pieces) with
    | .error e => .error e
    | .ok a => a.finish

end TypedTemplate
