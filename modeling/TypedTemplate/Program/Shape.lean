import TypedTemplate.Program.Basic

/-!
# The shape of a program

Blank text around a program changes nothing about what it is in effect. The shape decides how a
program is executed, and whether it can produce anything but text.

* `significant`: the statements other than blank text.
* `singleExpression?`, `singleBlock?`: the only significant statement, where it is one.
* `isConcatenation`: text and references only.
* `pureText?`: the text of a program that has nothing else.
-/

namespace TypedTemplate

namespace Statement

/-- Text with nothing but blanks. -/
def isBlank : Statement → Bool
  | .content _ text => (Text.trim text.toList).isEmpty
  | _ => false

/-- A block that chooses between its bodies by the truth of its target. -/
def isConditional : Statement → Bool
  | .block _ .whenTrue _ _ _ _ => true
  | .block _ .whenFalse _ _ _ _ => true
  | _ => false

/-- Text, or a reference that calls no helper. -/
def isPlain : Statement → Bool
  | .content _ _ => true
  | .expression _ head params hash => !isHelperCall head params hash
  | .block _ _ _ _ _ _ => false

end Statement

namespace Program

/-- The statements other than blank text. -/
def significant (p : Program) : List Statement := p.filter fun s => !s.isBlank

/-- The only significant statement, where it is an expression. -/
def singleExpression? (p : Program) : Option Statement :=
  match significant p with
  | [.expression span head params hash] => some (.expression span head params hash)
  | _ => none

/-- The only significant statement, where it is a block. -/
def singleBlock? (p : Program) : Option Statement :=
  match significant p with
  | [.block span kind params hash program inverse] =>
    some (.block span kind params hash program inverse)
  | _ => none

/-- Text and references only. -/
def isConcatenation (p : Program) : Bool := p.all Statement.isPlain

/-- The text of a program that has nothing else. -/
def pureText? : Program → Option (List Char)
  | [] => some []
  | .content _ text :: rest => (pureText? rest).map (text.toList ++ ·)
  | _ :: _ => none

end Program

end TypedTemplate
