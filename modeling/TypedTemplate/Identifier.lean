import TypedTemplate.Literal

/-!
# Identifiers of side data

A path may select one of several side sources of data: its last segment then ends in a colon and
the number of the source.

* `splitIdentifier?`: a name and the number behind its last colon.
* `extractIdentifier`: the segments without the selector, and the number. Earlier segments are
  never inspected.
* `SideTable`: the side sources by number.
-/

namespace TypedTemplate

/-- The text before the last colon and the text behind it. -/
def splitLastColon? (cs : List Char) : Option (List Char × List Char) :=
  match cs.reverse.dropWhile (· ≠ ':') with
  | [] => none
  | _ :: name => some (name.reverse, (cs.reverse.takeWhile (· ≠ ':')).reverse)

/-- The name and the number of a segment with a selector. -/
def splitIdentifier? (segment : String) : Option (String × UInt64) :=
  match splitLastColon? segment.toList with
  | none => none
  | some (name, digits) =>
    if name.isEmpty || !Literal.allDigits digits then none
    else
      let id := Nat.ofDigitChars 10 digits 0
      if id < UInt64.size then some (String.ofList name, UInt64.ofNat id) else none

/-- The segments without the selector of the last one, and its number. -/
def extractIdentifier : List String → List String × Option UInt64
  | [] => ([], none)
  | [last] =>
    match splitIdentifier? last with
    | some (name, id) => ([name], some id)
    | none => ([last], none)
  | segment :: next :: rest =>
    let (cleaned, id) := extractIdentifier (next :: rest)
    (segment :: cleaned, id)

/-- Side sources by number; the first one of a number counts. -/
abbrev SideTable (α : Type) := List (UInt64 × α)

/-- The side source of a number. -/
def SideTable.get? {α : Type} (table : SideTable α) (id : UInt64) : Option α := table.lookup id

end TypedTemplate
