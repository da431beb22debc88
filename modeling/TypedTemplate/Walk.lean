import TypedTemplate.Schema.Types

/-!
# Walking along segments

A path names a place in data by segments: a property, an index, or the place one is at. The same
segments lead through the schema of the data.

* `Value.step?`, `Value.walk?`: through data; nothing is found where something is missing.
* `Schema.step?`, `Schema.walk`: through a schema; a `Miss` says which segment failed, and what
  could have stood in its place.
* `foldlM_step?_append`, `Schema.walkFrom_append`: walking along more segments is walking on.
-/

namespace TypedTemplate

/-! ## Segments -/

/-- The segment stays at the place one is at. -/
def isSelfSegment (segment : String) : Bool := segment = "this" || segment = "."

/-- The segment is an index: digits, and at least one. -/
def isIndexSegment (segment : String) : Bool := Literal.allDigits segment.toList

/-- The number that an index segment spells. -/
def indexOfSegment (segment : String) : Nat := Nat.ofDigitChars 10 segment.toList 0

/-! ## Data -/

/-- The place one segment further. -/
def Value.step? (v : Value) (segment : String) : Option Value :=
  if isSelfSegment segment then some v
  else
    match v with
    | .object members => Dict.get? segment members
    | .array items => if isIndexSegment segment then items[indexOfSegment segment]? else none
    | _ => none

/-- The value at the end of the segments; `undefined` there counts as missing. -/
def Value.walk? (v : Value) (segments : List String) : Option Value :=
  match segments.foldlM Value.step? v with
  | some w => if w.isUndefined then none else some w
  | none => none

/-- Walking along two lists of segments is walking along the first and then the second. -/
theorem foldlM_step?_append (v : Value) (p q : List String) :
    (p ++ q).foldlM Value.step? v = (p.foldlM Value.step? v).bind (q.foldlM Value.step?) :=
  List.foldlM_append

/-! ## Schemas -/

/-- A segment that a schema does not lead along. -/
structure Miss where
  /-- The position of the segment. -/
  index : Nat
  segment : String
  /-- The properties that could have stood there. -/
  available : List String
  deriving DecidableEq

/-- The schema one segment further: a property, or the elements of an array. -/
def Schema.step? (s : Schema) (segment : String) : Option Schema :=
  if isSelfSegment segment then some s
  else
    match s.property? segment with
    | some p => some p
    | none => if isIndexSegment segment && s.isArray then s.element? else none

/-- The schema at the end of the segments, the first of which has the given position. -/
def Schema.walkFrom (index : Nat) (s : Schema) : List String → Except Miss Schema
  | [] => .ok s
  | segment :: rest =>
    match s.step? segment with
    | some next => walkFrom (index + 1) next rest
    | none => .error ⟨index, segment, s.propertyNames⟩

/-- The schema at the end of the segments. -/
def Schema.walk (s : Schema) (segments : List String) : Except Miss Schema := s.walkFrom 0 segments

/-- Walking along two lists of segments is walking along the first and then the second. -/
theorem Schema.walkFrom_append (index : Nat) (s : Schema) (p q : List String) :
    s.walkFrom index (p ++ q) =
      match s.walkFrom index p with
      | .ok t => t.walkFrom (index + p.length) q
      | .error miss => .error miss := by
  induction p generalizing index s with
  | nil => rfl
  | cons segment rest ih =>
    simp only [List.cons_append, walkFrom]
    cases s.step? segment with
    | none => rfl
    | some next =>
      simp only [ih, List.length_cons]
      rw [Nat.add_right_comm, Nat.add_assoc]

end TypedTemplate
