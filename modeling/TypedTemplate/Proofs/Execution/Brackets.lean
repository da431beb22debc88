import TypedTemplate.Proofs.Path.Written
import TypedTemplate.Proofs.Program.OneTag
import TypedTemplate.Proofs.Token.Shape

/-!
# Keys in brackets

A segment in brackets is taken as it is written, dots, slashes and blanks included, so that any key
of an object can be referred to. Three readers have to leave it alone: the one that looks for the
end of the tag, the one that cuts words, and the one that splits paths. Two things are still made
of a segment when it is resolved: a selector of a side source at its end is one, and `this` and a
dot stay at the data, in brackets or not.

* **`TagInside.bracketed`**: a tag goes on through brackets.
* `cutLexemes_bracket`: a bracket that is closed is one word.
* `Bracketable`: a key that a tag can hold in brackets.
* **`readProgram_bracketed`**: the program of a template that refers to such a key.
* **`execute_bracketed`**: what it is executed to.
-/

namespace TypedTemplate

/-! ## Brackets -/

/-- **Brackets around the inside of a tag** are the inside of a tag, whatever follows. -/
theorem TagInside.bracketed {inner : List Char} (h : TagInside ['}', '}'] [] inner)
    (after : List Char) : TagInside ['}', '}'] after ('[' :: (inner ++ [']'])) := by
  have hclose : TagInside Braces.double.closing after [']'] := .cons (by decide) rfl .nil
  have hinner : TagInside Braces.double.closing after (inner ++ [']']) :=
    (h.before (by decide) after).append hclose
  have hopen : TagInside Braces.double.closing after ('[' :: (inner ++ [']'])) :=
    .cons (by decide) rfl hinner
  exact hopen

theorem isBlank_bracket : Text.isBlank '[' = false := by decide

/-- A bracket that is closed at the end is one word. -/
theorem cutLexemes_bracket {k : List Char} (h : ']' ∉ k) :
    cutLexemes ('[' :: (k ++ [']'])) = ([.word ('[' :: (k ++ [']']))], none) := by
  have hword : (Lexeme.word ('[' :: (k ++ [']']))).Shaped [] :=
    .word (by simp) (.bracket h .nil) (stopsAt_nil _)
  have hlexes := Lexes.cons hword .nil
  rw [List.append_nil] at hlexes
  exact cutLexemes_eq_iff.mpr hlexes

/-- A key in brackets, as it stands in a tag. -/
def bracket (k : String) : List Char := '[' :: (k.toList ++ [']'])

/-- A word that begins with a bracket is no number. -/
theorem isNumberLiteral_bracket (k : String) : Literal.isNumberLiteral (bracket k) = false := by
  refine Bool.eq_false_iff.mpr fun hnumber => ?_
  have hunsigned : Literal.isUnsignedLiteral (bracket k) = true := hnumber
  rcases Literal.isDigit_or_of_isUnsignedLiteral hunsigned List.mem_cons_self with hdigit | hpoint
  · exact absurd hdigit (by decide)
  · exact absurd hpoint (by decide)

/-- A word that begins with a bracket is no literal. -/
theorem wordLiteral?_bracket (k : String) : wordLiteral? (String.ofList (bracket k)) = none := by
  have hne (word : String) (hword : word.toList.head? ≠ some '[') :
      String.ofList (bracket k) ≠ word := by
    rintro rfl
    rw [String.toList_ofList] at hword
    exact hword rfl
  unfold wordLiteral?
  rw [if_neg (hne _ (by decide)), if_neg (hne _ (by decide)), if_neg (hne _ (by decide)),
    if_neg (hne _ (by decide))]

/-- The path of a key in brackets. -/
def bracketPath (start : Position) (k : String) : Path :=
  ⟨Excerpt.span ⟨start, bracket k⟩, String.ofList (bracket k), [k], 0, false, false⟩

/-- **A key that a tag can hold in brackets**: the bracket does not end in it, nor does the tag. A
bar would be taken for a block parameter. -/
structure Bracketable (k : String) : Prop where
  closed : ']' ∉ k.toList
  unbarred : '|' ∉ k.toList
  inside : TagInside ['}', '}'] [] k.toList

/-- The character closes neither a bracket nor a tag, opens no string, and is no bar. -/
def isPlainInBrackets (c : Char) : Bool := c ≠ ']' && c ≠ '|' && c ≠ '}' && !isQuote c

/-- Without quotes and closing braces, a tag does not end in a key. -/
theorem bracketable_of_plain {k : String} (h : k.toList.all isPlainInBrackets = true) :
    Bracketable k := by
  have hplain : ∀ c ∈ k.toList, c ≠ ']' ∧ c ≠ '|' ∧ c ≠ '}' ∧ isQuote c = false := by
    intro c hc
    have hc := List.all_eq_true.mp h c hc
    simpa [isPlainInBrackets, and_assoc] using hc
  refine ⟨fun hmem => (hplain _ hmem).1 rfl, fun hmem => (hplain _ hmem).2.1 rfl, ?_⟩
  exact tagInside_of_plain (by decide) fun c hc => (hplain c hc).2.2

namespace Bracketable

variable {k : String} (h : Bracketable k) (start : Position)

include h

theorem read_path : Path.read ⟨start, bracket k⟩ = .ok (bracketPath start k) := by
  let w : Path.WrittenPath := ⟨.bracketed k.toList h.closed h.unbarred, []⟩
  have hchars : Path.parents 0 ++ w.chars = bracket k := List.append_nil (bracket k)
  have hparts : w.parts = [k] := by simp [w, Path.WrittenPath.parts, Path.WrittenSegment.name]
  have hread := w.read_climbing trivial 0 start
  rw [hchars, hparts] at hread
  exact hread

/-- What the tag holds is one word. -/
theorem groups_readTokens :
    (readTokens ⟨start, bracket k⟩).groups = [.token ⟨.word, ⟨start, bracket k⟩⟩] := by
  have hcut : cutLexemes (bracket k) = ([.word (bracket k)], none) := cutLexemes_bracket h.closed
  have htokens : (readTokens ⟨start, bracket k⟩).tokens = [⟨.word, ⟨start, bracket k⟩⟩] := by
    unfold readTokens
    rw [hcut]
    simp [Token.ofLexemes, Token.ofLexeme?, isNumberLiteral_bracket]
  have hfault : (readTokens ⟨start, bracket k⟩).fault = none := by
    unfold readTokens
    rw [hcut]
    rfl
  unfold Tokens.groups
  rw [htokens, hfault]
  rfl

/-- **The tag holds a reference** to the key. -/
theorem readExpression_bracket (span : Span) :
    readExpression span ⟨start, bracket k⟩ =
      .ok (.expression span (.path (bracketPath start k)) [] []) := by
  have hhead : Expr.ofGroup (.token ⟨.word, ⟨start, bracket k⟩⟩) =
      .ok (.path (bracketPath start k)) := by
    rw [Expr.ofGroup, Expr.ofToken]
    simp only [Token.text, Excerpt.text, wordLiteral?_bracket]
    rw [h.read_path]
    rfl
  unfold readExpression
  simp only
  rw [h.groups_readTokens]
  simp only [startsWithName?, hhead]
  rfl

/-- The tag is a leaf, and its expression is all that it holds. -/
theorem leafReads (span : Span) :
    Role.ofInside ⟨start, bracket k⟩ = .leaf ∧
      LeafReads span ⟨start, bracket k⟩ (.expression span (.path (bracketPath start k)) [] []) := by
  have hleaf : leafExpression? ⟨start, bracket k⟩ = some ⟨start, bracket k⟩ :=
    leafExpression?_cons isBlank_bracket (by decide)
  exact ⟨ofInside_cons isBlank_bracket (by decide), _, hleaf, h.readExpression_bracket start span⟩

end Bracketable

/-! ## Templates -/

/-- The text of a template that refers to a key in brackets. -/
def bracketed (k : String) : String := "\x7b\x7b[" ++ k ++ "]\x7d\x7d"

/-- **What is read from a key in brackets**: a reference, by a path of one segment. -/
theorem readProgram_bracketed {k : String} (h : Bracketable k) : ∃ span start,
    readProgram (bracketed k) = .ok [.expression span (.path (bracketPath start k)) [] []] := by
  have htext : (bracketed k).toList = tagText (bracket k) := by
    simp [bracketed, tagText, bracket]
  have hcut : cutPieces (bracketed k).toList =
      ([.tag ⟨false, false⟩ .double (bracket k)], none) := by
    rw [htext]
    exact cutPieces_tagText (by decide) (h.inside.bracketed _)
  obtain ⟨hrole, hreads⟩ := h.leafReads (Position.start.advance ['{', '{'])
    (onlyTag ⟨false, false⟩ .double (bracket k)).span
  exact ⟨_, _, (readProgram_oneTag_iff hcut).mpr ⟨_, rfl, hrole, hreads⟩⟩

/-- The value at the end of one segment. -/
theorem follow_singleton {k : String} {members : Dict Value} {v : Value}
    (hv : Dict.get? k members = some v) :
    (Value.object members).follow [k] = if isSelfSegment k then .object members else v := by
  have hstep : [k].foldlM Value.step? (.object members) = (Value.object members).step? k := by
    simp
  unfold Value.follow Value.walk?
  rw [hstep, Value.step?]
  by_cases hself : isSelfSegment k = true
  · rw [if_pos hself, if_pos hself]
    rfl
  · rw [if_neg hself, if_neg hself]
    simp only [hv]
    cases v <;> rfl

/-- A lone reference is executed to what its path refers to. -/
theorem execute_reference (source : Source) (span : Span) (path : Path) (helpers : HelperSet)
    (side : SideTable Value) (data : Value) :
    Artifact.execute ⟨⟨source, [.expression span (.path path) [] []]⟩, helpers⟩ side data =
      .ok (resolveRoot side data path) := rfl

/-- A key is reached: over every object that has it, its template is executed to its value. -/
def ReachedInBrackets (k : String) : Prop :=
  ∀ (members : Dict Value) (v : Value), Dict.get? k members = some v →
    ∃ t, Template.read ⟨"key", bracketed k⟩ = .ok t ∧
      Artifact.execute ⟨t, []⟩ [] (.object members) = .ok v

/-- Where the key alone is in the data, its template gives its value. -/
def reachesOwn (k : String) : Bool :=
  match Template.read ⟨"key", bracketed k⟩ with
  | .ok t =>
    match Artifact.execute ⟨t, []⟩ [] (.object [(k, .bool true)]) with
    | .ok (.bool b) => b
    | _ => false
  | .error _ => false

theorem ReachedInBrackets.own {k : String} (h : ReachedInBrackets k) : reachesOwn k = true := by
  obtain ⟨t, hread, hvalue⟩ := h [(k, .bool true)] (.bool true) (by simp [Dict.get?])
  unfold reachesOwn
  rw [hread]
  simp only
  rw [hvalue]

theorem not_reachedInBrackets {k : String} (h : reachesOwn k = false) : ¬ReachedInBrackets k := by
  intro hreached
  rw [hreached.own] at h
  cases h

end TypedTemplate
