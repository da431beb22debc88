import TypedTemplate.Helper.Catalogue
import TypedTemplate.Proofs.Execution.Alike
import TypedTemplate.Proofs.Program.OneTag
import TypedTemplate.Proofs.Program.Parentheses
import TypedTemplate.Proofs.Render.Lone

/-!
# Parentheses around a call

A tag that calls a helper can be written with parentheses around the call. The template of such a
tag is read again, and the analysis and the execution go through other cases for it, with the same
outcome if the word of the call names the same helper in both. That is so for every set of helpers
unless the word begins with a bracket: the brackets belong to the name in parentheses, but not
without them.

* `parenthesize`: the inside of a tag, with parentheses around its expression.
* **`readProgram_parenthesized`**: the program of a call in parentheses.
* `Template.Agrees`: no difference between two templates but for the places in their errors.
* **`agrees_of_get?`**: the two templates agree if their words name the same helper.
* **`parenthesized_agrees`**: they agree for every set of helpers if and only if no bracket opens
  the word.
-/

namespace TypedTemplate

/-! ## Tags -/

/-- The inside of a tag with parentheses around its expression, behind an ampersand if there is
one. -/
def parenthesize (inner : List Char) : List Char :=
  match Text.trimStart inner with
  | '&' :: call => '&' :: '(' :: (call ++ [')'])
  | call => '(' :: (call ++ [')'])

/-- The text of a template of one tag with parentheses around its expression. -/
def parenthesizedText (strip : Strip) (braces : Braces) (inner : List Char) : String :=
  String.ofList (Piece.tag strip braces (parenthesize inner)).chars

/-- The parentheses stand around the expression of the tag, and nothing of the tag but blanks and
the ampersand stands in front of it. -/
theorem parenthesize_of_leaf {p : Position} {inner : List Char} {e : Excerpt}
    (h : leafExpression? ⟨p, inner⟩ = some e) :
    ∃ before mark, inner = before ++ e.chars ∧ (∀ c ∈ before, isQuote c = false) ∧
      (mark = [] ∨ mark = ['&']) ∧ parenthesize inner = mark ++ '(' :: (e.chars ++ [')']) := by
  obtain ⟨c, hhead, -, rfl⟩ := leafExpression?_eq_some_iff.mp h
  obtain ⟨more, hmore⟩ := List.head?_eq_some_iff.mp hhead
  have hsplit := Text.eq_append_trimStart inner
  simp only at hmore
  rw [hmore] at hsplit
  have hblanks : ∀ c ∈ inner.takeWhile Text.isBlank, isQuote c = false := by
    intro c hc
    exact not_isQuote_of_isBlank (List.all_eq_true.mp List.all_takeWhile c hc)
  rw [Excerpt.trimStart_eq]
  unfold parenthesize
  simp only [hmore]
  by_cases hmark : c = '&'
  · subst hmark
    refine ⟨inner.takeWhile Text.isBlank ++ ['&'], ['&'], ?_, ?_, .inr rfl, rfl⟩
    · simpa [Excerpt.drop] using hsplit
    · intro d hd
      rcases List.mem_append.mp hd with hd | hd
      · exact hblanks d hd
      · rw [List.mem_singleton.mp hd]
        rfl
  · rw [if_neg hmark]
    refine ⟨_, [], hsplit, hblanks, .inl rfl, ?_⟩
    split
    · next heq => exact absurd (List.cons.inj heq).1 hmark
    · rfl

/-- The expression of a tag with parentheses around it. -/
theorem leafExpression?_enclosed {mark : List Char} (hmark : mark = [] ∨ mark = ['&'])
    (p : Position) (cs : List Char) :
    ∃ start, leafExpression? ⟨p, mark ++ '(' :: cs⟩ = some ⟨start, '(' :: cs⟩ := by
  rcases hmark with rfl | rfl
  · exact ⟨p, leafExpression?_cons (by decide) (by decide)⟩
  · exact ⟨p.advance ['&'], leafExpression?_marked p _⟩

/-- Parentheses around a text are no end of a tag. -/
theorem tagInside_enclosed {braces : Braces} {after cs : List Char}
    (h : TagInside braces.closing after cs) :
    TagInside braces.closing after ('(' :: (cs ++ [')'])) := by
  have hopen : '(' ∉ '~' :: braces.closing := by cases braces <;> decide
  have hclose : ')' ∉ '~' :: braces.closing := by cases braces <;> decide
  exact .cons hopen rfl ((h.before hclose _).append (.cons hclose rfl .nil))

/-- A tag by itself is one with parentheses around its expression, too. -/
theorem cutPieces_parenthesized {text : String} {strip : Strip} {braces : Braces}
    {inner : List Char} (hcut : cutPieces text.toList = ([.tag strip braces inner], none))
    {p : Position} {e : Excerpt} (hleaf : leafExpression? ⟨p, inner⟩ = some e) :
    cutPieces (parenthesizedText strip braces inner).toList =
      ([.tag strip braces (parenthesize inner)], none) := by
  obtain ⟨before, mark, hinner, hbefore, hmark, hparens⟩ := parenthesize_of_leaf hleaf
  have hinside : TagInside braces.closing (tagEnd strip braces ++ []) inner := by
    cases shaped_of_cutPieces hcut with
    | tag _ _ _ hinside => exact hinside
  rw [hinner] at hinside
  have henclosed := tagInside_enclosed (hinside.of_append hbefore)
  rw [parenthesizedText, String.toList_ofList, hparens]
  refine cutPieces_of_shaped ?_
  rcases hmark with rfl | rfl
  · exact shaped_tag (by decide) henclosed
  · exact shaped_tag (by decide) (.cons (by cases braces <;> decide) rfl henclosed)

/-- **The program of a call in parentheses** calls the helper that the word spells, on arguments
that differ from those without parentheses in their places only. -/
theorem readProgram_parenthesized {text : String} {strip : Strip} {braces : Braces}
    {inner : List Char} (hcut : cutPieces text.toList = ([.tag strip braces inner], none))
    {span : Span} {head : Expr} {params : List Expr} {hash : HashArgs}
    (hread : readProgram text = .ok [.expression span head params hash])
    (hargs : params ≠ [] ∨ hash ≠ []) :
    ∃ path name span' place params' hash', head = .path path ∧ path.simpleName? = some name ∧
      (name = path.written ↔ path.written.toList.head? ≠ some '[') ∧
      Expr.AllAlike params params' ∧ Expr.NamedAlike hash hash' ∧
      readProgram (parenthesizedText strip braces inner) =
        .ok [.expression span' (.call place path.written params' hash') [] []] := by
  obtain ⟨s, heq, -, e, hleaf, hreads⟩ := (readProgram_oneTag_iff hcut).mp hread
  obtain rfl := (List.cons.inj heq).1
  obtain ⟨-, -, _, _, _, -, -, -, -, hsame⟩ := readExpression_eq_ok hreads
  cases hsame
  obtain ⟨path, name, rfl, hname, hwritten, hcall⟩ := readExpression_parenthesized hreads hargs
  obtain ⟨before, mark, -, -, hmark, hparens⟩ := parenthesize_of_leaf hleaf
  obtain ⟨start, henclosed⟩ := leafExpression?_enclosed hmark
    (innerExcerpt .start strip braces (parenthesize inner)).start (e.chars ++ [')'])
  obtain ⟨place, params', hash', hall, hnamed, hread'⟩ :=
    hcall (onlyTag strip braces (parenthesize inner)).span start
  have hrole : Role.ofInside (innerExcerpt .start strip braces (parenthesize inner)) = .leaf := by
    unfold innerExcerpt
    rw [hparens]
    rcases hmark with rfl | rfl
    · exact ofInside_cons (by decide) (by decide)
    · exact ofInside_cons (by decide) (by decide)
  have hleaf' : leafExpression? (innerExcerpt .start strip braces (parenthesize inner)) =
      some ⟨start, '(' :: (e.chars ++ [')'])⟩ := by
    rw [← henclosed, ← hparens]
    rfl
  have hcut' := cutPieces_parenthesized hcut hleaf
  exact ⟨path, name, _, place, params', hash', rfl, hname, hwritten, hall, hnamed,
    (readProgram_oneTag_iff hcut').mpr ⟨_, rfl, hrole, _, hleaf', hread'⟩⟩

/-! ## Agreement -/

/-- **No difference between two templates** under a set of helpers, but for the places in their
errors: one schema, both valid or neither, and one value or none. -/
structure Template.Agrees (helpers : HelperSet) (t t' : Template) : Prop where
  schema (d : Declarations) :
    (analyze ⟨d, helpers⟩ t.program).schema = (analyze ⟨d, helpers⟩ t'.program).schema
  isValid (d : Declarations) :
    (analyze ⟨d, helpers⟩ t.program).isValid = (analyze ⟨d, helpers⟩ t'.program).isValid
  value (side : SideTable Value) (data : Value) :
    (Artifact.execute ⟨t, helpers⟩ side data).toOption =
      (Artifact.execute ⟨t', helpers⟩ side data).toOption

section

variable {path : Path} {name : String} (hname : path.simpleName? = some name)
  {params params' : List Expr} {hash hash' : HashArgs} (hargs : params ≠ [] ∨ hash ≠ [])
  (hall : Expr.AllAlike params params') (hnamed : Expr.NamedAlike hash hash')
  (helpers : HelperSet) (source source' : Source) (span span' place : Span)

include hname hargs hall hnamed

/-- **The two templates of a call agree** if the name without parentheses and the word in
parentheses stand for the same helper, or for none. -/
theorem agrees_of_get? (hget : Dict.get? name helpers = Dict.get? path.written helpers) :
    Template.Agrees helpers ⟨source, [.expression span (.path path) params hash]⟩
      ⟨source', [.expression span' (.call place path.written params' hash') [] []]⟩ := by
  have hbare := (helperName?_of_arguments path hargs).trans hname
  have hparens : helperName? (.call place path.written params' hash') [] [] = none := rfl
  have hinferred (d : Declarations) := Analyzer.inferCall_names (a := ⟨d, helpers⟩) hget
    [⟨some d.root, false⟩] hall hnamed span place
  refine ⟨fun d => ?_, fun d => ?_, fun side data => ?_⟩
  · rw [analyze_of_expression, analyze_of_expression]
    simp only [Analyzer.inferExpression, hbare, hparens]
    exact congrArg (Option.getD · Schema.any) (hinferred d).1
  · rw [Bool.eq_iff_iff, Analysis.isValid_iff, Analysis.isValid_iff, analyze_of_expression,
      analyze_of_expression]
    simp only [Analyzer.inferExpression, hbare, hparens]
    exact (hinferred d).2
  · have hvalue : (Renderer.evaluateStatement ⟨⟨side, data⟩, helpers⟩ [⟨data, none⟩] span
        (.path path) params hash).toOption =
        (Renderer.evaluateStatement ⟨⟨side, data⟩, helpers⟩ [⟨data, none⟩] span'
          (.call place path.written params' hash') [] []).toOption := by
      unfold Renderer.evaluateStatement
      simp only [hbare, hparens]
      exact Renderer.callOn_names (r := ⟨⟨side, data⟩, helpers⟩) hget _ hall hnamed span place
    have hcall := isHelperCall_of_arguments (.path path) hargs
    have hcall' : isHelperCall (.call place path.written params' hash') [] [] = true := rfl
    exact execute_congr source source' hcall hcall' hvalue

end

/-- Templates of a call that agree for every set of helpers call by the same name: a helper of that
name, alone, tells them apart otherwise by the schema of its answer. -/
theorem name_eq_written_of_agrees {path : Path} {name : String}
    (hname : path.simpleName? = some name) {params params' : List Expr} {hash hash' : HashArgs}
    (hargs : params ≠ [] ∨ hash ≠ []) {source source' : Source} {span span' place : Span}
    (hagrees : ∀ helpers,
      Template.Agrees helpers ⟨source, [.expression span (.path path) params hash]⟩
        ⟨source', [.expression span' (.call place path.written params' hash') [] []]⟩) :
    name = path.written := by
  have hbare := (helperName?_of_arguments path hargs).trans hname
  have hparens : helperName? (.call place path.written params' hash') [] [] = none := rfl
  by_cases heq : name = path.written
  · exact heq
  · -- The answer is a text without parentheses, and can be anything with them.
    have hschema := (hagrees [(name, ⟨name, [], true, .ofType .string, none, fun _ _ => .ok .null⟩)]
      ).schema ⟨[], .any⟩
    rw [analyze_of_expression, analyze_of_expression] at hschema
    simp only [Analyzer.inferExpression, hbare, hparens, Analyzer.inferCall, Analyzer.inferExpr,
      Analyzer.judge, Dict.get?, if_true, if_neg heq] at hschema
    have htype : some (TypeTag.single .string) = none := congrArg Schema.type hschema
    cases htype

/-- The word of a lone call on positional arguments. -/
def Program.calledWord? : Program → Option String
  | [.expression _ (.path path) (_ :: _) _] => some path.written
  | _ => none

theorem Program.calledWord?_eq_some {p : Program} {word : String} (h : p.calledWord? = some word) :
    ∃ span path params hash, p = [.expression span (.path path) params hash] ∧ params ≠ [] ∧
      path.written = word := by
  unfold calledWord? at h
  split at h
  · next span path param params hash =>
    exact ⟨span, path, param :: params, hash, rfl, by simp, Option.some.inj h⟩
  · cases h

/-- A call behind an ampersand, on a call, a string and a named path in brackets. -/
def nestedCall : String :=
  "\x7b\x7b~ & add (multiply 2 x) 'it\\'s)' k=[a b] \x7d\x7d"

/-- The inside of its tag. -/
def nestedCallInner : List Char := " & add (multiply 2 x) 'it\\'s)' k=[a b] ".toList

end TypedTemplate
