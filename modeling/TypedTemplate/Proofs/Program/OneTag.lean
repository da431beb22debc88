import TypedTemplate.Proofs.Execution.Scalars
import TypedTemplate.Proofs.Piece.Inside
import TypedTemplate.Proofs.Piece.Scanner
import TypedTemplate.Proofs.Program.Derivation

/-!
# Templates of one tag

Whether a text is cut into one tag depends on its inside alone, once the first character of the
inside cannot be taken for a part of the opening. The program of such a template is the statement of
the tag, if the first character makes it an expression.

* `cutPieces_of_shaped`, `shaped_of_cutPieces`, `shaped_tag`: a tag by itself is cut into itself.
* **`readProgram_oneTag_iff`**: the program of a template of one tag.
* `ofInside_cons`, `leafExpression?_eq_some_iff`: the role of a tag and its expression, by the first
  character.
-/

namespace TypedTemplate

/-! ## Cutting -/

/-- The characters that could be taken for a part of the opening of a tag. -/
def openingMarks : List Char := ['{', '~', '!']

/-- A tag is of its shape if its inside is, and does not begin like an opening. -/
theorem shaped_tag {strip : Strip} {braces : Braces} {after inner : List Char} {c : Char}
    (hc : c ∉ openingMarks)
    (hinside : TagInside braces.closing (tagEnd strip braces ++ after) (c :: inner)) :
    (Piece.tag strip braces (c :: inner)).Shaped after := by
  simp only [openingMarks, List.mem_cons, List.not_mem_nil, or_false, not_or] at hc
  refine .tag ?_ ?_ ?_ hinside
  · rintro - ⟨rest, hrest⟩
    cases hbefore : strip.before with
    | true => simp [Piece.stripMark, hbefore] at hrest
    | false =>
      simp only [Piece.stripMark, hbefore] at hrest
      exact hc.1 (List.cons.inj hrest).1.symm
  · rintro - ⟨rest, hrest⟩
    exact hc.2.1 (List.cons.inj hrest).1.symm
  · rintro - ⟨rest, hrest⟩
    exact hc.2.2 (List.cons.inj hrest).1.symm

/-- A piece of its shape by itself is cut into itself. -/
theorem cutPieces_of_shaped {piece : Piece} (h : piece.Shaped []) :
    cutPieces piece.chars = ([piece], none) := by
  have hcuts : Cuts (piece.chars ++ []) [piece] := .cons h .nil
  rw [List.append_nil] at hcuts
  exact cutPieces_eq_iff.mpr hcuts

/-- What a template is cut into alone has its shape. -/
theorem shaped_of_cutPieces {cs : List Char} {piece : Piece}
    (h : cutPieces cs = ([piece], none)) : piece.Shaped [] := by
  rcases cutPieces_eq_iff.mp h with _ | ⟨hshaped, _ | _⟩
  exact hshaped

/-- The text of a tag without marks. -/
def tagText (inner : List Char) : List Char := ['{', '{'] ++ inner ++ ['}', '}']

/-- A template of one tag that does not begin like an opening is cut into that tag. -/
theorem cutPieces_tagText {inner : List Char} {c : Char} (hc : c ∉ openingMarks)
    (h : TagInside ['}', '}'] ['}', '}'] (c :: inner)) :
    cutPieces (tagText (c :: inner)) =
      ([.tag ⟨false, false⟩ .double (c :: inner)], none) := by
  have hshaped : (Piece.tag ⟨false, false⟩ .double (c :: inner)).Shaped [] := shaped_tag hc h
  have hchars : Piece.chars (.tag ⟨false, false⟩ .double (c :: inner)) = tagText (c :: inner) := by
    simp [Piece.chars, Piece.stripMark, Braces.opening, Braces.closing, tagText]
  rw [← hchars]
  exact cutPieces_of_shaped hshaped

/-! ## The program -/

/-- A tag at the front of a template. -/
def onlyTag (strip : Strip) (braces : Braces) (inner : List Char) : LocatedPiece :=
  ⟨.start, .tag strip braces inner⟩

/-- **The program of a template of one tag** is the expression statement of the tag. -/
theorem readProgram_oneTag_iff {text : String} {strip : Strip} {braces : Braces}
    {inner : List Char} (h : cutPieces text.toList = ([.tag strip braces inner], none))
    {p : Program} :
    readProgram text = .ok p ↔
      ∃ s, p = [s] ∧ Role.ofInside (innerExcerpt .start strip braces inner) = .leaf ∧
        LeafReads (onlyTag strip braces inner).span (innerExcerpt .start strip braces inner) s := by
  have hpieces : readPieces text = ([onlyTag strip braces inner], none) := by
    unfold readPieces
    rw [h]
    rfl
  have hparts : stripPieces [onlyTag strip braces inner] =
      [.tag (onlyTag strip braces inner).span (innerExcerpt .start strip braces inner)] := by
    simp [stripPieces, Stripping.step, Stripping.start, Stripping.parts, Stripping.stripLast,
      onlyTag]
  rw [readProgram_eq_ok_iff hpieces, hparts]
  constructor
  · intro hderives
    generalize hlist : [Part.tag (onlyTag strip braces inner).span
      (innerExcerpt .start strip braces inner)] = parts at hderives
    cases hderives with
    | nil => cases hlist
    | content => cases hlist
    | @leaf _ _ s _ _ hrole hreads hmore =>
      cases hlist
      cases hmore
      exact ⟨s, rfl, hrole, hreads⟩
    | @block _ _ _ _ body tail rest _ _ _ _ _ _ _ hends =>
      obtain ⟨-, hnil⟩ := List.cons.inj hlist
      have htail : tail = [] := by
        have hfront : body ++ tail = [] := (List.append_eq_nil_iff.mp hnil.symm).1
        exact (List.append_eq_nil_iff.mp hfront).2
      subst htail
      cases hends
  · rintro ⟨s, rfl, hrole, hreads⟩
    exact .leaf hrole hreads .nil

/-! ## Roles -/

/-- Trimming at the back keeps the first character that is not blank. -/
theorem Text.head?_trim (cs : List Char) : (trim cs).head? = (trimStart cs).head? := by
  have hsplit := eq_trimEnd_append (trimStart cs)
  have hhead := List.head?_dropWhile_not isBlank cs
  unfold trim
  cases htrim : trimEnd (trimStart cs) with
  | cons c more =>
    rw [htrim] at hsplit
    rw [hsplit]
    rfl
  | nil =>
    -- Nothing but blanks is left, and the first character is none.
    rw [htrim, List.nil_append] at hsplit
    cases hstart : trimStart cs with
    | nil => rfl
    | cons c rest =>
      have hall : ∀ d ∈ (trimStart cs).reverse.takeWhile isBlank, isBlank d = true :=
        List.all_eq_true.mp List.all_takeWhile
      have hblank : isBlank c = true := by
        refine hall c ?_
        rw [← List.mem_reverse, ← hsplit, hstart]
        exact List.mem_cons_self
      rw [show cs.dropWhile isBlank = c :: rest from hstart] at hhead
      rw [List.head?_cons] at hhead
      simp [hblank] at hhead

/-- A text between characters that are not blank keeps both ends. -/
theorem Text.trim_of_ends {c d : Char} (hc : isBlank c = false) (hd : isBlank d = false)
    (cs : List Char) : trim (c :: (cs ++ [d])) = c :: (cs ++ [d]) := by
  have hreverse : (c :: (cs ++ [d])).reverse = d :: (cs.reverse ++ [c]) := by simp
  unfold trim trimEnd
  rw [trimStart_of_not_isBlank hc, hreverse, trimStart_of_not_isBlank hd, ← hreverse,
    List.reverse_reverse]

/-- A tag is a leaf, unless its first character opens or closes a block or an alternative, or might
be that of `else`. -/
theorem ofInside_cons {start : Position} {c : Char} {rest : List Char}
    (hblank : Text.isBlank c = false) (hplain : c ∉ ['e', '^', '/', '#']) :
    Role.ofInside ⟨start, c :: rest⟩ = .leaf := by
  have hhead : (Text.trim (c :: rest)).head? = some c := by
    rw [Text.head?_trim, Text.trimStart_of_not_isBlank hblank]
    rfl
  obtain ⟨more, hmore⟩ := List.head?_eq_some_iff.mp hhead
  unfold Role.ofInside
  simp only [hmore]
  simp only [List.mem_cons, List.not_mem_nil, or_false, not_or] at hplain
  split <;> simp_all

/-- **The expression of a leaf** stands behind an ampersand, or is all of it. -/
theorem leafExpression?_eq_some_iff {inside inner : Excerpt} :
    leafExpression? inside = some inner ↔ ∃ c, (Text.trimStart inside.chars).head? = some c ∧
      c ∉ ['>', '^', '*'] ∧
      inner = if c = '&' then inside.trimStart.drop 1 else inside.trimStart := by
  unfold leafExpression?
  rw [← Text.head?_trim]
  cases htrim : Text.trim inside.chars with
  | nil => simp
  | cons c more =>
    simp only [List.head?_cons, Option.some.injEq, exists_eq_left', List.mem_cons, List.not_mem_nil,
      or_false]
    by_cases hrefused : c = '>' ∨ c = '^' ∨ c = '*'
    · rw [if_pos hrefused]
      simp [hrefused]
    · rw [if_neg hrefused]
      simp only [hrefused, not_false_eq_true, true_and]
      split
      · simp [eq_comm]
      · simp [eq_comm]

/-- Behind an ampersand, a leaf is all expression. -/
theorem leafExpression?_marked (start : Position) (cs : List Char) :
    leafExpression? ⟨start, '&' :: cs⟩ = some ⟨start.advance ['&'], cs⟩ := by
  refine leafExpression?_eq_some_iff.mpr ⟨'&', rfl, by decide, ?_⟩
  rw [if_pos rfl, Excerpt.trimStart_cons (by decide)]
  rfl

/-- Without a mark at its front, a leaf is all expression. -/
theorem leafExpression?_cons {start : Position} {c : Char} {rest : List Char}
    (hblank : Text.isBlank c = false) (hplain : c ∉ ['>', '^', '*', '&']) :
    leafExpression? ⟨start, c :: rest⟩ = some ⟨start, c :: rest⟩ := by
  simp only [List.mem_cons, List.not_mem_nil, or_false, not_or] at hplain
  refine leafExpression?_eq_some_iff.mpr ⟨c, ?_, by simp [hplain], ?_⟩
  · rw [Text.trimStart_of_not_isBlank hblank]
    rfl
  · rw [if_neg hplain.2.2.2, Excerpt.trimStart_cons hblank]

end TypedTemplate
