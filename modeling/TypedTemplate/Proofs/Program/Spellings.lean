import TypedTemplate.Proofs.Program.OneTag
import TypedTemplate.Proofs.Program.Parentheses
import TypedTemplate.Proofs.Token.Quoting

/-!
# Three spellings of a tag

A tag for an expression can be written with three braces, or with an ampersand in front of the
expression. The end of a tag is another one between three braces, and the text that is read differs
by the blanks in front of it. Still the tag is cut and read in the same way as between two braces.

* `tripleText`: the text of a tag with three braces.
* **`TagInside.triple`**, `cutPieces_tripleText`, `cutPieces_marked`: what is the inside of a tag
  with two braces is the inside of the others.
* `readTokens_alike`: blanks in front of a text make no difference to its tokens.
* **`readExpression_alike`**: nor to its expression.
* **`readProgram_spelled`**: the three spellings are read alike.
-/

namespace TypedTemplate

/-! ## Cutting -/

/-- The text of a template of one tag with three braces. -/
def tripleText (inner : List Char) : List Char := ['{', '{', '{'] ++ inner ++ ['}', '}', '}']

/-- **The inside of a tag with two braces** has no end of three braces in it either. -/
theorem TagInside.triple {inner : List Char} (h : TagInside ['}', '}'] ['}', '}'] inner) :
    TagInside ['}', '}', '}'] ['}', '}', '}'] inner := by
  induction h with
  | nil => exact .nil
  | string hopens hwithin _ ih => exact .string hopens hwithin ih
  | @char c inner hplain hgoes _ ih =>
    refine .char hplain (fun hends => hgoes ?_) ih
    -- An end of three braces begins with one of two, which the third brace behind is no part of.
    have hfront : c :: (inner ++ ['}', '}']) <+: c :: (inner ++ ['}', '}', '}']) :=
      ⟨['}'], by simp⟩
    have hcut {close : List Char} (hbegins : close ++ ['}'] <+: c :: (inner ++ ['}', '}', '}']))
        (hlength : close.length ≤ (c :: (inner ++ ['}', '}'])).length) :
        close <+: c :: (inner ++ ['}', '}']) :=
      List.prefix_of_prefix_length_le ((List.prefix_append close _).trans hbegins) hfront hlength
    rcases hends with hplain | hmarked
    · exact .inl (hcut hplain (by simp))
    · exact .inr (hcut hmarked (by simp))

section

variable {strip : Strip} {inner : List Char}
  (hcut : cutPieces (tagText inner) = ([.tag strip .double inner], none))

include hcut

/-- A tag whose inside is all between its braces has no marks. -/
theorem strip_of_cutPieces : strip = ⟨false, false⟩ := by
  have hchars := flatMap_chars_cutPieces (tagText inner)
  rw [hcut] at hchars
  have hlength := congrArg List.length hchars
  obtain ⟨before, after⟩ := strip
  cases before <;> cases after <;>
    simp [PieceFault.unread, Piece.chars, Piece.stripMark, tagText, Braces.opening,
      Braces.closing] at hlength ⊢

theorem tagInside_of_cutPieces : TagInside ['}', '}'] ['}', '}'] inner := by
  obtain rfl := strip_of_cutPieces hcut
  cases shaped_of_cutPieces hcut with
  | tag _ _ _ hinside => exact hinside

/-- **With three braces** the tag is cut the same way. -/
theorem cutPieces_tripleText :
    cutPieces (tripleText inner) = ([.tag ⟨false, false⟩ .triple inner], none) := by
  have hinside := (tagInside_of_cutPieces hcut).triple
  have hchars : Piece.chars (.tag ⟨false, false⟩ .triple inner) = tripleText inner := by
    simp [Piece.chars, Piece.stripMark, Braces.opening, Braces.closing, tripleText]
  have hbraces : Braces.triple ≠ .double := by decide
  rw [← hchars]
  refine cutPieces_of_shaped (.tag (absurd · hbraces) (fun _ hmark => ?_) (absurd · hbraces) hinside)
  obtain rfl := strip_of_cutPieces hcut
  cases shaped_of_cutPieces hcut with
  | tag _ hunmarked _ _ =>
    refine hunmarked rfl ?_
    cases inner with
    | nil => simp [tagEnd, Piece.stripMark, Braces.closing] at hmark
    | cons c inner => simpa using hmark

/-- **Behind an ampersand** the tag is cut the same way. -/
theorem cutPieces_marked :
    cutPieces (tagText ('&' :: inner)) = ([.tag ⟨false, false⟩ .double ('&' :: inner)], none) := by
  have hplain : '&' ∉ '~' :: Braces.double.closing := by decide
  exact cutPieces_tagText (by decide) (.cons hplain rfl (tagInside_of_cutPieces hcut))

end

/-! ## Tokens -/

/-- The tokens of a text are those of its lexemes behind the blanks at its front. -/
theorem readTokens_trimStart (e : Excerpt) :
    ∃ p, (readTokens e).tokens = Token.ofLexemes p (cutLexemes (Text.trimStart e.chars)).1 ∧
      ((readTokens e).fault = none ↔ (cutLexemes (Text.trimStart e.chars)).2 = none) := by
  obtain ⟨start, cs⟩ := e
  unfold readTokens
  cases cs with
  | nil => exact ⟨start, rfl, by simp [Text.trimStart]⟩
  | cons c rest =>
    by_cases hblank : Text.isBlank c = true
    · have htrim : Text.trimStart (c :: rest) = Text.trimStart rest :=
        List.dropWhile_cons_of_pos hblank
      rw [htrim, cutLexemes]
      simp only [hblank, if_true, Token.ofLexemes, Token.ofLexeme?, Option.toList_none,
        List.nil_append]
      exact ⟨_, rfl, by simp⟩
    · rw [Bool.not_eq_true] at hblank
      rw [Text.trimStart_of_not_isBlank hblank]
      exact ⟨start, rfl, by simp⟩

/-- **Blanks in front of a text make no difference to its tokens**, but for their places. -/
theorem readTokens_alike {e e' : Excerpt} (h : Text.trimStart e.chars = Text.trimStart e'.chars) :
    List.Forall₂ Token.Alike (readTokens e).tokens (readTokens e').tokens ∧
      ((readTokens e).fault = none → (readTokens e').fault = none) := by
  obtain ⟨p, htokens, hfault⟩ := readTokens_trimStart e
  obtain ⟨q, htokens', hfault'⟩ := readTokens_trimStart e'
  rw [htokens, htokens', hfault, hfault', h]
  exact ⟨ofLexemes_alike _ p q, id⟩

/-- Whole groups stay the same behind other blanks. -/
theorem groups_alike {e e' : Excerpt} (h : Text.trimStart e.chars = Text.trimStart e'.chars)
    (hwhole : ∀ g ∈ (readTokens e).groups, g.Whole) :
    List.Forall₂ Group.Alike (readTokens e).groups (readTokens e').groups := by
  obtain ⟨htokens, hfault⟩ := readTokens_alike h
  have hnone := fault_eq_none_of_whole hwhole
  unfold Tokens.groups
  rw [hnone, hfault hnone]
  exact gather_alike htokens .nil .nil

/-! ## Expressions -/

theorem startsWithName?_alike {groups groups' : List Group}
    (halike : List.Forall₂ Group.Alike groups groups') (h : startsWithName? groups = none) :
    startsWithName? groups' = none := by
  cases halike with
  | nil => rfl
  | cons hfirst hmore =>
    cases hfirst with
    | nested | broken => rfl
    | token ht =>
      cases hmore with
      | nil => rfl
      | cons hsecond =>
        cases hsecond with
        | nested => rfl
        | broken =>
          unfold startsWithName? at h ⊢
          simp only [ht.kind] at h
          split at h
          · cases h
          · next hword => exact if_neg hword
        | token hs =>
          unfold startsWithName? at h ⊢
          simp only [ht.kind, hs.isSymbol] at h
          split at h
          · cases h
          · next hsign => exact if_neg hsign

theorem Path.Alike.simpleName? {p q : Path} (h : p.Alike q) : p.simpleName? = q.simpleName? := by
  unfold Path.simpleName?
  rw [h.parts, h.this, h.data, h.depth]

theorem mayCall_alike {e e' : Expr} (h : e.Alike e') : mayCall e = mayCall e' := by
  cases h with
  | path alike => exact congrArg Option.isSome alike.simpleName?
  | literal | call => rfl

theorem Expr.AllAlike.eq_nil_iff {es es' : List Expr} (h : AllAlike es es') :
    es = [] ↔ es' = [] := by
  cases h <;> simp

theorem Expr.NamedAlike.eq_nil_iff {es es' : HashArgs} (h : NamedAlike es es') :
    es = [] ↔ es' = [] := by
  cases h <;> simp

/-- **Blanks in front of a text make no difference to its expression**, but for the places. -/
theorem readExpression_alike {span place : Span} {e e' : Excerpt} {head : Expr}
    {params : List Expr} {hash : HashArgs}
    (h : readExpression span e = .ok (.expression place head params hash))
    (htrim : Text.trimStart e.chars = Text.trimStart e'.chars) (span' : Span) :
    ∃ head' params' hash', head.Alike head' ∧ Expr.AllAlike params params' ∧
      Expr.NamedAlike hash hash' ∧
      readExpression span' e' = .ok (.expression span' head' params' hash') := by
  have halike := groups_alike htrim (whole_of_readExpression h)
  obtain ⟨g, rest, head, params, hash, hgroups, hname, hhead, hargs, hcall, heq⟩ :=
    readExpression_eq_ok_iff.mp h
  cases heq
  rw [hgroups] at halike
  generalize hgroups' : (readTokens e').groups = groups' at halike
  have hname' := startsWithName?_alike halike hname
  cases halike with
  | cons hfirst hmore =>
    obtain ⟨head', hhead', hsame⟩ := Expr.ofGroup_alike g _ head hfirst hhead
    obtain ⟨params', hash', hargs', hall, hnamed⟩ := Expr.arguments_alike hmore
      (fun g _ g' e => Expr.ofGroup_alike g g' e) hargs (readTokens e').stop
    refine ⟨head', params', hash', hsame, hall, hnamed, readExpression_eq_ok_iff.mpr ?_⟩
    refine ⟨_, _, head', params', hash', hgroups', hname', hhead', hargs', fun hne => ?_, rfl⟩
    rw [← hall.eq_nil_iff.ne, ← hnamed.eq_nil_iff.ne] at hne
    exact mayCall_alike hsame ▸ hcall hne

/-! ## Templates -/

/-- The blanks in front of a text are left out once and for all. -/
theorem trimStart_chars_trimStart (e : Excerpt) :
    Text.trimStart e.trimStart.chars = Text.trimStart e.chars := by
  have hchars (e : Excerpt) : e.trimStart.chars = Text.trimStart e.chars := by
    rw [e.trimStart_eq]
  rw [← hchars e.trimStart, e.trimStart_trimStart, hchars]

/-- What a tag is depends on its text, not on its place. -/
theorem ofInside_leaf {cs : List Char} {p : Position} (h : Role.ofInside ⟨p, cs⟩ = .leaf)
    (q : Position) : Role.ofInside ⟨q, cs⟩ = .leaf := by
  unfold Role.ofInside at h ⊢
  simp only at h ⊢
  split at h <;> simp_all

/-- **The three spellings are read alike**: what is one tag with two braces, and an expression, is
the same expression with three braces and behind an ampersand. -/
theorem readProgram_spelled {strip : Strip} {inner : List Char}
    (hcut : cutPieces (tagText inner) = ([.tag strip .double inner], none))
    (hmark : (Text.trimStart inner).head? ≠ some '&') {span : Span} {head : Expr}
    {params : List Expr} {hash : HashArgs}
    (hread : readProgram (String.ofList (tagText inner)) = .ok [.expression span head params hash]) :
    ∀ text ∈ [tripleText inner, tagText ('&' :: inner)], ∃ span' head' params' hash',
      head.Alike head' ∧ Expr.AllAlike params params' ∧ Expr.NamedAlike hash hash' ∧
        readProgram (String.ofList text) = .ok [.expression span' head' params' hash'] := by
  have hcutText : cutPieces (String.ofList (tagText inner)).toList =
      ([.tag strip .double inner], none) := by
    rw [String.toList_ofList]
    exact hcut
  obtain ⟨s, heq, hrole, e, hleaf, hreads⟩ := (readProgram_oneTag_iff hcutText).mp hread
  obtain rfl := (List.cons.inj heq).1
  obtain ⟨c, hhead, hplain, rfl⟩ := leafExpression?_eq_some_iff.mp hleaf
  have hne : c ≠ '&' := by
    rintro rfl
    exact hmark hhead
  rw [if_neg hne] at hreads
  -- The text that is read may have other blanks in front of it.
  have hspelled {text : List Char} {braces : Braces} {inner' : List Char} {e : Excerpt}
      (hcut : cutPieces text = ([.tag ⟨false, false⟩ braces inner'], none))
      (hrole : Role.ofInside (innerExcerpt .start ⟨false, false⟩ braces inner') = .leaf)
      (hleaf : leafExpression? (innerExcerpt .start ⟨false, false⟩ braces inner') = some e)
      (htrim : Text.trimStart e.chars = Text.trimStart inner) :
      ∃ span' head' params' hash', head.Alike head' ∧ Expr.AllAlike params params' ∧
        Expr.NamedAlike hash hash' ∧
          readProgram (String.ofList text) = .ok [.expression span' head' params' hash'] := by
    obtain ⟨head', params', hash', hsame, hall, hnamed, hreads'⟩ := readExpression_alike hreads
      ((trimStart_chars_trimStart _).trans htrim.symm)
      (onlyTag ⟨false, false⟩ braces inner').span
    have hcutText : cutPieces (String.ofList text).toList =
        ([.tag ⟨false, false⟩ braces inner'], none) := by
      rw [String.toList_ofList]
      exact hcut
    exact ⟨_, head', params', hash', hsame, hall, hnamed,
      (readProgram_oneTag_iff hcutText).mpr ⟨_, rfl, hrole, e, hleaf, hreads'⟩⟩
  rw [List.forall_mem_cons, List.forall_mem_singleton]
  constructor
  · refine hspelled (cutPieces_tripleText hcut) (ofInside_leaf hrole _)
      (leafExpression?_eq_some_iff.mpr ⟨c, hhead, hplain, (if_neg hne).symm⟩) ?_
    exact trimStart_chars_trimStart _
  · exact hspelled (cutPieces_marked hcut) (ofInside_cons (by decide) (by decide))
      (leafExpression?_marked _ inner) rfl

end TypedTemplate
