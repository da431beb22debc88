import TypedTemplate.Proofs.Piece.Shape

/-!
# Calls of the scanner

One call of the scanner takes the piece at the front of a text, or reports the end. A template is
cut by calling it until it reports the end or fails. This file shows that a call finds a piece just
where one of its shape stands. So a text is cut in one way only.

* `nextPiece?`: one call.
* **`nextPiece?_eq_some_iff`**: a call finds a piece exactly where one of its shape stands.
* **`nextPiece?_eq_error`**: a call fails only at a tag or a comment that is not closed.
* `Scans`: calls until the end or a failure.
* **`scans_iff`**: cutting a template is calling the scanner until the end or a failure.
* `Cuts`: pieces of their shapes that make up a text.
* **`cutPieces_eq_iff`**: the pieces of a template are the only ones of their shapes that make it
  up.
-/

namespace TypedTemplate

/-! ## Openings -/

/-- Whether a text begins with a given one, and what follows that. -/
def splitStart (start cs : List Char) : Bool × List Char :=
  match dropStart? start cs with
  | some rest => (true, rest)
  | none => (false, cs)

/-- What could be the beginning is taken for it. -/
theorem splitStart_eq_iff {start cs rest : List Char} {found : Bool} :
    splitStart start cs = (found, rest) ↔
      cs = (if found then start else []) ++ rest ∧ (found = false → ¬start <+: rest) := by
  unfold splitStart
  cases hdrop : dropStart? start cs with
  | some more =>
    have hcs := eq_append_of_dropStart? hdrop
    cases found with
    | true => simp [hcs]
    | false =>
      simp only [Prod.mk.injEq, Bool.true_eq_false, false_and, Bool.false_eq_true, ↓reduceIte,
        List.nil_append, forall_const, false_iff]
      rintro ⟨rfl, hnot⟩
      exact hnot ⟨more, hcs.symm⟩
  | none =>
    have hnot := dropStart?_eq_none_iff.mp hdrop
    cases found with
    | true =>
      simp only [Prod.mk.injEq, Bool.false_eq_true, false_and, ↓reduceIte, false_iff]
      rintro ⟨rfl, -⟩
      exact hnot ⟨rest, rfl⟩
    | false =>
      simp only [Prod.mk.injEq, true_and, Bool.false_eq_true, ↓reduceIte, List.nil_append,
        forall_const]
      constructor
      · rintro rfl
        exact ⟨rfl, hnot⟩
      · exact And.left

theorem splitMark_eq_splitStart (cs : List Char) : splitMark cs = splitStart ['~'] cs := by
  unfold splitMark splitStart
  split
  · rfl
  · next hnot =>
    have hdrop : dropStart? ['~'] cs = none := by
      rw [dropStart?_eq_none_iff]
      rintro ⟨more, rfl⟩
      exact hnot more rfl
    rw [hdrop]

theorem splitDashes_eq_splitStart (cs : List Char) : splitDashes cs = splitStart ['-', '-'] cs := by
  unfold splitDashes splitStart
  split
  · rfl
  · next hnot =>
    have hdrop : dropStart? ['-', '-'] cs = none := by
      rw [dropStart?_eq_none_iff]
      rintro ⟨more, rfl⟩
      exact hnot more rfl
    rw [hdrop]

/-- The mark for stripping is taken wherever there is one. -/
theorem splitMark_eq_iff {cs rest : List Char} {marked : Bool} :
    splitMark cs = (marked, rest) ↔
      cs = Piece.stripMark marked ++ rest ∧ (marked = false → ¬['~'] <+: rest) := by
  rw [splitMark_eq_splitStart, splitStart_eq_iff]
  rfl

/-- The dashes of a long comment are taken wherever there are two. -/
theorem splitDashes_eq_iff {cs rest : List Char} {long : Bool} :
    splitDashes cs = (long, rest) ↔
      cs = Piece.dashes long ++ rest ∧ (long = false → ¬['-', '-'] <+: rest) := by
  rw [splitDashes_eq_splitStart, splitStart_eq_iff]
  rfl

/-- A third brace is taken wherever there is one. -/
theorem splitThird_eq_iff {cs rest : List Char} {braces : Braces} :
    splitThird cs = (braces, rest) ↔
      '{' :: '{' :: cs = braces.opening ++ rest ∧ (braces = .double → ¬['{'] <+: rest) := by
  unfold splitThird
  split
  · next more =>
    cases braces with
    | double =>
      simp only [Prod.mk.injEq, reduceCtorEq, false_and, Braces.opening, false_iff]
      rintro ⟨h, hnot⟩
      exact hnot trivial ⟨more, by simpa using h⟩
    | triple => simp [Braces.opening]
  · next hnot =>
    cases braces with
    | double =>
      simp only [Prod.mk.injEq, true_and, Braces.opening, forall_const]
      constructor
      · rintro rfl
        refine ⟨rfl, ?_⟩
        rintro ⟨more, hmore⟩
        exact hnot more hmore.symm
      · rintro ⟨h, -⟩
        simpa using h
    | triple =>
      simp only [Prod.mk.injEq, reduceCtorEq, false_and, Braces.opening, false_iff]
      rintro ⟨h, -⟩
      exact hnot rest (by simpa using h)

/-! ## One call of the scanner -/

/-- Behind two braces, perhaps a mark, and an exclamation mark stands a comment. -/
theorem spanBraces?_comment {cs opened body : List Char} {before : Bool}
    (hthird : splitThird cs = (.double, opened))
    (hmark : splitMark opened = (before, '!' :: body)) :
    spanBraces? cs = spanCommentPiece? before body := by
  unfold spanBraces?
  simp only [hthird, hmark]

/-- Behind other openings stands a tag. -/
theorem spanBraces?_tag {cs opened inside : List Char} {braces : Braces} {before : Bool}
    (hthird : splitThird cs = (braces, opened)) (hmark : splitMark opened = (before, inside))
    (hcomment : braces = .double → ¬['!'] <+: inside) :
    spanBraces? cs = spanTagPiece? before braces inside := by
  unfold spanBraces?
  simp only [hthird, hmark]
  split
  · next body => exact absurd ⟨body, rfl⟩ (hcomment rfl)
  · rfl

/-- What is cut off as a comment has the shape of one. -/
theorem shaped_of_spanCommentPiece? {before : Bool} {cs rest : List Char} {piece : Piece}
    (h : spanCommentPiece? before cs = .ok (piece, rest)) : piece.Shaped rest := by
  unfold spanCommentPiece? at h
  cases hdashed : splitDashes cs with
  | mk long inside =>
    obtain ⟨-, hshort⟩ := splitDashes_eq_iff.mp hdashed
    simp only [hdashed] at h
    cases hspan : spanComment? long inside with
    | none => simp [hspan] at h
    | some found =>
      obtain ⟨body, after, more⟩ := found
      simp only [hspan, Except.ok.injEq, Prod.mk.injEq] at h
      obtain ⟨rfl, rfl⟩ := h
      refine .comment ?_ (commentBody_of_spanComment? hspan)
      intro hlong
      have hnot := hshort hlong
      rw [eq_append_of_spanComment? hspan] at hnot
      simpa [commentEnd] using hnot

/-- What is cut off as a tag has the shape of one, if it is not opened otherwise. -/
theorem shaped_of_spanTagPiece? {before : Bool} {braces : Braces} {opened cs rest : List Char}
    {piece : Piece} (h : spanTagPiece? before braces cs = .ok (piece, rest))
    (hmark : splitMark opened = (before, cs)) (hdouble : braces = .double → ¬['{'] <+: opened)
    (hcomment : braces = .double → ¬['!'] <+: cs) : piece.Shaped rest := by
  obtain ⟨rfl, hunmarked⟩ := splitMark_eq_iff.mp hmark
  unfold spanTagPiece? at h
  cases hspan : spanTag? braces.closing none cs with
  | none => simp [hspan] at h
  | some found =>
    obtain ⟨inner, after, more⟩ := found
    simp only [hspan, Except.ok.injEq, Prod.mk.injEq] at h
    obtain ⟨rfl, rfl⟩ := h
    obtain rfl := eq_append_of_spanTag? hspan
    refine .tag ?_ ?_ ?_ (tagInside_of_spanTag? hspan)
    · intro hbraces
      simpa [tagEnd] using hdouble hbraces
    · intro hbefore
      simpa [tagEnd] using hunmarked hbefore
    · intro hbraces
      simpa [tagEnd] using hcomment hbraces

/-- What is cut off behind two opening braces has the shape of a tag or of a comment. -/
theorem shaped_of_spanBraces? {cs rest : List Char} {piece : Piece}
    (h : spanBraces? cs = .ok (piece, rest)) : piece.Shaped rest := by
  cases hthird : splitThird cs with
  | mk braces opened =>
    cases hmark : splitMark opened with
    | mk before inside =>
      by_cases hcomment : braces = .double ∧ ['!'] <+: inside
      · obtain ⟨rfl, body, rfl⟩ := hcomment
        rw [spanBraces?_comment hthird hmark] at h
        exact shaped_of_spanCommentPiece? h
      · have hno : braces = .double → ¬['!'] <+: inside := fun hb hc => hcomment ⟨hb, hc⟩
        rw [spanBraces?_tag hthird hmark hno] at h
        exact shaped_of_spanTagPiece? h hmark (splitThird_eq_iff.mp hthird).2 hno

/-- A tag or comment of its shape is cut off behind two opening braces. -/
theorem spanBraces?_of_shaped {piece : Piece} {rest : List Char} (h : piece.Shaped rest)
    (hpiece : ∀ raw, piece ≠ .text raw) :
    ∃ cs, piece.chars ++ rest = '{' :: '{' :: cs ∧ spanBraces? cs = .ok (piece, rest) := by
  cases h with
  | text => exact absurd rfl (hpiece _)
  | @comment strip long body hshort hwithin =>
    obtain ⟨before, after⟩ := strip
    have hdashes : splitDashes (Piece.dashes long ++
        (body ++ commentEnd ⟨before, after⟩ long ++ rest)) =
          (long, body ++ commentEnd ⟨before, after⟩ long ++ rest) :=
      splitDashes_eq_iff.mpr ⟨rfl, hshort⟩
    have hspan : spanComment? long (body ++ commentEnd ⟨before, after⟩ long ++ rest) =
        some (body, after, rest) := by
      have hbody := spanComment?_of_commentBody hwithin
      simpa [commentEnd] using hbody
    have hmark : splitMark (Piece.stripMark before ++ '!' ::
        (Piece.dashes long ++ (body ++ commentEnd ⟨before, after⟩ long ++ rest))) =
          (before, '!' :: (Piece.dashes long ++
            (body ++ commentEnd ⟨before, after⟩ long ++ rest))) :=
      splitMark_eq_iff.mpr ⟨rfl, by simp⟩
    have hthird : splitThird (Piece.stripMark before ++ '!' ::
        (Piece.dashes long ++ (body ++ commentEnd ⟨before, after⟩ long ++ rest))) =
          (.double, Piece.stripMark before ++ '!' ::
            (Piece.dashes long ++ (body ++ commentEnd ⟨before, after⟩ long ++ rest))) := by
      refine splitThird_eq_iff.mpr ⟨rfl, ?_⟩
      cases before <;> simp [Piece.stripMark]
    refine ⟨_, ?_, (spanBraces?_comment hthird hmark).trans ?_⟩
    · simp [Piece.chars, commentEnd]
    · unfold spanCommentPiece?
      simp only [hdashes, hspan]
  | @tag strip braces inner hdouble hunmarked hcomment hinside =>
    obtain ⟨before, after⟩ := strip
    have hspan : spanTag? braces.closing none (inner ++ tagEnd ⟨before, after⟩ braces ++ rest) =
        some (inner, after, rest) := by
      have hinner := spanTag?_of_tagInside hinside
      simpa [tagEnd] using hinner
    have hmark : splitMark (Piece.stripMark before ++
        (inner ++ tagEnd ⟨before, after⟩ braces ++ rest)) =
          (before, inner ++ tagEnd ⟨before, after⟩ braces ++ rest) :=
      splitMark_eq_iff.mpr ⟨rfl, hunmarked⟩
    obtain ⟨cs, hcs⟩ : ∃ cs, braces.opening ++ (Piece.stripMark before ++
        (inner ++ tagEnd ⟨before, after⟩ braces ++ rest)) = '{' :: '{' :: cs := by
      cases braces <;> exact ⟨_, rfl⟩
    have hthird : splitThird cs = (braces, Piece.stripMark before ++
        (inner ++ tagEnd ⟨before, after⟩ braces ++ rest)) := by
      refine splitThird_eq_iff.mpr ⟨hcs.symm, ?_⟩
      simpa using hdouble
    refine ⟨cs, ?_, (spanBraces?_tag hthird hmark hcomment).trans ?_⟩
    · rw [← hcs]
      simp [Piece.chars, tagEnd]
    · unfold spanTagPiece?
      simp only [hspan]

/-- One call of the scanner: the piece at the front of a text and what follows it, or nothing at
the end. -/
def nextPiece? : List Char → Except SyntaxError.Cause (Option (Piece × List Char))
  | [] => .ok none
  | '{' :: '{' :: rest => (spanBraces? rest).map some
  | cs => .ok (some (.text (spanText cs).1, (spanText cs).2))

/-- Nothing is found at the end only. -/
theorem nextPiece?_eq_none_iff {cs : List Char} : nextPiece? cs = .ok none ↔ cs = [] := by
  constructor
  · intro h
    unfold nextPiece? at h
    split at h
    · rfl
    · next rest =>
      cases hspan : spanBraces? rest with
      | error cause => simp [hspan, Except.map] at h
      | ok found => simp [hspan, Except.map] at h
    · simp at h
  · rintro rfl
    rfl

/-- Where no tag opens, the scanner takes plain text. -/
theorem nextPiece?_text {cs : List Char} (hne : cs ≠ []) (hopen : ¬['{', '{'] <+: cs) :
    nextPiece? cs = .ok (some (.text (spanText cs).1, (spanText cs).2)) := by
  unfold nextPiece?
  split
  · exact absurd rfl hne
  · next rest => exact absurd ⟨rest, rfl⟩ hopen
  · rfl

/-- Plain text in front of nothing that opens a tag is not empty. -/
theorem spanText_ne_nil {cs : List Char} (hne : cs ≠ []) (hopen : ¬['{', '{'] <+: cs) :
    (spanText cs).1 ≠ [] := by
  intro hnil
  have happend := spanText_append cs
  rw [hnil, List.nil_append] at happend
  rcases spanText_stops cs with hend | hstart
  · exact hne (happend.symm.trans hend)
  · exact hopen (happend ▸ hstart)

/-- **The scanner finds just the pieces of their shape**: a call finds a piece, and leaves the rest,
exactly where the piece as written stands in front of the rest and has its shape there. -/
theorem nextPiece?_eq_some_iff {cs rest : List Char} {piece : Piece} :
    nextPiece? cs = .ok (some (piece, rest)) ↔ cs = piece.chars ++ rest ∧ piece.Shaped rest := by
  constructor
  · intro h
    by_cases hopen : ['{', '{'] <+: cs
    · obtain ⟨more, rfl⟩ := hopen
      cases hspan : spanBraces? more with
      | error cause => simp [nextPiece?, hspan, Except.map] at h
      | ok found =>
        have hfound : found = (piece, rest) := by simpa [nextPiece?, hspan, Except.map] using h
        subst hfound
        exact ⟨eq_append_of_spanBraces? hspan, shaped_of_spanBraces? hspan⟩
    · by_cases hne : cs = []
      · subst hne
        simp [nextPiece?] at h
      · rw [nextPiece?_text hne hopen] at h
        obtain ⟨rfl, rfl⟩ : Piece.text (spanText cs).1 = piece ∧ (spanText cs).2 = rest := by
          simpa using h
        exact ⟨(spanText_append cs).symm,
          .text (spanText_ne_nil hne hopen) (plainText_spanText cs) (spanText_stops cs)⟩
  · rintro ⟨rfl, hshaped⟩
    by_cases htext : ∃ raw, piece = .text raw
    · obtain ⟨raw, rfl⟩ := htext
      cases hshaped with
      | text hne hplain hstops =>
        rw [Piece.chars, nextPiece?_text (by simp [hne]) (hplain.not_opening hne),
          spanText_of_plainText hplain hstops]
    · obtain ⟨cs, hcs, hspan⟩ := spanBraces?_of_shaped hshaped fun raw h => htext ⟨raw, h⟩
      rw [hcs]
      simp [nextPiece?, hspan, Except.map]

theorem spanCommentPiece?_eq_error {before : Bool} {cs : List Char} {cause : SyntaxError.Cause}
    (h : spanCommentPiece? before cs = .error cause) : cause = .unterminatedComment := by
  unfold spanCommentPiece? at h
  simp only at h
  split at h
  · cases h
  · cases h
    rfl

theorem spanTagPiece?_eq_error {before : Bool} {braces : Braces} {cs : List Char}
    {cause : SyntaxError.Cause} (h : spanTagPiece? before braces cs = .error cause) :
    cause = .unterminatedTag := by
  unfold spanTagPiece? at h
  split at h
  · cases h
  · cases h
    rfl

theorem spanBraces?_eq_error {cs : List Char} {cause : SyntaxError.Cause}
    (h : spanBraces? cs = .error cause) :
    cause = .unterminatedTag ∨ cause = .unterminatedComment := by
  unfold spanBraces? at h
  simp only at h
  split at h
  · exact .inr (spanCommentPiece?_eq_error h)
  · exact .inl (spanTagPiece?_eq_error h)

/-- **A call fails only at a tag or a comment that is not closed**: one opens at the front of the
text, and no piece of its shape stands there. -/
theorem nextPiece?_eq_error {cs : List Char} {cause : SyntaxError.Cause}
    (h : nextPiece? cs = .error cause) :
    (cause = .unterminatedTag ∨ cause = .unterminatedComment) ∧ ['{', '{'] <+: cs ∧
      ∀ piece rest, cs = piece.chars ++ rest → ¬Piece.Shaped rest piece := by
  have hopen : ['{', '{'] <+: cs := by
    refine Decidable.byContradiction fun hnot => ?_
    by_cases hne : cs = []
    · subst hne
      cases h
    · rw [nextPiece?_text hne hnot] at h
      cases h
  refine ⟨?_, hopen, ?_⟩
  · obtain ⟨more, rfl⟩ := hopen
    cases hspan : spanBraces? more with
    | ok found => simp [nextPiece?, hspan, Except.map] at h
    | error other =>
      have hsame : other = cause := by simpa [nextPiece?, hspan, Except.map] using h
      subst hsame
      exact spanBraces?_eq_error hspan
  · intro piece rest hcs hshaped
    rw [nextPiece?_eq_some_iff.mpr ⟨hcs, hshaped⟩] at h
    cases h

/-- A call that finds a piece leaves less of the text. -/
theorem length_lt_of_nextPiece? {cs rest : List Char} {piece : Piece}
    (h : nextPiece? cs = .ok (some (piece, rest))) : rest.length < cs.length := by
  obtain ⟨rfl, hshaped⟩ := nextPiece?_eq_some_iff.mp h
  have hpos := List.length_pos_iff.mpr hshaped.chars_ne_nil
  rw [List.length_append]
  omega

/-! ## All calls -/

/-- **Calls of the scanner** on a text: the pieces they find, and the fault that ends them early,
if any. -/
inductive Scans : List Char → List Piece → Option PieceFault → Prop where
  | done {cs : List Char} (call : nextPiece? cs = .ok none) : Scans cs [] none
  | stuck {cs : List Char} {cause : SyntaxError.Cause} (call : nextPiece? cs = .error cause) :
    Scans cs [] (some ⟨cause, cs⟩)
  | more {cs rest : List Char} {piece : Piece} {pieces : List Piece} {fault : Option PieceFault}
    (call : nextPiece? cs = .ok (some (piece, rest))) (calls : Scans rest pieces fault) :
    Scans cs (piece :: pieces) fault

/-- The calls on a text come to an end with the pieces it is cut into. -/
theorem scans_cutPieces (cs : List Char) : Scans cs (cutPieces cs).1 (cutPieces cs).2 := by
  fun_induction cutPieces cs with
  | case1 => exact .done rfl
  | case2 rest cause h => exact .stuck (by simp [nextPiece?, h, Except.map])
  | case3 rest piece after h pieces fault hr ih =>
    rw [hr] at ih
    exact .more (by simp [nextPiece?, h, Except.map]) ih
  | case4 rest pieces fault hr ih =>
    rw [hr] at ih
    have hcall : nextPiece? ('\\' :: '{' :: '{' :: rest) =
        .ok (some (.text ('\\' :: '{' :: '{' :: (spanText rest).1), (spanText rest).2)) := by
      rw [nextPiece?_text (by simp) (by simp)]
      rfl
    exact .more hcall ih
  | case5 c rest hopen hescape pieces fault hr ih =>
    rw [hr] at ih
    have hstart : ¬['{', '{'] <+: c :: rest := by
      rintro ⟨more, hmore⟩
      obtain ⟨rfl, rfl⟩ := List.cons.inj hmore
      exact hopen more rfl rfl
    have hspan : spanText (c :: rest) = (c :: (spanText rest).1, (spanText rest).2) := by
      rw [spanText]
      · exact hopen
      · exact hescape
    have hcall : nextPiece? (c :: rest) =
        .ok (some (.text (c :: (spanText rest).1), (spanText rest).2)) := by
      rw [nextPiece?_text (by simp) hstart, hspan]
    exact .more hcall ih

/-- The calls on a text have one outcome. -/
theorem Scans.unique {cs : List Char} {pieces pieces' : List Piece}
    {fault fault' : Option PieceFault} (h : Scans cs pieces fault)
    (h' : Scans cs pieces' fault') : pieces = pieces' ∧ fault = fault' := by
  induction h generalizing pieces' fault' with
  | done call => cases h' <;> simp_all
  | stuck call => cases h' <;> simp_all
  | @more cs rest piece pieces fault call calls ih =>
    cases h' with
    | done call' => simp_all
    | stuck call' => simp_all
    | @more _ rest' piece' pieces' _ call' calls' =>
      rw [call] at call'
      obtain ⟨rfl, rfl⟩ : piece = piece' ∧ rest = rest' := by simpa using call'
      obtain ⟨rfl, rfl⟩ := ih calls'
      exact ⟨rfl, rfl⟩

/-- **Cutting a template is calling the scanner until it reports the end or fails.** -/
theorem scans_iff {cs : List Char} {pieces : List Piece} {fault : Option PieceFault} :
    Scans cs pieces fault ↔ cutPieces cs = (pieces, fault) := by
  constructor
  · intro h
    obtain ⟨hpieces, hfault⟩ := (scans_cutPieces cs).unique h
    exact Prod.ext hpieces hfault
  · intro h
    have hscans := scans_cutPieces cs
    rwa [h] at hscans

/-- **Pieces of their shapes that make up a text**, each in front of the ones behind it. -/
inductive Cuts : List Char → List Piece → Prop where
  | nil : Cuts [] []
  | cons {piece : Piece} {rest : List Char} {pieces : List Piece} (shaped : piece.Shaped rest)
    (cuts : Cuts rest pieces) : Cuts (piece.chars ++ rest) (piece :: pieces)

/-- Calls that end without a fault find pieces of their shapes. -/
theorem cuts_of_scans {cs : List Char} {pieces : List Piece} {fault : Option PieceFault}
    (h : Scans cs pieces fault) (hfault : fault = none) : Cuts cs pieces := by
  induction h with
  | done call =>
    rw [nextPiece?_eq_none_iff.mp call]
    exact .nil
  | stuck => cases hfault
  | more call _ ih =>
    obtain ⟨rfl, hshaped⟩ := nextPiece?_eq_some_iff.mp call
    exact .cons hshaped (ih hfault)

/-- Pieces of their shapes are found by the calls on the text they make up. -/
theorem Cuts.scans {cs : List Char} {pieces : List Piece} (h : Cuts cs pieces) :
    Scans cs pieces none := by
  induction h with
  | nil => exact .done rfl
  | cons hshaped _ ih => exact .more (nextPiece?_eq_some_iff.mpr ⟨rfl, hshaped⟩) ih

/-- **A template is cut in one way**: its pieces are the only ones of their shapes that make it
up. -/
theorem cutPieces_eq_iff {cs : List Char} {pieces : List Piece} :
    cutPieces cs = (pieces, none) ↔ Cuts cs pieces := by
  constructor
  · intro h
    exact cuts_of_scans (scans_iff.mpr h) rfl
  · intro h
    exact scans_iff.mp h.scans

namespace Cuts

/-- No plain text follows plain text. -/
theorem not_text_text {cs first second : List Char} {pieces : List Piece}
    (h : Cuts cs (.text first :: .text second :: pieces)) : False := by
  cases h with
  | cons hfirst hrest =>
    cases hrest with
    | cons hsecond _ => exact hfirst.not_text_of_text hsecond

end Cuts

end TypedTemplate
