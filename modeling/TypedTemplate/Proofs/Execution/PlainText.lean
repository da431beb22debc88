import TypedTemplate.Proofs.Analysis.Diagnostics
import TypedTemplate.Proofs.Analysis.Textual
import TypedTemplate.Proofs.Program.OneTag

/-!
# Text that stays text

Any text can be had from a template that escapes every two braces in it which would open a tag. Such
a template is cut into one piece of plain text, so there is nothing in its program but the text, and
neither the analysis nor the choice of a tier makes anything else of it. A text that spells a number
stays a text.

* `escapeBraces`: the backslashes put in.
* **`plainText_escapeBraces`**: no tag opens in an escaped text, and it stands for the text.
* `isTextual_of_pureText?`, `execute_of_text`: programs of nothing but text.
* **`text_roundTrip`**: an escaped text is executed to the text.
-/

namespace TypedTemplate

/-! ## Escaping -/

/-- A text with a backslash in front of every two braces, taken from left to right. -/
def escapeBraces : List Char → List Char
  | '{' :: '{' :: rest => '\\' :: '{' :: '{' :: escapeBraces rest
  | c :: rest => c :: escapeBraces rest
  | [] => []

theorem escapeBraces_cons {c : Char} {rest : List Char} (h : ¬['{', '{'] <+: c :: rest) :
    escapeBraces (c :: rest) = c :: escapeBraces rest := by
  rw [escapeBraces]
  rintro tail rfl rfl
  exact h ⟨tail, rfl⟩

/-- An escaped text begins with a brace only if the text does. -/
theorem head?_of_head?_escapeBraces {cs : List Char}
    (h : (escapeBraces cs).head? = some '{') : cs.head? = some '{' := by
  by_cases hopen : ['{', '{'] <+: cs
  · obtain ⟨tail, rfl⟩ := hopen
    rfl
  · cases cs with
    | nil => cases h
    | cons c rest =>
      rw [escapeBraces_cons hopen] at h
      exact h

/-- No two braces stand at the front of an escaped text. -/
theorem not_opening_escapeBraces (cs : List Char) : ¬['{', '{'] <+: escapeBraces cs := by
  by_cases hopen : ['{', '{'] <+: cs
  · obtain ⟨tail, rfl⟩ := hopen
    rintro ⟨more, hmore⟩
    cases hmore
  · cases cs with
    | nil =>
      rintro ⟨more, hmore⟩
      cases hmore
    | cons c rest =>
      rw [escapeBraces_cons hopen]
      rintro ⟨more, hmore⟩
      obtain ⟨rfl, hrest⟩ := List.cons.inj hmore
      have hbrace : (escapeBraces rest).head? = some '{' := by
        rw [← hrest]
        rfl
      obtain ⟨tail, rfl⟩ := List.head?_eq_some_iff.mp (head?_of_head?_escapeBraces hbrace)
      exact hopen ⟨tail, rfl⟩

/-- **An escaped text is plain text** up to its end, and stands for the text. -/
theorem plainText_escapeBraces (cs : List Char) : PlainText [] (escapeBraces cs) cs := by
  fun_induction escapeBraces cs with
  | case1 rest ih => exact .escape ih
  | case2 c rest hopen ih =>
    have hescaped : escapeBraces (c :: rest) = c :: escapeBraces rest := by
      refine escapeBraces_cons ?_
      rintro ⟨tail, htail⟩
      cases htail
      exact hopen tail rfl rfl
    refine .char ?_ ?_ ih
    · rw [List.append_nil, ← hescaped]
      exact not_opening_escapeBraces _
    · rw [List.append_nil]
      intro hprefix
      exact not_opening_escapeBraces rest (List.cons_prefix_cons.mp hprefix).2
  | case3 => exact .nil

/-- What plain text stands for is what unescaping makes of it. -/
theorem PlainText.unescapeBraces_eq {after raw text : List Char} (h : PlainText after raw text) :
    unescapeBraces raw = text := by
  induction h with
  | nil => rfl
  | escape _ ih => rw [unescapeBraces, ih]
  | @char c raw text _ hbare _ ih =>
    rw [unescapeBraces, ih]
    rintro more rfl rfl
    exact hbare ⟨more ++ after, by simp⟩

theorem escapeBraces_ne_nil {cs : List Char} (h : cs ≠ []) : escapeBraces cs ≠ [] := by
  by_cases hopen : ['{', '{'] <+: cs
  · obtain ⟨tail, rfl⟩ := hopen
    exact List.cons_ne_nil _ _
  · cases cs with
    | nil => exact absurd rfl h
    | cons c rest =>
      rw [escapeBraces_cons hopen]
      exact List.cons_ne_nil _ _

/-- A template of an escaped text is cut into one piece. -/
theorem cutPieces_escapeBraces {cs : List Char} (h : cs ≠ []) :
    cutPieces (escapeBraces cs) = ([.text (escapeBraces cs)], none) := by
  have hplain := plainText_escapeBraces cs
  have hshaped : (Piece.text (escapeBraces cs)).Shaped [] :=
    .text (escapeBraces_ne_nil h) (hplain.unescapeBraces_eq.symm ▸ hplain) (.inl rfl)
  exact cutPieces_of_shaped hshaped

/-! ## Programs of text -/

section

variable {p : Program} {chars : List Char} (h : p.pureText? = some chars)

include h

/-- The statements of a program of text. -/
theorem isContent_of_pureText? : ∀ s ∈ p, ∃ span text, s = .content span text := by
  induction p generalizing chars with
  | nil => simp
  | cons s rest ih =>
    cases s with
    | expression => cases h
    | block => cases h
    | content span text =>
      obtain ⟨more, hmore, -⟩ := Option.map_eq_some_iff.mp h
      exact List.forall_mem_cons.mpr ⟨⟨span, text, rfl⟩, ih hmore⟩

/-- A program of text is executed as text: it has no lone expression, and no lone block. -/
theorem isTextual_of_pureText? : p.tier.isTextual = true := by
  have hcontent := isContent_of_pureText? h
  have hlone {s : Statement} (hs : p.significant = [s]) : ∃ span text, s = .content span text := by
    refine hcontent s ?_
    have hmem : s ∈ p.significant := by rw [hs]; exact List.mem_cons_self
    exact (List.mem_filter.mp hmem).1
  refine (tier_isTextual_iff p).mpr ⟨?_, ?_⟩
  · unfold Program.singleExpression?
    split
    · next hs =>
      obtain ⟨_, _, hs⟩ := hlone hs
      cases hs
    · rfl
  · unfold Program.singleBlock?
    split
    · next hs =>
      obtain ⟨_, _, hs⟩ := hlone hs
      cases hs
    · rfl

/-- What a program of text is put together to. -/
theorem concatenate_of_pureText? (side : SideTable Value) (data : Value) :
    p.concatenate side data = String.ofList chars := by
  unfold Program.concatenate
  congr 1
  induction p generalizing chars with
  | nil => exact Option.some.inj h
  | cons s rest ih =>
    cases s with
    | expression => cases h
    | block => cases h
    | content span text =>
      obtain ⟨more, hmore, rfl⟩ := Option.map_eq_some_iff.mp h
      rw [List.flatMap_cons, ih hmore]
      rfl

/-- **A program of text is executed to the text**, by either of the tiers it may have, over an
artifact that has no other text. -/
theorem execute_of_text {a : Artifact} (ha : a.template.program.pureText? = some chars)
    (side : SideTable Value) (data : Value) :
    p.execute a side data = .ok (.string (String.ofList chars)) := by
  unfold Program.execute Program.direct?
  rcases Tier.isTextual_iff.mp (isTextual_of_pureText? h) with hfast | hfallback
  · rw [hfast]
    simp only
    rw [concatenate_of_pureText? h]
  · rw [hfallback]
    simp only
    unfold Tier.run Artifact.render Renderer.render
    simp only [Renderer.renderProgram_of_pureText? _ _ ha]
    rfl

theorem execute_of_pureText? (source : Source) (helpers : HelperSet) (side : SideTable Value)
    (data : Value) :
    Artifact.execute ⟨⟨source, p⟩, helpers⟩ side data = .ok (.string (String.ofList chars)) :=
  execute_of_text h h side data

/-- A program of text is analysed as text, and there is nothing to say about it. -/
theorem analyze_of_pureText? (a : Analyzer) :
    (analyze a p).schema = .ofType .string ∧ (analyze a p).isValid = true := by
  refine ⟨schema_of_isTextual a (isTextual_of_pureText? h), ?_⟩
  have hnone : (analyze a p).diagnostics = [] := by
    rw [Analyzer.analyze_diagnostics, List.flatMap_eq_nil_iff]
    intro s hs
    obtain ⟨span, text, rfl⟩ := isContent_of_pureText? h s hs
    rfl
  unfold Analysis.isValid Analysis.errors
  rw [hnone]
  rfl

end

/-! ## Templates -/

/-- The text of a template that stands for a text. -/
def escapedText (text : String) : String := String.ofList (escapeBraces text.toList)

/-- **The program of an escaped text** is the text, or nothing if there is none. -/
theorem readProgram_escapedText (text : String) : ∃ p, readProgram (escapedText text) = .ok p ∧
    p.pureText? = some text.toList ∧ (text = "" → p = []) ∧
    (text ≠ "" → ∃ span, p = [.content span text]) := by
  by_cases hempty : text = ""
  · subst hempty
    have hpieces : readPieces (escapedText "") = ([], none) := by
      unfold readPieces escapedText
      simp [escapeBraces, cutPieces, locatePieces]
    have hread : readProgram (escapedText "") = .ok [] :=
      (readProgram_eq_ok_iff hpieces).mpr .nil
    exact ⟨[], hread, rfl, fun _ => rfl, fun hne => absurd rfl hne⟩
  · have hne : text.toList ≠ [] := by simpa using hempty
    have hcut : cutPieces (escapedText text).toList =
        ([.text (escapeBraces text.toList)], none) := by
      rw [escapedText, String.toList_ofList]
      exact cutPieces_escapeBraces hne
    have hpieces : readPieces (escapedText text) =
        ([⟨.start, .text (escapeBraces text.toList)⟩], none) := by
      unfold readPieces
      rw [hcut]
      rfl
    have hunescape := (plainText_escapeBraces text.toList).unescapeBraces_eq
    have hparts : stripPieces [⟨.start, .text (escapeBraces text.toList)⟩] =
        [.content (LocatedPiece.span ⟨.start, .text (escapeBraces text.toList)⟩) text.toList] := by
      simp [stripPieces, Stripping.step, Stripping.start, Stripping.parts, hunescape, hempty]
    have hcontent (span : Span) :
        Derives [.content span text.toList] [.content span (String.ofList text.toList)] :=
      .content .nil
    rw [String.ofList_toList] at hcontent
    have hread := (readProgram_eq_ok_iff hpieces).mpr (hparts ▸ hcontent _)
    exact ⟨_, hread, by simp [Program.pureText?], fun h => absurd h hempty, fun _ => ⟨_, rfl⟩⟩

/-- Three braces, a backslash in front of two, and a number. -/
example : escapedText "\x7b\x7b\x7b\\\x7b\x7b1" = "\\\x7b\x7b\x7b\\\\\x7b\x7b1" := by decide +kernel

end TypedTemplate
