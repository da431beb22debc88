import TypedTemplate.Proofs.Piece.Shape

/-!
# The shape of a lexeme

Where a lexeme ends depends on what it is: blanks end at the first other character, a string at its
closing quote, a word at a blank, a mark or a quote that is not in brackets. As for pieces, this
file says so without a scanner, as a condition on a lexeme and the text that follows it.

* `WordBody`: the characters of a word; a bracket that opens in it is closed in it.
* `Lexeme.Shaped`: a lexeme in front of the rest of a text.
* **`spanString?_of_stringBody`**, **`spanWord?_of_wordBody`**: what has its shape is scanned.
* `Lexes`: lexemes of their shapes that make up a text.
* **`cutLexemes_eq_iff`**: the lexemes of a text are the only ones of their shapes that make it up.
* `Lexes.enclosed`: a mark in front and a mark behind.
-/

namespace TypedTemplate

/-! ## Extents -/

/-- A word ends in front of the character, outside of brackets. -/
def endsWord (c : Char) : Bool := Text.isBlank c || isMark c || isQuote c

theorem endsWord_eq_false {c : Char} :
    endsWord c = false ↔ Text.isBlank c = false ∧ isMark c = false ∧ isQuote c = false := by
  simp [endsWord, and_assoc]

/-- A text ends, or goes on with a character of a class. -/
def StopsAt (class? : Char → Bool) (after : List Char) : Prop :=
  ∀ c, after.head? = some c → class? c = true

theorem stopsAt_nil (class? : Char → Bool) : StopsAt class? [] := by
  intro c hc
  cases hc

theorem stopsAt_cons {class? : Char → Bool} {c : Char} {rest : List Char} :
    StopsAt class? (c :: rest) ↔ class? c = true := by
  simp [StopsAt]

/-- A text that stops stops in front of a character of the class as well. -/
theorem StopsAt.append_singleton {class? : Char → Bool} {after : List Char} {c : Char}
    (h : StopsAt class? after) (hc : class? c = true) : StopsAt class? (after ++ [c]) := by
  cases after with
  | nil => exact stopsAt_cons.mpr hc
  | cons d rest => exact stopsAt_cons.mpr (stopsAt_cons.mp h)

/-- **The characters of a word**: none that ends a word, except in brackets, and every bracket that
opens is closed. -/
inductive WordBody : List Char → Prop where
  | nil : WordBody []
  | char {c : Char} {cs : List Char} (goesOn : endsWord c = false) (plain : c ≠ '[')
    (rest : WordBody cs) : WordBody (c :: cs)
  | bracket {quoted cs : List Char} (closed : ']' ∉ quoted) (rest : WordBody cs) :
    WordBody ('[' :: (quoted ++ ']' :: cs))

/-- **The shape of a lexeme** in front of the rest of a text. -/
inductive Lexeme.Shaped (after : List Char) : Lexeme → Prop where
  | blank {cs : List Char} (nonempty : cs ≠ []) (blanks : ∀ c ∈ cs, Text.isBlank c = true)
    (stops : StopsAt (fun c => !Text.isBlank c) after) : Shaped after (.blank cs)
  | mark {c : Char} (marks : isMark c = true) : Shaped after (.mark c)
  | string {quote : Char} {body : List Char} (opens : isQuote quote = true)
    (within : StringBody quote body) : Shaped after (.string quote body)
  | word {cs : List Char} (nonempty : cs ≠ []) (within : WordBody cs)
    (stops : StopsAt endsWord after) : Shaped after (.word cs)

theorem not_isBlank_of_isQuote {c : Char} (h : isQuote c = true) : Text.isBlank c = false := by
  have hor : c = '"' ∨ c = '\'' := by simpa [isQuote] using h
  rcases hor with rfl | rfl <;> decide

theorem not_isMark_of_isQuote {c : Char} (h : isQuote c = true) : isMark c = false := by
  have hor : c = '"' ∨ c = '\'' := by simpa [isQuote] using h
  rcases hor with rfl | rfl <;> decide

theorem not_isBlank_of_isMark {c : Char} (h : isMark c = true) : Text.isBlank c = false := by
  have hor : (c = '(' ∨ c = ')') ∨ c = '=' := by simpa [isMark] using h
  rcases hor with (rfl | rfl) | rfl <;> decide

theorem not_isQuote_of_isBlank {c : Char} (h : Text.isBlank c = true) : isQuote c = false := by
  cases hquote : isQuote c with
  | false => rfl
  | true =>
    rw [not_isBlank_of_isQuote hquote] at h
    cases h

theorem not_isQuote_of_isMark {c : Char} (h : isMark c = true) : isQuote c = false := by
  have hor : (c = '(' ∨ c = ')') ∨ c = '=' := by simpa [isMark] using h
  rcases hor with (rfl | rfl) | rfl <;> decide

theorem ne_backslash_of_isQuote {c : Char} (h : isQuote c = true) : c ≠ '\\' := by
  rintro rfl
  cases h

/-! ## Strings -/

/-- What the scanner takes for the body of a string is one. -/
theorem stringBody_of_spanString? {quote : Char} {cs body rest : List Char}
    (h : spanString? quote cs = some (body, rest)) : StringBody quote body := by
  fun_induction spanString? quote cs generalizing body with
  | case1 => cases h
  | case2 => cases h
  | case3 _ _ ih =>
    obtain ⟨⟨b, r⟩, hr, he⟩ := Option.map_eq_some_iff.mp h
    cases he
    exact .escape (ih hr)
  | case4 =>
    cases h
    exact .nil
  | case5 _ _ hescape hquote ih =>
    obtain ⟨⟨b, r⟩, hr, he⟩ := Option.map_eq_some_iff.mp h
    cases he
    exact .char hescape hquote (ih hr)

/-- **The body of a string** is what the scanner takes for it. -/
theorem spanString?_of_stringBody {quote : Char} {body : List Char} (h : StringBody quote body)
    (hquote : quote ≠ '\\') (rest : List Char) :
    spanString? quote (body ++ quote :: rest) = some (body, rest) := by
  induction h with
  | nil =>
    rw [List.nil_append, spanString?.eq_def]
    simp [hquote]
  | escape _ ih => simp [spanString?, ih]
  | char hbare hinner _ ih =>
    rw [List.cons_append, spanString?.eq_def]
    simp [hbare, hinner, ih]

/-! ## Words -/

/-- Outside of brackets, a character that ends no word belongs to the word. -/
theorem spanWord?_goesOn {c : Char} (h : endsWord c = false) (rest : List Char) :
    spanWord? false (c :: rest) =
      (spanWord? (c = '[') rest).map fun r => (c :: r.1, r.2) := by
  obtain ⟨hblank, hmark, hquote⟩ := endsWord_eq_false.mp h
  rw [spanWord?]
  simp [hblank, hmark, hquote]

/-- Where a word ends, there is nothing more of it. -/
theorem spanWord?_stops {rest : List Char} (h : StopsAt endsWord rest) :
    spanWord? false rest = some ([], rest) := by
  cases rest with
  | nil => rfl
  | cons c rest =>
    have hends : endsWord c = true := stopsAt_cons.mp h
    rw [spanWord?, if_neg (by simp), if_pos (by simpa [endsWord] using hends)]

/-- A word goes on behind a bracket that is closed. -/
theorem spanWord?_bracket {quoted : List Char} (h : ']' ∉ quoted) (rest : List Char) :
    spanWord? true (quoted ++ ']' :: rest) =
      (spanWord? false rest).map fun r => (quoted ++ ']' :: r.1, r.2) := by
  induction quoted with
  | nil =>
    rw [List.nil_append, spanWord?]
    simp
  | cons c quoted ih =>
    rw [List.mem_cons, not_or] at h
    have hinside : (c ≠ ']') := fun heq => h.1 heq.symm
    rw [List.cons_append, spanWord?, if_pos rfl]
    simp only [hinside, ne_eq, not_false_eq_true, decide_true]
    rw [ih h.2]
    cases spanWord? false rest <;> rfl

/-- A word, perhaps from within a bracket on. -/
def WordBodyFrom (inside : Bool) (cs : List Char) : Prop :=
  match inside with
  | false => WordBody cs
  | true => ∃ quoted rest, cs = quoted ++ ']' :: rest ∧ ']' ∉ quoted ∧ WordBody rest

/-- A character in front of the rest of a word. -/
theorem WordBodyFrom.cons {c : Char} {cs : List Char} (hgoes : endsWord c = false)
    (h : WordBodyFrom (c = '[') cs) : WordBody (c :: cs) := by
  by_cases hopen : c = '['
  · subst hopen
    obtain ⟨quoted, rest, rfl, hclosed, hrest⟩ := h
    exact .bracket hclosed hrest
  · rw [decide_eq_false hopen] at h
    exact .char hgoes hopen h

/-- What the scanner takes for a word is one, and ends where words end. -/
theorem wordBody_of_spanWord? {inside : Bool} {cs word rest : List Char}
    (h : spanWord? inside cs = some (word, rest)) :
    WordBodyFrom inside word ∧ StopsAt endsWord rest := by
  fun_induction spanWord? inside cs generalizing word with
  | case1 => cases h
  | case2 inside hinside =>
    cases h
    rw [Bool.not_eq_true] at hinside
    subst hinside
    exact ⟨.nil, stopsAt_nil _⟩
  | case3 c more ih =>
    obtain ⟨⟨w, r⟩, hr, he⟩ := Option.map_eq_some_iff.mp h
    cases he
    obtain ⟨hword, hstops⟩ := ih hr
    refine ⟨?_, hstops⟩
    by_cases hclose : c = ']'
    · subst hclose
      exact ⟨[], w, rfl, by simp, hword⟩
    · rw [decide_eq_true hclose] at hword
      obtain ⟨quoted, tail, rfl, hclosed, htail⟩ := hword
      refine ⟨c :: quoted, tail, rfl, ?_, htail⟩
      rw [List.mem_cons, not_or]
      exact ⟨fun heq => hclose heq.symm, hclosed⟩
  | case4 inside c more hinside hends =>
    cases h
    rw [Bool.not_eq_true] at hinside
    subst hinside
    exact ⟨.nil, stopsAt_cons.mpr (by simpa [endsWord] using hends)⟩
  | case5 inside c more hinside hends ih =>
    obtain ⟨⟨w, r⟩, hr, he⟩ := Option.map_eq_some_iff.mp h
    cases he
    obtain ⟨hword, hstops⟩ := ih hr
    rw [Bool.not_eq_true] at hinside hends
    subst hinside
    exact ⟨hword.cons (by simpa [endsWord] using hends), hstops⟩

/-- **A word** is what the scanner takes for it. -/
theorem spanWord?_of_wordBody {word rest : List Char} (h : WordBody word)
    (hstops : StopsAt endsWord rest) : spanWord? false (word ++ rest) = some (word, rest) := by
  induction h with
  | nil => exact spanWord?_stops hstops
  | char hgoes hplain _ ih =>
    rw [List.cons_append, spanWord?_goesOn hgoes, decide_eq_false hplain, ih]
    rfl
  | @bracket quoted cs hclosed _ ih =>
    have hopen : endsWord '[' = false := by decide
    rw [List.cons_append, List.append_assoc, List.cons_append, spanWord?_goesOn hopen,
      decide_eq_true rfl, spanWord?_bracket hclosed, ih]
    rfl

/-- A word without brackets holds no character that ends words. -/
theorem WordBody.endsWord_eq_false {word : List Char} (h : WordBody word) (hopen : '[' ∉ word) :
    ∀ c ∈ word, endsWord c = false := by
  induction h with
  | nil => simp
  | char hgoes _ _ ih =>
    rw [List.mem_cons, not_or] at hopen
    exact List.forall_mem_cons.mpr ⟨hgoes, ih hopen.2⟩
  | bracket => exact absurd List.mem_cons_self hopen

/-! ## Lexemes -/

namespace Lexeme.Shaped

variable {l : Lexeme} {after : List Char}

/-- A mark behind the rest of a text makes no difference to a lexeme in front of it. -/
theorem append_mark (h : l.Shaped after) {c : Char} (hc : isMark c = true) :
    l.Shaped (after ++ [c]) := by
  cases h with
  | blank hne hblanks hstops =>
    exact .blank hne hblanks (hstops.append_singleton (by simp [not_isBlank_of_isMark hc]))
  | mark hmark => exact .mark hmark
  | string hopens hbody => exact .string hopens hbody
  | word hne hword hstops =>
    exact .word hne hword (hstops.append_singleton (by simp [endsWord, hc]))

/-- **A lexeme of its shape is cut off** in front of the rest. -/
theorem cutLexemes_append (h : l.Shaped after) :
    cutLexemes (l.chars ++ after) = (l :: (cutLexemes after).1, (cutLexemes after).2) := by
  cases h with
  | @blank cs hne hblanks hstops =>
    obtain ⟨c, cs, rfl⟩ := List.exists_cons_of_ne_nil hne
    rw [List.forall_mem_cons] at hblanks
    have htake : (cs ++ after).takeWhile Text.isBlank = cs := by
      rw [List.takeWhile_append_of_pos hblanks.2]
      cases after with
      | nil => simp
      | cons d after =>
        have hd : ¬Text.isBlank d = true := by simpa using stopsAt_cons.mp hstops
        rw [List.takeWhile_cons_of_neg hd, List.append_nil]
    have hdrop : Text.trimStart (cs ++ after) = after := by
      unfold Text.trimStart
      rw [List.dropWhile_append_of_pos hblanks.2]
      cases after with
      | nil => rfl
      | cons d after =>
        have hd : ¬Text.isBlank d = true := by simpa using stopsAt_cons.mp hstops
        rw [List.dropWhile_cons_of_neg hd]
    rw [chars, List.cons_append, cutLexemes]
    simp only [hblanks.1, if_true, htake, hdrop]
  | @mark c hmark =>
    have hblank := not_isBlank_of_isMark hmark
    rw [chars, List.singleton_append, cutLexemes]
    simp only [hblank, hmark, Bool.false_eq_true, if_false, if_true]
  | @string quote body hopens hbody =>
    have hspan := spanString?_of_stringBody hbody (ne_backslash_of_isQuote hopens) after
    have hchars : (Lexeme.string quote body).chars ++ after =
        quote :: (body ++ quote :: after) := by simp [chars]
    rw [hchars, cutLexemes]
    simp only [not_isBlank_of_isQuote hopens, not_isMark_of_isQuote hopens, hopens,
      Bool.false_eq_true, if_false, if_true]
    split
    · next hnone =>
      rw [hspan] at hnone
      cases hnone
    · next found rest hsome =>
      rw [hspan] at hsome
      cases hsome
      rfl
  | @word cs hne hword hstops =>
    obtain ⟨c, cs, rfl⟩ := List.exists_cons_of_ne_nil hne
    have hgoes : endsWord c = false := by
      cases hword with
      | char hgoes => exact hgoes
      | bracket => decide
    obtain ⟨hblank, hmark, hquote⟩ := TypedTemplate.endsWord_eq_false.mp hgoes
    have hspan : spanWord? (c = '[') (cs ++ after) = some (cs, after) := by
      have hwhole := spanWord?_of_wordBody hword hstops
      rw [List.cons_append, spanWord?_goesOn hgoes] at hwhole
      obtain ⟨⟨w, r⟩, hr, he⟩ := Option.map_eq_some_iff.mp hwhole
      cases he
      exact hr
    rw [chars, List.cons_append, cutLexemes]
    simp only [hblank, hmark, hquote, Bool.false_eq_true, if_false]
    split
    · next hnone =>
      rw [hspan] at hnone
      cases hnone
    · next found rest hsome =>
      rw [hspan] at hsome
      cases hsome
      rfl

end Lexeme.Shaped

/-- **Lexemes of their shapes that make up a text**, each in front of the ones behind it. -/
inductive Lexes : List Char → List Lexeme → Prop where
  | nil : Lexes [] []
  | cons {l : Lexeme} {rest : List Char} {lexemes : List Lexeme} (shaped : l.Shaped rest)
    (more : Lexes rest lexemes) : Lexes (l.chars ++ rest) (l :: lexemes)

/-- What a text without a fault is cut into has its shape. -/
theorem lexes_cutLexemes {cs : List Char} (h : (cutLexemes cs).2 = none) :
    Lexes cs (cutLexemes cs).1 := by
  fun_induction cutLexemes cs with
  | case1 => exact .nil
  | case2 c rest hblank lexemes fault hr ih =>
    rw [hr] at ih
    have hshaped : (Lexeme.blank (c :: rest.takeWhile Text.isBlank)).Shaped
        (Text.trimStart rest) := by
      refine .blank (by simp) ?_ ?_
      · refine List.forall_mem_cons.mpr ⟨hblank, ?_⟩
        exact List.all_eq_true.mp List.all_takeWhile
      · intro d hd
        have hnot := List.head?_dropWhile_not Text.isBlank rest
        unfold Text.trimStart at hd
        rw [hd] at hnot
        simpa using hnot
    have hcuts := Lexes.cons hshaped (ih h)
    rw [Lexeme.chars, List.cons_append, ← Text.eq_append_trimStart rest] at hcuts
    exact hcuts
  | case3 c rest _ hmark lexemes fault hr ih =>
    rw [hr] at ih
    exact .cons (.mark hmark) (ih h)
  | case4 => cases h
  | case5 c rest _ _ hquote body after hspan lexemes fault hr ih =>
    rw [hr] at ih
    have hcuts := Lexes.cons (.string hquote (stringBody_of_spanString? hspan)) (ih h)
    rw [eq_append_of_spanString? hspan]
    simpa [Lexeme.chars] using hcuts
  | case6 => cases h
  | case7 c rest hblank hmark hquote word after hspan lexemes fault hr ih =>
    rw [hr] at ih
    have hgoes : endsWord c = false := by simp [endsWord, hblank, hmark, hquote]
    obtain ⟨hword, hstops⟩ := wordBody_of_spanWord? hspan
    have hcuts := Lexes.cons (.word (by simp) (hword.cons hgoes) hstops) (ih h)
    rw [eq_append_of_spanWord? hspan]
    simpa [Lexeme.chars] using hcuts

/-- **A text is cut in one way**: its lexemes are the only ones of their shapes that make it up. -/
theorem cutLexemes_eq_iff {cs : List Char} {lexemes : List Lexeme} :
    cutLexemes cs = (lexemes, none) ↔ Lexes cs lexemes := by
  constructor
  · intro h
    have hlexes := lexes_cutLexemes (congrArg Prod.snd h)
    rwa [h] at hlexes
  · intro h
    induction h with
    | nil => rw [cutLexemes]
    | cons hshaped _ ih => rw [hshaped.cutLexemes_append, ih]

namespace Lexes

variable {cs : List Char} {lexemes : List Lexeme}

theorem flatMap_chars (h : Lexes cs lexemes) : lexemes.flatMap Lexeme.chars = cs := by
  induction h with
  | nil => rfl
  | cons _ _ ih => rw [List.flatMap_cons, ih]

theorem append_mark (h : Lexes cs lexemes) {c : Char} (hc : isMark c = true) :
    Lexes (cs ++ [c]) (lexemes ++ [.mark c]) := by
  induction h with
  | nil => exact .cons (.mark hc) .nil
  | cons hshaped _ ih =>
    rw [List.append_assoc]
    exact .cons (hshaped.append_mark hc) ih

/-- **Marks in front of a text and behind it** are lexemes of their own. -/
theorem enclosed (h : Lexes cs lexemes) {c d : Char} (hc : isMark c = true) (hd : isMark d = true) :
    Lexes (c :: (cs ++ [d])) (.mark c :: (lexemes ++ [.mark d])) :=
  .cons (.mark hc) (h.append_mark hd)

/-- The tokens of a text are those of the lexemes that make it up. -/
theorem readTokens {e : Excerpt} (h : Lexes e.chars lexemes) :
    TypedTemplate.readTokens e =
      ⟨Token.ofLexemes e.start lexemes, e.start.advance e.chars, none⟩ := by
  unfold TypedTemplate.readTokens
  rw [cutLexemes_eq_iff.mpr h]
  simp only [h.flatMap_chars, Option.map_none]

end Lexes

end TypedTemplate
