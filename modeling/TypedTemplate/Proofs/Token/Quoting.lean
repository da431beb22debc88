import TypedTemplate.Proofs.Piece.Inside
import TypedTemplate.Proofs.Piece.Partition
import TypedTemplate.Proofs.Token.Shape

/-!
# Quotes in tags

Two readers keep track of quotes: the one that looks for the end of a tag, and the one that cuts the
inside of the tag into tokens. They have to agree on where a string ends, or a tag could end within
a string. This file shows that they do. Brackets are known to the second reader only, so the inside
of the tag is one without an opening bracket.

* `Excerpt.nextToken?`: one call of the reader of tokens.
* `Tokenizes`: calls until the end or a failure.
* **`tokenizes_iff`**: reading the tokens of a tag is calling it until the end or a failure.
* `Rebuilds`: tokens in their quotes, with the blanks in front of them, make up an excerpt.
* **`Tokenizes.rebuilds`**: the tokens up to the end make up the inside of the tag.
* **`TagInside.cutLexemes_snd`**: what ends outside of quotes for the one reader does so for the
  other.
* **`tag_tokenizes`**: the calls on a tag of a template reach the end.
-/

namespace TypedTemplate

/-! ## One call -/

/-- One call for the next token: the token behind leading blanks and what follows it, or nothing at
the end. -/
def Excerpt.nextToken? (e : Excerpt) : Except SyntaxError (Option (Token × Excerpt)) :=
  let front := e.trimStart
  match front.chars with
  | [] => .ok none
  | c :: rest =>
    if isMark c then
      .ok (some (⟨.symbol, ⟨front.start, [c]⟩⟩, ⟨front.start.advance [c], rest⟩))
    else if isQuote c then
      match spanString? c rest with
      | none => .error (SyntaxError.at' front.start .unmatchedQuote)
      | some (body, after) =>
        .ok (some (⟨.string, ⟨{ front.start with offset := (front.start.next c).offset }, body⟩⟩,
          ⟨front.start.advance (c :: body ++ [c]), after⟩))
    else
      match spanWord? (c = '[') rest with
      | none => .error (SyntaxError.at' front.start .unterminatedBracket)
      | some (word, after) =>
        .ok (some
          (⟨if Literal.isNumberLiteral (c :: word) then .number else .word,
            ⟨front.start, c :: word⟩⟩,
          ⟨front.start.advance (c :: word), after⟩))

theorem Excerpt.trimStart_trimStart (e : Excerpt) : e.trimStart.trimStart = e.trimStart := by
  have hhead := List.head?_dropWhile_not Text.isBlank e.chars
  rw [e.trimStart_eq, Text.trimStart]
  generalize e.start.advance (e.chars.takeWhile Text.isBlank) = p
  cases hdrop : e.chars.dropWhile Text.isBlank with
  | nil => rfl
  | cons c rest =>
    rw [hdrop] at hhead
    exact trimStart_cons (by simpa using hhead)

/-- Blanks at the front make no difference to a call. -/
theorem Excerpt.nextToken?_trimStart (e : Excerpt) : e.trimStart.nextToken? = e.nextToken? := by
  unfold nextToken?
  rw [trimStart_trimStart]

/-! ## All calls -/

/-- **Calls for the next token**: the tokens they find, and the fault that ends them early, if
any. -/
inductive Tokenizes : Excerpt → List Token → Option SyntaxError → Prop where
  | done {e : Excerpt} (call : e.nextToken? = .ok none) : Tokenizes e [] none
  | stuck {e : Excerpt} {fault : SyntaxError} (call : e.nextToken? = .error fault) :
    Tokenizes e [] (some fault)
  | more {e rest : Excerpt} {t : Token} {tokens : List Token} {fault : Option SyntaxError}
    (call : e.nextToken? = .ok (some (t, rest))) (calls : Tokenizes rest tokens fault) :
    Tokenizes e (t :: tokens) fault

/-- Blanks at the front make no difference to the calls. -/
theorem Tokenizes.of_trimStart {e : Excerpt} {tokens : List Token} {fault : Option SyntaxError}
    (h : Tokenizes e.trimStart tokens fault) : Tokenizes e tokens fault := by
  cases h with
  | done call => exact .done (e.nextToken?_trimStart ▸ call)
  | stuck call => exact .stuck (e.nextToken?_trimStart ▸ call)
  | more call calls => exact .more (e.nextToken?_trimStart ▸ call) calls

/-- The calls on a text come to an end with the tokens of its lexemes. -/
theorem tokenizes_cutLexemes (p : Position) (cs : List Char) :
    Tokenizes ⟨p, cs⟩ (Token.ofLexemes p (cutLexemes cs).1)
      ((cutLexemes cs).2.map fun f =>
        SyntaxError.at' (p.advance ((cutLexemes cs).1.flatMap Lexeme.chars)) f.cause) := by
  fun_induction cutLexemes cs generalizing p with
  | case1 => exact .done rfl
  | case2 c rest hblank lexemes fault hr ih =>
    rw [hr] at ih
    refine .of_trimStart ?_
    have htrim : Excerpt.trimStart ⟨p, c :: rest⟩ =
        ⟨p.advance (c :: rest.takeWhile Text.isBlank), Text.trimStart rest⟩ := by
      rw [Excerpt.trimStart_eq, Text.trimStart, List.takeWhile_cons_of_pos hblank,
        List.dropWhile_cons_of_pos hblank]
      rfl
    have hcalls := ih (p.advance (c :: rest.takeWhile Text.isBlank))
    rw [← Position.advance_append] at hcalls
    rw [htrim]
    exact hcalls
  | case3 c rest hblank hmark lexemes fault hr ih =>
    rw [hr] at ih
    have hcall : Excerpt.nextToken? ⟨p, c :: rest⟩ =
        .ok (some (⟨.symbol, ⟨p, [c]⟩⟩, ⟨p.advance [c], rest⟩)) := by
      unfold Excerpt.nextToken?
      rw [Excerpt.trimStart_cons (by simpa using hblank)]
      simp only [hmark, if_true]
    have hcalls := ih (p.advance [c])
    rw [← Position.advance_append] at hcalls
    exact .more hcall hcalls
  | case4 c rest hblank hmark hquote hspan =>
    have hcall : Excerpt.nextToken? ⟨p, c :: rest⟩ =
        .error (SyntaxError.at' p .unmatchedQuote) := by
      unfold Excerpt.nextToken?
      rw [Excerpt.trimStart_cons (by simpa using hblank)]
      simp only [hmark, hquote, hspan, Bool.false_eq_true, if_false, if_true]
    exact .stuck hcall
  | case5 c rest hblank hmark hquote body after hspan lexemes fault hr ih =>
    rw [hr] at ih
    have hcall : Excerpt.nextToken? ⟨p, c :: rest⟩ =
        .ok (some (⟨.string, ⟨{ p with offset := (p.next c).offset }, body⟩⟩,
          ⟨p.advance (c :: body ++ [c]), after⟩)) := by
      unfold Excerpt.nextToken?
      rw [Excerpt.trimStart_cons (by simpa using hblank)]
      simp only [hmark, hquote, hspan, Bool.false_eq_true, if_false, if_true]
    have hcalls := ih (p.advance (c :: body ++ [c]))
    rw [← Position.advance_append] at hcalls
    exact .more hcall hcalls
  | case6 c rest hblank hmark hquote hspan =>
    have hcall : Excerpt.nextToken? ⟨p, c :: rest⟩ =
        .error (SyntaxError.at' p .unterminatedBracket) := by
      unfold Excerpt.nextToken?
      rw [Excerpt.trimStart_cons (by simpa using hblank)]
      simp only [hmark, hquote, hspan, Bool.false_eq_true, if_false]
    exact .stuck hcall
  | case7 c rest hblank hmark hquote word after hspan lexemes fault hr ih =>
    rw [hr] at ih
    have hcall : Excerpt.nextToken? ⟨p, c :: rest⟩ =
        .ok (some
          (⟨if Literal.isNumberLiteral (c :: word) then .number else .word, ⟨p, c :: word⟩⟩,
          ⟨p.advance (c :: word), after⟩)) := by
      unfold Excerpt.nextToken?
      rw [Excerpt.trimStart_cons (by simpa using hblank)]
      simp only [hmark, hquote, hspan, Bool.false_eq_true, if_false]
    have hcalls := ih (p.advance (c :: word))
    rw [← Position.advance_append] at hcalls
    exact .more hcall hcalls

/-- The calls on an excerpt have one outcome. -/
theorem Tokenizes.unique {e : Excerpt} {tokens tokens' : List Token}
    {fault fault' : Option SyntaxError} (h : Tokenizes e tokens fault)
    (h' : Tokenizes e tokens' fault') : tokens = tokens' ∧ fault = fault' := by
  induction h generalizing tokens' fault' with
  | done call => cases h' <;> simp_all
  | stuck call => cases h' <;> simp_all
  | @more e rest t tokens fault call calls ih =>
    cases h' with
    | done call' => simp_all
    | stuck call' => simp_all
    | @more _ rest' t' tokens' _ call' calls' =>
      rw [call] at call'
      obtain ⟨rfl, rfl⟩ : t = t' ∧ rest = rest' := by simpa using call'
      obtain ⟨rfl, rfl⟩ := ih calls'
      exact ⟨rfl, rfl⟩

/-- **Reading the tokens of a tag is calling for the next one** until the end or a failure. -/
theorem tokenizes_iff {e : Excerpt} {tokens : List Token} {fault : Option SyntaxError} :
    Tokenizes e tokens fault ↔ (readTokens e).tokens = tokens ∧ (readTokens e).fault = fault := by
  have hcalls : Tokenizes e (readTokens e).tokens (readTokens e).fault :=
    tokenizes_cutLexemes e.start e.chars
  constructor
  · exact hcalls.unique
  · rintro ⟨rfl, rfl⟩
    exact hcalls

/-! ## Tokens in their quotes -/

/-- How a token at a place is written: a string between two quotes, anything else as it is. -/
inductive Token.WrittenAt (p : Position) : Token → List Char → Prop where
  | bare {kind : TokenKind} {cs : List Char} (unquoted : kind ≠ .string) :
    WrittenAt p ⟨kind, ⟨p, cs⟩⟩ cs
  | quoted {quote : Char} {body : List Char} (marks : isQuote quote = true) :
    WrittenAt p ⟨.string, ⟨{ p with offset := (p.next quote).offset }, body⟩⟩
      (quote :: body ++ [quote])

/-- **Tokens that make up an excerpt**: strings are put back between their quotes, and nothing but
blanks stands in front of a token and behind the last. -/
inductive Rebuilds : Excerpt → List Token → Prop where
  | done {e : Excerpt} (blanks : ∀ c ∈ e.chars, Text.isBlank c = true) : Rebuilds e []
  | more {p : Position} {before written rest : List Char} {t : Token} {tokens : List Token}
    (blanks : ∀ c ∈ before, Text.isBlank c = true)
    (stands : t.WrittenAt (p.advance before) written)
    (behind : Rebuilds ⟨(p.advance before).advance written, rest⟩ tokens) :
    Rebuilds ⟨p, before ++ written ++ rest⟩ (t :: tokens)

/-- What a call finds stands behind blanks, as it is written, in front of the rest. -/
theorem Excerpt.nextToken?_eq_some {e rest : Excerpt} {t : Token}
    (h : e.nextToken? = .ok (some (t, rest))) :
    ∃ written, Text.trimStart e.chars = written ++ rest.chars ∧
      t.WrittenAt e.trimStart.start written ∧
      rest.start = e.trimStart.start.advance written := by
  have hchars : e.trimStart.chars = Text.trimStart e.chars := by rw [e.trimStart_eq]
  rw [← hchars]
  unfold nextToken? at h
  simp only at h
  split at h
  · simp at h
  · next c more hcons =>
    rw [hcons]
    split at h
    · simp only [Except.ok.injEq, Option.some.injEq, Prod.mk.injEq] at h
      obtain ⟨rfl, rfl⟩ := h
      exact ⟨[c], rfl, .bare (by simp), rfl⟩
    · split at h
      · next hquote =>
        split at h
        · cases h
        · next body after hspan =>
          simp only [Except.ok.injEq, Option.some.injEq, Prod.mk.injEq] at h
          obtain ⟨rfl, rfl⟩ := h
          refine ⟨c :: body ++ [c], ?_, .quoted hquote, rfl⟩
          rw [eq_append_of_spanString? hspan]
          simp
      · split at h
        · cases h
        · next word after hspan =>
          simp only [Except.ok.injEq, Option.some.injEq, Prod.mk.injEq] at h
          obtain ⟨rfl, rfl⟩ := h
          refine ⟨c :: word, ?_, .bare ?_, rfl⟩
          · rw [eq_append_of_spanWord? hspan]
            rfl
          · split <;> simp

/-- Nothing is found only where nothing but blanks is left. -/
theorem Excerpt.nextToken?_eq_none {e : Excerpt} (h : e.nextToken? = .ok none) :
    ∀ c ∈ e.chars, Text.isBlank c = true := by
  have hnil : Text.trimStart e.chars = [] := by
    have hchars : e.trimStart.chars = Text.trimStart e.chars := by rw [e.trimStart_eq]
    rw [← hchars]
    unfold nextToken? at h
    simp only at h
    split at h
    · assumption
    · split at h
      · simp at h
      · split at h
        · split at h <;> simp at h
        · split at h <;> simp at h
  have hsplit := Text.eq_append_trimStart e.chars
  rw [hnil, List.append_nil] at hsplit
  rw [hsplit]
  exact List.all_eq_true.mp List.all_takeWhile

/-- **The tokens up to the end make up the excerpt.** -/
theorem Tokenizes.rebuilds {e : Excerpt} {tokens : List Token} {fault : Option SyntaxError}
    (h : Tokenizes e tokens fault) (hfault : fault = none) : Rebuilds e tokens := by
  induction h with
  | done call => exact .done (Excerpt.nextToken?_eq_none call)
  | stuck => cases hfault
  | @more e rest t tokens fault call _ ih =>
    obtain ⟨p, cs⟩ := e
    obtain ⟨q, after⟩ := rest
    obtain ⟨written, hchars, hwritten, hstart⟩ := Excerpt.nextToken?_eq_some call
    rw [Excerpt.trimStart_eq] at hwritten hstart
    simp only at hchars hwritten hstart
    subst hstart
    have hblanks : ∀ c ∈ cs.takeWhile Text.isBlank, Text.isBlank c = true :=
      List.all_eq_true.mp List.all_takeWhile
    rw [Text.eq_append_trimStart cs, hchars, ← List.append_assoc]
    exact .more hblanks hwritten (ih hfault)

/-! ## Two readers of quotes -/

/-- A word without brackets always ends. -/
theorem spanWord?_ne_none {cs : List Char} (h : '[' ∉ cs) : spanWord? false cs ≠ none := by
  induction cs with
  | nil => simp [spanWord?]
  | cons c rest ih =>
    rw [List.mem_cons, not_or] at h
    by_cases hends : endsWord c = true
    · rw [spanWord?_stops (stopsAt_cons.mpr hends)]
      simp
    · have hplain : ¬c = '[' := fun heq => h.1 heq.symm
      rw [spanWord?_goesOn (by simpa using hends), decide_eq_false hplain]
      simpa using ih h.2

/-- **The two readers of quotes agree**: where a tag has an inside, every string in it ends for the
reader of lexemes too, so that one never fails if there is no bracket. -/
theorem TagInside.cutLexemes_snd {close after inner : List Char}
    (h : TagInside close after inner) (hopen : '[' ∉ inner) : (cutLexemes inner).2 = none := by
  fun_induction cutLexemes inner with
  | case1 => rfl
  | case2 c rest hblank lexemes fault hr ih =>
    rw [hr] at ih
    have hsplit := Text.eq_append_trimStart rest
    have hplain : ∀ d ∈ c :: rest.takeWhile Text.isBlank, isQuote d = false := by
      intro d hd
      refine not_isQuote_of_isBlank ?_
      rcases List.mem_cons.mp hd with rfl | hd
      · exact hblank
      · exact List.all_eq_true.mp List.all_takeWhile d hd
    rw [hsplit, ← List.cons_append] at h hopen
    rw [List.mem_append, not_or] at hopen
    exact ih (h.of_append hplain) hopen.2
  | case3 c rest hblank hmark lexemes fault hr ih =>
    rw [hr] at ih
    have hplain : ∀ d ∈ [c], isQuote d = false := by
      intro d hd
      obtain rfl := List.mem_singleton.mp hd
      exact not_isQuote_of_isMark hmark
    rw [← List.singleton_append] at h
    exact ih (h.of_append hplain) (List.not_mem_of_not_mem_cons hopen)
  | case4 c rest _ _ hquote hspan =>
    obtain ⟨body, inner, rfl, hbody, -⟩ := h.of_quote hquote
    rw [spanString?_of_stringBody hbody (ne_backslash_of_isQuote hquote)] at hspan
    cases hspan
  | case5 c rest _ _ hquote body more hspan lexemes fault hr ih =>
    rw [hr] at ih
    obtain ⟨body', inner, rfl, hbody, hinside⟩ := h.of_quote hquote
    rw [spanString?_of_stringBody hbody (ne_backslash_of_isQuote hquote)] at hspan
    obtain ⟨rfl, rfl⟩ : body' = body ∧ inner = more := by simpa using hspan
    refine ih hinside ?_
    intro hmem
    exact hopen (by simp [hmem])
  | case6 c rest _ _ _ hspan =>
    rw [List.mem_cons, not_or] at hopen
    have hplain : ¬c = '[' := fun heq => hopen.1 heq.symm
    rw [decide_eq_false hplain] at hspan
    exact absurd hspan (spanWord?_ne_none hopen.2)
  | case7 c rest hblank hmark hquote word more hspan lexemes fault hr ih =>
    rw [hr] at ih
    have hgoes : endsWord c = false := by simp [endsWord, hblank, hmark, hquote]
    have hword := (wordBody_of_spanWord? hspan).1.cons hgoes
    rw [eq_append_of_spanWord? hspan, ← List.cons_append] at h hopen
    rw [List.mem_append, not_or] at hopen
    have hplain : ∀ d ∈ c :: word, isQuote d = false := by
      intro d hd
      have hinside := hword.endsWord_eq_false hopen.1 d hd
      exact (endsWord_eq_false.mp hinside).2.2
    exact ih (h.of_append hplain) hopen.2

/-! ## Tags of templates -/

/-- Every piece that a call finds has its shape, also before a failure. -/
theorem Scans.shaped {cs : List Char} {pieces : List Piece} {fault : Option PieceFault}
    (h : Scans cs pieces fault) {piece : Piece} (hpiece : piece ∈ pieces) :
    ∃ after, piece.Shaped after := by
  induction h with
  | done => cases hpiece
  | stuck => cases hpiece
  | more call _ ih =>
    rcases List.mem_cons.mp hpiece with rfl | hlater
    · exact ⟨_, (nextPiece?_eq_some_iff.mp call).2⟩
    · exact ih hlater

/-- **The two readers of quotes agree on every tag of a template.** If there is no opening bracket
in it, the calls for the next token reach the end without a failure, and the tokens that they find,
strings between their quotes and blanks put back, make up the inside of the tag. -/
theorem tag_tokenizes (text : String) {l : LocatedPiece} (hl : l ∈ (readPieces text).1)
    {strip : Strip} {braces : Braces} {inner : List Char} (htag : l.piece = .tag strip braces inner)
    (hopen : '[' ∉ inner) :
    ∃ tokens, Tokenizes (innerExcerpt l.start strip braces inner) tokens none ∧
      Rebuilds (innerExcerpt l.start strip braces inner) tokens := by
  have hmem : l.piece ∈ (cutPieces text.toList).1 := by
    have hpieces := List.mem_map_of_mem (f := LocatedPiece.piece) hl
    rwa [show (readPieces text).1 = locatePieces .start (cutPieces text.toList).1 from rfl,
      map_piece_locatePieces] at hpieces
  obtain ⟨after, hshaped⟩ := (scans_cutPieces text.toList).shaped hmem
  rw [htag] at hshaped
  cases hshaped with
  | tag _ _ _ hinside =>
    have hnone := hinside.cutLexemes_snd hopen
    have hfault : (readTokens (innerExcerpt l.start strip braces inner)).fault = none := by
      simp [readTokens, innerExcerpt, hnone]
    have hcalls := tokenizes_iff.mpr ⟨rfl, hfault⟩
    exact ⟨_, hcalls, hcalls.rebuilds rfl⟩

/-- Escapes, the other quote, braces of an end and a tilde in strings, quotes that touch words, and
a backslash outside of quotes. -/
def quotesText : String :=
  "a \x7b\x7b~(f \\ a\"\\\"\x7d\x7d~\" k='\\\\\"'b) ~\x7d\x7d \x7b\x7b 'open"

/-- The inside of its tag. -/
def quotesInner : List Char := "(f \\ a\"\\\"\x7d\x7d~\" k='\\\\\"'b) ".toList

theorem quotesText_tokenizes :
    (∃ l ∈ (readPieces quotesText).1, l.piece = .tag ⟨true, true⟩ .double quotesInner ∧
      ∃ tokens, Tokenizes (innerExcerpt l.start ⟨true, true⟩ .double quotesInner) tokens none ∧
        Rebuilds (innerExcerpt l.start ⟨true, true⟩ .double quotesInner) tokens) ∧
    '[' ∉ quotesInner := by
  have hopen : '[' ∉ quotesInner := by decide +kernel
  have hl : LocatedPiece.mk ⟨1, 3, 2⟩ (.tag ⟨true, true⟩ .double quotesInner) ∈
      (readPieces quotesText).1 := by decide +kernel
  exact ⟨⟨_, hl, rfl, tag_tokenizes quotesText hl rfl hopen⟩, hopen⟩

end TypedTemplate
