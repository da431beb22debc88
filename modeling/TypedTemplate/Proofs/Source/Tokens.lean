import TypedTemplate.Group
import TypedTemplate.Proofs.Outcome
import TypedTemplate.Proofs.Source.Position

/-!
# Tokens where they stand

The inside of a tag is an excerpt of the text. Its lexemes make it up one behind the other, so each
token stands in the text where its position says, and so do the parentheses of a group and the place
where a group ends.

* `Token.TrueIn`: a true token; `Token.StandsIn`: where it stands, a string between its quotes.
* `Tokens.StandsIn`: the tokens of a tag, and the position or fault they end with.
* **`Excerpt.StandsIn.readTokens`**: the tokens of an excerpt of a text stand in the text.
* `Group.StandsIn`: a group with all its tokens; **`Tokens.StandsIn.groups`**: the groups of a tag.
-/

namespace TypedTemplate

/-! ## Lexemes -/

/-- A string is between quotes. -/
def Lexeme.IsQuoted : Lexeme → Prop
  | .string quote _ => isQuote quote = true
  | _ => True

theorem isQuoted_of_mem_cutLexemes {cs : List Char} {l : Lexeme} (h : l ∈ (cutLexemes cs).1) :
    l.IsQuoted := by
  fun_induction cutLexemes cs with
  | case1 => simp at h
  | case2 _ _ _ _ _ hr ih =>
    rw [hr] at ih
    rcases List.mem_cons.mp h with rfl | h
    · trivial
    · exact ih h
  | case3 _ _ _ _ _ _ hr ih =>
    rw [hr] at ih
    rcases List.mem_cons.mp h with rfl | h
    · trivial
    · exact ih h
  | case4 => simp at h
  | case5 _ _ _ _ hquote _ _ _ _ _ hr ih =>
    rw [hr] at ih
    rcases List.mem_cons.mp h with rfl | h
    · exact hquote
    · exact ih h
  | case6 => simp at h
  | case7 _ _ _ _ _ _ _ _ _ _ hr ih =>
    rw [hr] at ih
    rcases List.mem_cons.mp h with rfl | h
    · trivial
    · exact ih h

/-! ## Tokens -/

/-- **A true token**: its span is true, or that of a string inside its quotes. -/
def Token.TrueIn (text : String) (t : Token) : Prop :=
  if t.kind = .string then t.span.QuotedIn text else t.span.TrueIn text

/-- A token is found in a text where its position says, a string behind its opening quote. -/
inductive Token.StandsIn (text : String) : Token → Prop where
  | plain {kind : TokenKind} {e : Excerpt} (stands : e.StandsIn text) (unquoted : kind ≠ .string) :
    StandsIn text ⟨kind, e⟩
  | string {before body after : List Char} {quote : Char}
    (split : text.toList = before ++ (quote :: body) ++ after) (marks : isQuote quote = true) :
    StandsIn text ⟨.string,
      ⟨{ Position.start.advance before with offset := byteSize before + 1 }, body⟩⟩

theorem utf8Size_of_isQuote {c : Char} (h : isQuote c = true) : c.utf8Size = 1 := by
  simp only [isQuote, Bool.or_eq_true, decide_eq_true_eq] at h
  rcases h with rfl | rfl <;> decide

namespace Token

variable {text : String} {t : Token}

theorem StandsIn.trueIn (h : t.StandsIn text) : t.TrueIn text := by
  cases h with
  | @plain kind e stands unquoted =>
    unfold TrueIn
    rw [if_neg unquoted]
    exact stands.span_trueIn
  | @string before body after quote split marks =>
    have hquote : byteSize (before ++ [quote]) = byteSize before + 1 := by
      rw [byteSize_append, byteSize_singleton, utf8Size_of_isQuote marks]
    have hsplit : text.toList = (before ++ [quote]) ++ body ++ after := by
      rw [split]
      simp
    have hfront : text.toList = before ++ ([quote] ++ body ++ after) := by
      rw [split]
      simp
    unfold TrueIn
    rw [if_pos rfl]
    refine ⟨?_, ⟨quote, marks, ?_⟩, ?_⟩
    · refine Span.within_of_append hsplit hquote.symm ?_
      rw [byteSize_append, hquote]
      exact Position.offset_advance _ body
    · have hrest : text.toList = (before ++ [quote]) ++ (body ++ after) := by
        rw [split]
        simp
      have hbehind : charsBefore text (byteSize before + 1) = before ++ [quote] := by
        rw [← hquote]
        exact charsBefore_of_append hrest
      have hbefore : charsBefore text (byteSize before) = before := charsBefore_of_append hfront
      simp [span, Excerpt.span, hbehind, hbefore]
    · have htrue := Position.trueIn_advance hfront
      have hoffset : (Position.start.advance before).offset = byteSize before := by
        simp [Position.offset_advance, Position.start]
      rw [← hoffset]
      exact htrue

/-- A fault that is blamed on a token is true. -/
theorem StandsIn.fault (h : t.StandsIn text) (cause : SyntaxError.Cause) :
    (SyntaxError.at' t.excerpt.start cause).TrueIn text := by
  cases h with
  | plain stands => exact SyntaxError.trueIn_at stands.start_trueIn cause
  | @string before body after quote split =>
    rw [List.append_assoc] at split
    exact ⟨_, Position.trueIn_advance split⟩

theorem StandsIn.excerpt (h : t.StandsIn text) (hkind : t.kind ≠ .string) :
    t.excerpt.StandsIn text := by
  cases h with
  | plain stands => exact stands
  | string => exact absurd rfl hkind

/-- The token of a lexeme stands where the lexeme does. -/
theorem standsIn_of_ofLexeme? {before after : List Char} {l : Lexeme}
    (htext : text.toList = before ++ l.chars ++ after) (hquoted : l.IsQuoted)
    (h : ofLexeme? (Position.start.advance before) l = some t) : t.StandsIn text := by
  cases l with
  | blank cs => simp [ofLexeme?] at h
  | mark c =>
    cases h
    exact .plain ⟨before, after, htext, rfl⟩ (by decide)
  | word cs =>
    cases h
    refine .plain ⟨before, after, htext, rfl⟩ ?_
    split <;> decide
  | string quote body =>
    have hoffset : ((Position.start.advance before).next quote).offset = byteSize before + 1 := by
      rw [Position.offset_next, Position.offset_advance, utf8Size_of_isQuote hquoted]
      simp [Position.start]
    simp only [ofLexeme?, Option.some.injEq, hoffset] at h
    subst h
    have hsplit : text.toList = before ++ (quote :: body) ++ ([quote] ++ after) := by
      rw [htext]
      simp [Lexeme.chars]
    exact .string hsplit hquoted

/-- The tokens of lexemes that stand one behind the other in a text stand in it. -/
theorem standsIn_of_mem_ofLexemes {ls : List Lexeme} {before after : List Char}
    (htext : text.toList = before ++ ls.flatMap Lexeme.chars ++ after)
    (hquoted : ∀ l ∈ ls, l.IsQuoted) (h : t ∈ ofLexemes (Position.start.advance before) ls) :
    t.StandsIn text := by
  induction ls generalizing before with
  | nil => simp [ofLexemes] at h
  | cons l ls ih =>
    rw [List.forall_mem_cons] at hquoted
    rw [ofLexemes, List.mem_append, ← Position.advance_append] at h
    rcases h with hfirst | hrest
    · have hsplit : text.toList = before ++ l.chars ++ (ls.flatMap Lexeme.chars ++ after) := by
        rw [htext]
        simp
      exact standsIn_of_ofLexeme? hsplit hquoted.1 (Option.mem_toList.mp hfirst)
    · refine ih ?_ hquoted.2 hrest
      rw [htext]
      simp

end Token

/-- The tokens of a tag stand in a text, and they end at a true position or with a true fault. -/
structure Tokens.StandsIn (text : String) (ts : Tokens) : Prop where
  tokens : ∀ t ∈ ts.tokens, t.StandsIn text
  stop : ts.stop.TrueIn text
  fault : ∀ e, ts.fault = some e → e.TrueIn text

/-- **The tokens of an excerpt of a text stand in the text.** -/
theorem Excerpt.StandsIn.readTokens {text : String} {inner : Excerpt}
    (h : inner.StandsIn text) : (TypedTemplate.readTokens inner).StandsIn text := by
  have hchars := flatMap_chars_cutLexemes inner.chars
  have hstop := h.advance hchars.symm
  refine ⟨?_, hstop, ?_⟩
  · obtain ⟨before, after, htext, hstart⟩ := h
    intro t ht
    have ht' : t ∈ Token.ofLexemes inner.start (cutLexemes inner.chars).1 := ht
    have hsplit : text.toList = before ++ (cutLexemes inner.chars).1.flatMap Lexeme.chars ++
        (LexemeFault.unread (cutLexemes inner.chars).2 ++ after) := by
      rw [htext]
      conv => lhs; rw [← hchars]
      simp
    rw [hstart] at ht'
    exact Token.standsIn_of_mem_ofLexemes hsplit (fun l hl => isQuoted_of_mem_cutLexemes hl) ht'
  · intro e he
    obtain ⟨f, -, rfl⟩ := Option.map_eq_some_iff.mp he
    exact SyntaxError.trueIn_at hstop f.cause

/-! ## Groups -/

/-- **A group stands in a text**: its tokens do, an opening parenthesis is a mark, and a group ends
at a true position. -/
inductive Group.StandsIn (text : String) : Group → Prop where
  | token {t : Token} (stands : t.StandsIn text) : StandsIn text (.token t)
  | nested {opening : Token} {groups : List Group} {closing : Closing}
    (stands : opening.StandsIn text) (symbol : opening.kind = .symbol)
    (inner : ∀ g ∈ groups, StandsIn text g) (ends : closing.position.TrueIn text) :
    StandsIn text (.nested opening groups closing)
  | broken {e : SyntaxError} (blamed : e.TrueIn text) : StandsIn text (.broken e)

/-- An open group whose parts stand in a text. -/
structure OpenGroup.StandsIn (text : String) (g : OpenGroup) : Prop where
  opening : g.opening.StandsIn text
  symbol : g.opening.kind = .symbol
  before : ∀ x ∈ g.before, x.StandsIn text

section Groups

variable {text : String}

/-- A group that is closed stands in front of what follows it in the group around. -/
theorem OpenGroup.StandsIn.close {g : OpenGroup} (hg : g.StandsIn text) {current : List Group}
    (hcurrent : ∀ x ∈ current, x.StandsIn text) {closing : Closing}
    (hends : closing.position.TrueIn text) :
    ∀ x ∈ Group.nested g.opening current.reverse closing :: g.before, x.StandsIn text := by
  refine List.forall_mem_cons.mpr ⟨.nested hg.opening hg.symbol ?_ hends, hg.before⟩
  intro x hx
  exact hcurrent x (List.mem_reverse.mp hx)

theorem standsIn_closeAll {stop : Position} (hstop : stop.TrueIn text) {outer : List OpenGroup}
    {current : List Group} (hcurrent : ∀ x ∈ current, x.StandsIn text)
    (houter : ∀ g ∈ outer, g.StandsIn text) : ∀ x ∈ closeAll stop current outer,
      x.StandsIn text := by
  induction outer generalizing current with
  | nil =>
    intro x hx
    exact hcurrent x (List.mem_reverse.mp hx)
  | cons g outer ih =>
    rw [List.forall_mem_cons] at houter
    exact ih (houter.1.close hcurrent hstop) houter.2

theorem kind_of_isSymbol {t : Token} {c : Char} (h : t.isSymbol c = true) : t.kind = .symbol := by
  simp only [Token.isSymbol, Bool.and_eq_true, decide_eq_true_eq] at h
  exact h.1

/-- Gathering tokens that stand in a text keeps to what stands in it. -/
theorem standsIn_gather {stop : Position} (hstop : stop.TrueIn text) {fault : Option SyntaxError}
    (hfault : ∀ e, fault = some e → e.TrueIn text) {tokens : List Token}
    (htokens : ∀ t ∈ tokens, t.StandsIn text) {outer : List OpenGroup} {current : List Group}
    (houter : ∀ g ∈ outer, g.StandsIn text) (hcurrent : ∀ x ∈ current, x.StandsIn text) :
    ∀ x ∈ gather stop fault outer current tokens, x.StandsIn text := by
  induction tokens generalizing outer current with
  | nil =>
    unfold gather
    split
    · next e =>
      exact standsIn_closeAll hstop (List.forall_mem_cons.mpr ⟨.broken (hfault e rfl), hcurrent⟩)
        houter
    · exact standsIn_closeAll hstop hcurrent houter
  | cons t rest ih =>
    rw [List.forall_mem_cons] at htokens
    obtain ⟨ht, hrest⟩ := htokens
    have hpush : ∀ x ∈ Group.token t :: current, x.StandsIn text :=
      List.forall_mem_cons.mpr ⟨.token ht, hcurrent⟩
    unfold gather
    by_cases hopen : t.isSymbol '(' = true
    · rw [if_pos hopen]
      refine ih hrest (List.forall_mem_cons.mpr ⟨⟨ht, kind_of_isSymbol hopen, hcurrent⟩, houter⟩) ?_
      simp
    · rw [if_neg hopen]
      cases outer with
      | nil => exact ih hrest houter hpush
      | cons g outer =>
        rw [List.forall_mem_cons] at houter
        by_cases hclose : t.isSymbol ')' = true
        · simp only [hclose, if_true]
          have hplace : t.excerpt.start.TrueIn text :=
            (ht.excerpt (by simp [kind_of_isSymbol hclose])).start_trueIn
          exact ih hrest houter.2 (houter.1.close hcurrent hplace)
        · simp only [hclose]
          exact ih hrest (List.forall_mem_cons.mpr houter) hpush

/-- **The groups of a tag stand in the text** that its tokens stand in. -/
theorem Tokens.StandsIn.groups {ts : Tokens} (h : ts.StandsIn text) :
    ∀ g ∈ ts.groups, g.StandsIn text :=
  standsIn_gather h.stop h.fault h.tokens (by simp) (by simp)

end Groups

end TypedTemplate
