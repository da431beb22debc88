import TypedTemplate.Literal
import TypedTemplate.SyntaxError

/-!
# Tokens of a tag

The inside of a tag is cut into lexemes: blanks, single marks, quoted strings, and words, in which
brackets may quote any character. A lexeme keeps its quotes, so that the lexemes one after the
other make up the inside of the tag.

* `cutLexemes`: the lexemes of a text, and the fault that ends them early, if any.
* `flatMap_chars_cutLexemes`: the lexemes and what a fault leaves make up the text.
* `readTokens`: the lexemes other than blanks, with their positions.
-/

namespace TypedTemplate

/-! ## Lexemes -/

/-- A part of the inside of a tag, as it was written. -/
inductive Lexeme where
  | blank (cs : List Char)
  | mark (c : Char)
  | string (quote : Char) (body : List Char)
  | word (cs : List Char)
  deriving DecidableEq

/-- The text of a lexeme. -/
def Lexeme.chars : Lexeme → List Char
  | .blank cs => cs
  | .mark c => [c]
  | .string quote body => quote :: body ++ [quote]
  | .word cs => cs

/-- A character that is a lexeme by itself. -/
def isMark (c : Char) : Bool := c = '(' || c = ')' || c = '='

/-- A character that opens and closes a string. -/
def isQuote (c : Char) : Bool := c = '"' || c = '\''

/-- The body of a string up to its closing quote, and what follows that. A backslash keeps the next
character from closing the string. -/
def spanString? (quote : Char) : List Char → Option (List Char × List Char)
  | [] => none
  | c :: rest =>
    if c = '\\' then
      match rest with
      | [] => none
      | d :: rest => (spanString? quote rest).map fun r => (c :: d :: r.1, r.2)
    else if c = quote then some ([], rest)
    else (spanString? quote rest).map fun r => (c :: r.1, r.2)

/-- The rest of a word, and what follows it. Inside brackets every character belongs to the word up
to the closing bracket, which may not be missing. -/
def spanWord? (inside : Bool) : List Char → Option (List Char × List Char)
  | [] => if inside then none else some ([], [])
  | c :: rest =>
    if inside then (spanWord? (c ≠ ']') rest).map fun r => (c :: r.1, r.2)
    else if Text.isBlank c || isMark c || isQuote c then some ([], c :: rest)
    else (spanWord? (c = '[') rest).map fun r => (c :: r.1, r.2)

theorem eq_append_of_spanString? {quote : Char} {cs body rest : List Char}
    (h : spanString? quote cs = some (body, rest)) : cs = body ++ quote :: rest := by
  fun_induction spanString? quote cs generalizing body with
  | case1 => cases h
  | case2 => cases h
  | case3 _ _ ih =>
    obtain ⟨⟨b, r⟩, hr, he⟩ := Option.map_eq_some_iff.mp h
    cases he
    simpa using ih hr
  | case4 => simp_all
  | case5 _ _ _ _ ih =>
    obtain ⟨⟨b, r⟩, hr, he⟩ := Option.map_eq_some_iff.mp h
    cases he
    simpa using ih hr

theorem eq_append_of_spanWord? {inside : Bool} {cs word rest : List Char}
    (h : spanWord? inside cs = some (word, rest)) : cs = word ++ rest := by
  fun_induction spanWord? inside cs generalizing word with
  | case1 => cases h
  | case2 => simp_all
  | case3 _ _ ih =>
    obtain ⟨⟨b, r⟩, hr, he⟩ := Option.map_eq_some_iff.mp h
    cases he
    simpa using ih hr
  | case4 => simp_all
  | case5 _ _ _ _ _ ih =>
    obtain ⟨⟨b, r⟩, hr, he⟩ := Option.map_eq_some_iff.mp h
    cases he
    simpa using ih hr

/-! ## All lexemes -/

/-- A fault, and the text from it on. -/
structure LexemeFault where
  cause : SyntaxError.Cause
  rest : List Char

/-- What a fault leaves of the text. -/
def LexemeFault.unread : Option LexemeFault → List Char
  | none => []
  | some fault => fault.rest

/-- The lexemes of a text, and the fault that ends them early, if any. -/
def cutLexemes (cs : List Char) : List Lexeme × Option LexemeFault :=
  match cs with
  | [] => ([], none)
  | c :: rest =>
    if Text.isBlank c then
      let (lexemes, fault) := cutLexemes (Text.trimStart rest)
      (.blank (c :: rest.takeWhile Text.isBlank) :: lexemes, fault)
    else if isMark c then
      let (lexemes, fault) := cutLexemes rest
      (.mark c :: lexemes, fault)
    else if isQuote c then
      match _h : spanString? c rest with
      | none => ([], some ⟨.unmatchedQuote, c :: rest⟩)
      | some (body, after) =>
        let (lexemes, fault) := cutLexemes after
        (.string c body :: lexemes, fault)
    else
      match _h : spanWord? (c = '[') rest with
      | none => ([], some ⟨.unterminatedBracket, c :: rest⟩)
      | some (word, after) =>
        let (lexemes, fault) := cutLexemes after
        (.word (c :: word) :: lexemes, fault)
termination_by cs.length
decreasing_by
  · have := Text.length_trimStart_le rest
    simp only [List.length_cons]
    omega
  · simp
  · have h : spanString? c rest = some (body, after) := by assumption
    have := congrArg List.length (eq_append_of_spanString? h)
    simp only [List.length_cons, List.length_append] at this ⊢
    omega
  · have h : spanWord? (c = '[') rest = some (word, after) := by assumption
    have := congrArg List.length (eq_append_of_spanWord? h)
    simp only [List.length_cons, List.length_append] at this ⊢
    omega

/-- The lexemes, and what a fault leaves, make up the text. -/
theorem flatMap_chars_cutLexemes (cs : List Char) :
    (cutLexemes cs).1.flatMap Lexeme.chars ++ LexemeFault.unread (cutLexemes cs).2 = cs := by
  fun_induction cutLexemes cs with
  | case1 => rfl
  | case2 c rest _ lexemes fault hr ih =>
    rw [hr] at ih
    conv => rhs; rw [Text.eq_append_trimStart rest]
    simpa [Lexeme.chars] using ih
  | case3 c rest _ _ lexemes fault hr ih =>
    rw [hr] at ih
    simpa [Lexeme.chars] using ih
  | case4 => simp [LexemeFault.unread]
  | case5 c rest _ _ _ body after h lexemes fault hr ih =>
    rw [hr] at ih
    rw [eq_append_of_spanString? h]
    simpa [Lexeme.chars] using ih
  | case6 => simp [LexemeFault.unread]
  | case7 c rest _ _ _ word after h lexemes fault hr ih =>
    rw [hr] at ih
    rw [eq_append_of_spanWord? h]
    simpa [Lexeme.chars] using ih

/-! ## Tokens -/

/-- What a token is. -/
inductive TokenKind where
  | symbol
  | string
  | number
  | word
  deriving DecidableEq

/-- A lexeme that is not blank, with its position. A string loses its quotes; its text then starts
behind the opening quote, while its line and column stay those of the quote. -/
structure Token where
  kind : TokenKind
  excerpt : Excerpt
  deriving DecidableEq

namespace Token

/-- The text of a token. -/
def text (t : Token) : String := t.excerpt.text

/-- The span of a token. -/
def span (t : Token) : Span := t.excerpt.span

/-- The token is a given mark. -/
def isSymbol (t : Token) (c : Char) : Bool := t.kind = .symbol && t.excerpt.chars = [c]

/-- The token of a lexeme at a given place; a blank is none. -/
def ofLexeme? (p : Position) : Lexeme → Option Token
  | .blank _ => none
  | .mark c => some ⟨.symbol, ⟨p, [c]⟩⟩
  | .string quote body => some ⟨.string, ⟨{ p with offset := (p.next quote).offset }, body⟩⟩
  | .word cs => some ⟨if Literal.isNumberLiteral cs then .number else .word, ⟨p, cs⟩⟩

/-- The tokens of lexemes, the first of which stands at a given place. -/
def ofLexemes (p : Position) : List Lexeme → List Token
  | [] => []
  | l :: rest => (ofLexeme? p l).toList ++ ofLexemes (p.advance l.chars) rest

end Token

/-- The tokens of a tag, and how they end: at a position, or with a fault. -/
structure Tokens where
  tokens : List Token
  stop : Position
  fault : Option SyntaxError

/-- The tokens of the inside of a tag. -/
def readTokens (inner : Excerpt) : Tokens :=
  let (lexemes, fault) := cutLexemes inner.chars
  let stop := inner.start.advance (lexemes.flatMap Lexeme.chars)
  ⟨Token.ofLexemes inner.start lexemes, stop, fault.map fun f => SyntaxError.at' stop f.cause⟩

end TypedTemplate
