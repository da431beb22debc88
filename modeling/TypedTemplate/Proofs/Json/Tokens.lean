import TypedTemplate.Json.Basic
import TypedTemplate.Json.Token

/-!
# The tokens of a printed tree

The compact text of a tree is taken apart into tokens again. A mark, a word and a string end by
themselves; a numeral goes on for as long as it can, so what stands behind it has to end it.

* `Numeral.Ends`: texts that go on with no numeral; **`Numeral.scan?_append`**: in front of them a
  numeral is scanned as it is alone.
* `scanString?_escape`: an escaped text is scanned back; `textOf?_chars`: and spelled.
* `Lexed`: a text with its tokens, in front of another.
* `Json.WellSpelled`: the trees whose numbers are numerals.
* **`Json.WellSpelled.lexed`**: the tokens of a printed tree.
-/

namespace TypedTemplate

/-! ## Numerals in front of other text -/

namespace Decimal.Numeral

/-- **The text goes on with no numeral**: it does not start with a digit, a point, or the mark of an
exponent. -/
def Ends (rest : List Char) : Prop :=
  ∀ c ∈ rest.head?, c.isDigit = false ∧ c ≠ '.' ∧ c ≠ 'e' ∧ c ≠ 'E'

theorem ends_nil : Ends [] := by
  intro c hc
  cases hc

theorem ends_cons {c : Char} (rest : List Char)
    (h : c.isDigit = false ∧ c ≠ '.' ∧ c ≠ 'e' ∧ c ≠ 'E') : Ends (c :: rest) := by
  intro d hd
  cases hd
  exact h

variable {cs rest : List Char}

theorem spanDigits_append_of_ends (h : Ends rest) :
    spanDigits (cs ++ rest) = ((spanDigits cs).1, (spanDigits cs).2 ++ rest) := by
  unfold spanDigits
  induction cs with
  | nil =>
    cases rest with
    | nil => rfl
    | cons c rest =>
      have hdigit : c.isDigit = false := (h c rfl).1
      simp [hdigit]
  | cons c cs ih =>
    by_cases hdigit : c.isDigit = true
    · simp only [List.cons_append, List.takeWhile_cons_of_pos hdigit,
        List.dropWhile_cons_of_pos hdigit]
      obtain ⟨htake, hdrop⟩ := Prod.mk.inj ih
      rw [htake, hdrop]
    · simp only [List.cons_append, List.takeWhile_cons_of_neg hdigit,
        List.dropWhile_cons_of_neg hdigit]

theorem scanSign_append (h : cs ≠ []) :
    scanSign (cs ++ rest) = ((scanSign cs).1, (scanSign cs).2 ++ rest) := by
  cases cs with
  | nil => exact absurd rfl h
  | cons c cs =>
    rw [List.cons_append]
    unfold scanSign
    split <;> simp_all

theorem scanFraction_append (h : Ends rest) :
    scanFraction (cs ++ rest) = ((scanFraction cs).1, (scanFraction cs).2 ++ rest) := by
  cases cs with
  | nil =>
    cases rest with
    | nil => rfl
    | cons c rest =>
      have hpoint : c ≠ '.' := (h c rfl).2.1
      simp [scanFraction, hpoint]
  | cons c cs =>
    by_cases hpoint : c = '.'
    · subst hpoint
      simp only [List.cons_append, scanFraction, spanDigits_append_of_ends h]
    · simp [scanFraction, hpoint]

theorem scanExponent_append (h : Ends rest) {exponent : Option Int} {after : List Char}
    (hscan : scanExponent cs = some (exponent, after)) :
    scanExponent (cs ++ rest) = some (exponent, after ++ rest) := by
  cases cs with
  | nil =>
    cases hscan
    cases rest with
    | nil => rfl
    | cons c rest =>
      have hmark := (h c rfl).2.2
      simp [scanExponent, hmark.1, hmark.2]
  | cons c cs =>
    rw [List.cons_append]
    rw [scanExponent] at hscan ⊢
    by_cases hmark : (c = 'e' || c = 'E') = true
    · rw [if_pos hmark] at hscan ⊢
      have hcs : cs ≠ [] := by
        rintro rfl
        cases hscan
      rw [scanSign_append hcs]
      simp only [spanDigits_append_of_ends h] at hscan ⊢
      split at hscan
      · cases hscan
      · next hdigits =>
        rw [if_neg hdigits]
        cases hscan
        rfl
    · rw [if_neg hmark] at hscan ⊢
      cases hscan
      rfl

/-- **A numeral in front of a text that ends it is scanned as it is alone.** -/
theorem scan?_append (h : Ends rest) (hcs : cs ≠ []) {n : Numeral} {after : List Char}
    (hscan : scan? cs = some (n, after)) : scan? (cs ++ rest) = some (n, after ++ rest) := by
  unfold scan? at hscan ⊢
  rw [scanSign_append hcs]
  simp only [spanDigits_append_of_ends h, scanFraction_append h] at hscan ⊢
  split at hscan
  · next exponent behind hexponent =>
    cases hscan
    rw [scanExponent_append h hexponent]
  · cases hscan

end Decimal.Numeral

namespace Json

/-- **The text of a number**: a numeral of JSON, from its first character to its last. -/
structure IsNumeral (cs : List Char) : Prop where
  starts : ∃ c ∈ cs.head?, c = '-' ∨ c.isDigit = true
  scanned : ∃ n, Decimal.Numeral.scan? cs = some (n, []) ∧ isJsonNumeral n = true

/-! ## Strings -/

/-- The escape of a control character by its code. -/
def codeEscape (c : Char) : List Char :=
  ['\\', 'u', '0', '0', Nat.digitChar (c.toNat / 16), Nat.digitChar (c.toNat % 16)]

/-- The characters that are escaped by a letter. -/
def lettered : List Char := ['"', '\\', '\x08', '\x0c', '\n', '\r', '\t']

theorem escape_lettered :
    ∀ c ∈ lettered,
      ∃ letter, escape c = ['\\', letter] ∧ letter ≠ 'u' ∧ letterEscape? letter = some c := by
  unfold lettered
  simp only [List.forall_mem_cons]
  refine ⟨⟨'"', ?_⟩, ⟨'\\', ?_⟩, ⟨'b', ?_⟩, ⟨'f', ?_⟩, ⟨'n', ?_⟩, ⟨'r', ?_⟩, ⟨'t', ?_⟩,
    fun _ hmem => absurd hmem List.not_mem_nil⟩
  all_goals exact ⟨rfl, by decide, rfl⟩

theorem escape_of_not_mem {c : Char} (h : c ∉ lettered) :
    escape c = if c.toNat < 32 then codeEscape c else [c] := by
  unfold lettered at h
  simp only [List.mem_cons, not_or] at h
  obtain ⟨hquote, hbackslash, hback, hfeed, hline, hreturn, htab, -⟩ := h
  unfold escape codeEscape
  rw [if_neg hquote, if_neg hbackslash, if_neg hback, if_neg hfeed, if_neg hline, if_neg hreturn,
    if_neg htab]

/-- A character is escaped by a letter or by its code, or stands for itself. -/
theorem escape_cases (c : Char) :
    (∃ letter, escape c = ['\\', letter] ∧ letter ≠ 'u' ∧ letterEscape? letter = some c) ∨
    (c.toNat < 32 ∧ escape c = codeEscape c) ∨
    (32 ≤ c.toNat ∧ c ≠ '"' ∧ c ≠ '\\' ∧ escape c = [c]) := by
  by_cases hletter : c ∈ lettered
  · exact .inl (escape_lettered c hletter)
  have hescape := escape_of_not_mem hletter
  by_cases hcontrol : c.toNat < 32
  · rw [if_pos hcontrol] at hescape
    exact .inr (.inl ⟨hcontrol, hescape⟩)
  · rw [if_neg hcontrol] at hescape
    refine .inr (.inr ⟨Nat.not_lt.mp hcontrol, ?_, ?_, hescape⟩)
    · rintro rfl
      exact hletter (by decide)
    · rintro rfl
      exact hletter (by decide)

theorem hexDigit?_digitChar {n : Nat} (h : n < 16) : hexDigit? (Nat.digitChar n) = some n := by
  have hall : ∀ n < 16, hexDigit? (Nat.digitChar n) = some n := by decide
  exact hall n h

theorem hexUnit?_code {n : Nat} (h : n < 32) :
    hexUnit? '0' '0' (Nat.digitChar (n / 16)) (Nat.digitChar (n % 16)) = some n := by
  have hzero : hexDigit? '0' = some 0 := by decide
  have hvalue : ((0 * 16 + 0) * 16 + n / 16) * 16 + n % 16 = n := by omega
  unfold hexUnit?
  rw [hzero, hexDigit?_digitChar (by omega), hexDigit?_digitChar (by omega)]
  exact congrArg some hvalue

theorem ofUnit_toNat {c : Char} (h : c.toNat < 32) : Spelled.ofUnit c.toNat = .char c := by
  have hhigh : isHighSurrogate c.toNat = false := by simp [isHighSurrogate]; omega
  have hlow : isLowSurrogate c.toNat = false := by simp [isLowSurrogate]; omega
  unfold Spelled.ofUnit
  rw [hhigh, hlow, Char.ofNat_toNat]
  rfl

/-- **What a character is escaped to is scanned as the character.** -/
theorem scanString?_escape (c : Char) (rest : List Char) :
    scanString? (escape c ++ rest) =
      (scanString? rest).map fun parts => (.char c :: parts.1, parts.2) := by
  rcases escape_cases c with ⟨letter, he, hunicode, hletter⟩ | ⟨hcontrol, he⟩ |
    ⟨hplain, hquote, hbackslash, he⟩
  · rw [he, List.cons_append, List.singleton_append, scanString?, hletter]
    exact fun _ _ _ _ _ hu _ => hunicode hu
  · rw [he, codeEscape]
    simp only [List.cons_append, List.nil_append, scanString?, hexUnit?_code hcontrol,
      ofUnit_toNat hcontrol]
  · have hnot : ¬(c.toNat < 32 || c = '\\') = true := by simp [hbackslash, hplain]
    rw [he, List.singleton_append, scanString?]
    · rw [if_neg hnot]
    · exact hquote
    · exact fun _ _ _ _ _ h _ => hbackslash h
    · exact fun _ _ h _ => hbackslash h

/-- **An escaped text is scanned back**, up to the quote that closes it. -/
theorem scanString?_escaped (cs rest : List Char) :
    scanString? (cs.flatMap escape ++ '"' :: rest) = some (cs.map .char, rest) := by
  induction cs with
  | nil => rfl
  | cons c cs ih =>
    rw [List.flatMap_cons, List.append_assoc, scanString?_escape, ih]
    rfl

/-- Characters spell a text. -/
theorem textOf?_chars (cs : List Char) : textOf? (cs.map .char) = some cs := by
  induction cs with
  | nil => rfl
  | cons c cs ih =>
    rw [List.map_cons, textOf?, ih]
    rfl

/-! ## Tokens -/

/-- No token starts with a space. -/
theorem not_isSpace_of_scan? {c : Char} {cs after : List Char} {token : Token}
    (h : Token.scan? (c :: cs) = some (token, after)) : isSpace c = false := by
  cases hspace : isSpace c with
  | false => rfl
  | true =>
    have hcases : c = ' ' ∨ c = '\n' ∨ c = '\t' ∨ c = '\r' := by
      simpa [isSpace, or_assoc] using hspace
    rcases hcases with rfl | rfl | rfl | rfl <;> cases h

/-- **The tokens of a text are its first one and those behind it.** -/
theorem all?_of_scan? {cs after : List Char} {token : Token}
    (h : Token.scan? cs = some (token, after)) :
    Token.all? cs = (Token.all? after).map (token :: ·) := by
  cases cs with
  | nil => cases h
  | cons c cs =>
    rw [Token.all?, if_neg (by rw [not_isSpace_of_scan? h]; decide)]
    split
    · next hnone =>
      rw [h] at hnone
      cases hnone
    · next hsome =>
      rw [h] at hsome
      cases hsome
      rfl

/-- A numeral in front of a text that ends it is a token. -/
theorem scan?_numeral {cs rest : List Char} (h : IsNumeral cs)
    (hrest : Decimal.Numeral.Ends rest) :
    Token.scan? (cs ++ rest) = some (.number (String.ofList cs), rest) := by
  obtain ⟨c, hc, hstart⟩ := h.starts
  obtain ⟨n, hscan, hnumeral⟩ := h.scanned
  obtain ⟨cs, rfl⟩ := List.head?_eq_some_iff.mp hc
  have hmark : (c = '-' || c.isDigit) = true := by simpa using hstart
  have hwhole := Decimal.Numeral.scan?_append hrest (List.cons_ne_nil c cs) hscan
  rw [List.nil_append] at hwhole
  rw [List.cons_append] at hwhole ⊢
  have hliteral : (c :: (cs ++ rest)).take ((c :: (cs ++ rest)).length - rest.length) = c :: cs := by
    rw [← List.cons_append, List.length_append, Nat.add_sub_cancel]
    exact List.take_left
  rw [Token.scan?_number hmark hwhole hnumeral, hliteral]

/-- **A text with its tokens, in front of another**, whose tokens follow. -/
def Lexed (cs : List Char) (tokens : List Token) (rest : List Char) : Prop :=
  Token.all? (cs ++ rest) = (Token.all? rest).map (tokens ++ ·)

namespace Lexed

variable {cs ds rest : List Char} {ts us : List Token}

theorem nil (rest : List Char) : Lexed [] [] rest := by
  unfold Lexed
  rw [List.nil_append]
  cases Token.all? rest <;> rfl

theorem append (h : Lexed cs ts (ds ++ rest)) (h' : Lexed ds us rest) :
    Lexed (cs ++ ds) (ts ++ us) rest := by
  unfold Lexed at h h' ⊢
  rw [List.append_assoc, h, h']
  cases Token.all? rest with
  | none => rfl
  | some more => simp

theorem of_scan? {t : Token} (h : Token.scan? (cs ++ rest) = some (t, rest)) :
    Lexed cs [t] rest := by
  unfold Lexed
  rw [all?_of_scan? h]
  rfl

theorem comma (rest : List Char) : Lexed [','] [.comma] rest := of_scan? rfl

theorem colon (rest : List Char) : Lexed [':'] [.colon] rest := of_scan? rfl

theorem numeral (h : IsNumeral cs) (hrest : Decimal.Numeral.Ends rest) :
    Lexed cs [.number (String.ofList cs)] rest := of_scan? (scan?_numeral h hrest)

theorem quote (s : String) (rest : List Char) : Lexed (Json.quote s) [.string (some s)] rest := by
  refine of_scan? ?_
  have hwritten : Json.quote s ++ rest = '"' :: (s.toList.flatMap escape ++ '"' :: rest) := by
    simp [Json.quote]
  rw [hwritten, Token.scan?_string, scanString?_escaped, Option.map_some, textOf?_chars, Option.map_some,
    String.ofList_toList]

end Lexed

/-! ## Trees -/

/-- **The trees whose numbers are numerals**, at every level. -/
inductive WellSpelled : Json → Prop where
  | null : WellSpelled .null
  | bool (b : Bool) : WellSpelled (.bool b)
  | number {literal : String} (numeral : IsNumeral literal.toList) : WellSpelled (.number literal)
  | string (s : String) : WellSpelled (.string s)
  | unpaired : WellSpelled .unpaired
  | array {items : List Json} (spelled : ∀ j ∈ items, j.WellSpelled) : WellSpelled (.array items)
  | object {members : List (String × Json)} (spelled : ∀ m ∈ members, m.2.WellSpelled) :
    WellSpelled (.object members)

mutual

/-- The tokens of a tree. -/
def tokens : Json → List Token
  | .null => [.null]
  | .bool b => [.bool b]
  | .number literal => [.number literal]
  | .string s => [.string (some s)]
  | .unpaired => [.string none]
  | .array [] => [.openArray, .closeArray]
  | .array (v :: rest) => .openArray :: tokens v ++ tokensItems rest ++ [.closeArray]
  | .object [] => [.openObject, .closeObject]
  | .object ((k, v) :: rest) =>
    .openObject :: [.string (some k)] ++ .colon :: tokens v ++ tokensMembers rest ++ [.closeObject]
termination_by structural j => j

/-- The tokens of further array elements. -/
def tokensItems : List Json → List Token
  | [] => []
  | v :: rest => .comma :: tokens v ++ tokensItems rest
termination_by structural items => items

/-- The tokens of further object members. -/
def tokensMembers : List (String × Json) → List Token
  | [] => []
  | (k, v) :: rest => .comma :: [.string (some k)] ++ .colon :: tokens v ++ tokensMembers rest
termination_by structural members => members

end

open Decimal.Numeral (Ends ends_cons)

theorem ends_charsItems (items : List Json) {rest : List Char} (h : Ends rest) :
    Ends (charsItems items ++ rest) := by
  cases items with
  | nil => exact h
  | cons v items => exact ends_cons _ (by decide)

theorem ends_charsMembers (members : List (String × Json)) {rest : List Char} (h : Ends rest) :
    Ends (charsMembers members ++ rest) := by
  cases members with
  | nil => exact h
  | cons m members => exact ends_cons _ (by decide)

/-- Further elements are lexed one by one. -/
theorem lexed_charsItems {items : List Json}
    (h : ∀ j ∈ items, ∀ rest, Ends rest → Lexed j.chars j.tokens rest) {rest : List Char}
    (hrest : Ends rest) : Lexed (charsItems items) (tokensItems items) rest := by
  induction items with
  | nil => exact .nil rest
  | cons v items ih =>
    rw [List.forall_mem_cons] at h
    exact ((Lexed.comma _).append (h.1 _ (ends_charsItems items hrest))).append (ih h.2)

/-- Further members are lexed one by one. -/
theorem lexed_charsMembers {members : List (String × Json)}
    (h : ∀ m ∈ members, ∀ rest, Ends rest → Lexed m.2.chars m.2.tokens rest) {rest : List Char}
    (hrest : Ends rest) : Lexed (charsMembers members) (tokensMembers members) rest := by
  induction members with
  | nil => exact .nil rest
  | cons m members ih =>
    obtain ⟨k, v⟩ := m
    rw [List.forall_mem_cons] at h
    have hkey := fun rest => (Lexed.comma _).append (Lexed.quote k rest)
    have hvalue := (Lexed.colon _).append (h.1 _ (ends_charsMembers members hrest))
    exact ((hkey _).append hvalue).append (ih h.2)

/-- **The tokens of a printed tree**, in front of a text that goes on with no numeral. -/
theorem WellSpelled.lexed {j : Json} (h : j.WellSpelled) {rest : List Char} (hrest : Ends rest) :
    Lexed j.chars j.tokens rest := by
  induction h generalizing rest with
  | null => exact .of_scan? rfl
  | bool b => cases b <;> exact .of_scan? rfl
  | @number literal numeral =>
    have hnumeral := Lexed.numeral numeral hrest
    rw [String.ofList_toList] at hnumeral
    exact hnumeral
  | string s => exact .quote s rest
  | unpaired => exact .of_scan? rfl
  | @array items _ ih =>
    have hopen (rest : List Char) : Lexed ['['] [.openArray] rest := .of_scan? rfl
    have hclose : Lexed [']'] [.closeArray] rest := .of_scan? rfl
    cases items with
    | nil => exact (hopen _).append hclose
    | cons v items =>
      rw [List.forall_mem_cons] at ih
      have hends : Ends ([']'] ++ rest) := ends_cons rest (by decide)
      have hitems := lexed_charsItems (fun j hj rest hrest => ih.2 j hj hrest) hends
      have hvalue := ih.1 (ends_charsItems items hends)
      exact (((hopen _).append hvalue).append hitems).append hclose
  | @object members _ ih =>
    have hopen (rest : List Char) : Lexed ['\x7b'] [.openObject] rest := .of_scan? rfl
    have hclose : Lexed ['\x7d'] [.closeObject] rest := .of_scan? rfl
    cases members with
    | nil => exact (hopen _).append hclose
    | cons m members =>
      obtain ⟨k, v⟩ := m
      rw [List.forall_mem_cons] at ih
      have hends : Ends (['\x7d'] ++ rest) := ends_cons rest (by decide)
      have hmembers := lexed_charsMembers (fun m hm rest hrest => ih.2 m hm hrest) hends
      have hvalue := (Lexed.colon _).append (ih.1 (ends_charsMembers members hends))
      have hkey := fun rest => (hopen _).append (Lexed.quote k rest)
      exact (((hkey _).append hvalue).append hmembers).append hclose

end Json

end TypedTemplate
