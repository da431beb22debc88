import TypedTemplate.Decimal.Numeral

/-!
# Tokens of a JSON text

A JSON text is a sequence of marks, words, numbers and strings, with spaces, tabs and line ends
between them.

* `Token.scan?`: the token at the front of a text, and what follows it.
* `Token.all?`: all tokens of a text, or nothing when some part of it is not one.
-/

namespace TypedTemplate.Json

/-- A token of a JSON text. -/
inductive Token where
  | openArray
  | closeArray
  | openObject
  | closeObject
  | comma
  | colon
  | null
  | bool (b : Bool)
  | number (literal : String)
  /-- A string, by its text where it names one. -/
  | string (s : Option String)
  deriving DecidableEq

/-! ## Strings -/

/-- The value of a hexadecimal digit. -/
def hexDigit? (c : Char) : Option Nat :=
  if '0' ≤ c && c ≤ '9' then some (c.toNat - '0'.toNat)
  else if 'a' ≤ c && c ≤ 'f' then some (c.toNat - 'a'.toNat + 10)
  else if 'A' ≤ c && c ≤ 'F' then some (c.toNat - 'A'.toNat + 10)
  else none

/-- The value of four hexadecimal digits. -/
def hexUnit? (a b c d : Char) : Option Nat := do
  let a ← hexDigit? a
  let b ← hexDigit? b
  let c ← hexDigit? c
  let d ← hexDigit? d
  return ((a * 16 + b) * 16 + c) * 16 + d

/-- The character of an escape by one letter. -/
def letterEscape? : Char → Option Char
  | '"' => some '"'
  | '\\' => some '\\'
  | '/' => some '/'
  | 'b' => some '\x08'
  | 'f' => some '\x0c'
  | 'n' => some '\n'
  | 'r' => some '\r'
  | 't' => some '\t'
  | _ => none

/-- A unit of UTF-16 that starts a surrogate pair. -/
def isHighSurrogate (n : Nat) : Bool := 0xD800 ≤ n && n < 0xDC00

/-- A unit of UTF-16 that ends a surrogate pair. -/
def isLowSurrogate (n : Nat) : Bool := 0xDC00 ≤ n && n < 0xE000

/-- The character that a surrogate pair stands for. -/
def pairedChar (high low : Nat) : Char :=
  Char.ofNat (0x10000 + (high - 0xD800) * 0x400 + (low - 0xDC00))

/-- One element of a string: a character, or an escape that spells half of a surrogate pair. -/
inductive Spelled where
  | char (c : Char)
  | half (unit : Nat)

/-- The element that an escape by four digits spells. -/
def Spelled.ofUnit (unit : Nat) : Spelled :=
  if isHighSurrogate unit || isLowSurrogate unit then .half unit else .char (Char.ofNat unit)

/-- The elements of a string whose opening quote is behind, and what follows its closing quote. No
control character stands for itself. -/
def scanString? : List Char → Option (List Spelled × List Char)
  | [] => none
  | '"' :: rest => some ([], rest)
  | '\\' :: 'u' :: a :: b :: c :: d :: rest =>
    match hexUnit? a b c d with
    | none => none
    | some unit => (scanString? rest).map fun r => (Spelled.ofUnit unit :: r.1, r.2)
  | '\\' :: c :: rest =>
    match letterEscape? c with
    | none => none
    | some e => (scanString? rest).map fun r => (.char e :: r.1, r.2)
  | c :: rest =>
    if c.toNat < 32 || c = '\\' then none
    else (scanString? rest).map fun r => (.char c :: r.1, r.2)

/-- The text that the elements spell, unless a surrogate stands alone. -/
def textOf? : List Spelled → Option (List Char)
  | [] => some []
  | .char c :: rest => (textOf? rest).map (c :: ·)
  | .half high :: .half low :: rest =>
    if isHighSurrogate high && isLowSurrogate low then
      (textOf? rest).map (pairedChar high low :: ·)
    else none
  | .half _ :: _ => none

/-- What follows a string is shorter than the text. -/
theorem length_scanString?_lt {cs rest : List Char} {s : List Spelled}
    (h : scanString? cs = some (s, rest)) : rest.length < cs.length := by
  fun_induction scanString? cs generalizing s with
  | case1 => cases h
  | case2 => simp_all
  | case3 => cases h
  | case4 a b c d rest unit _ ih =>
    obtain ⟨r, hr, he⟩ := Option.map_eq_some_iff.mp h
    simp only [Prod.mk.injEq] at he
    have := ih (s := r.1) (by rw [hr, ← he.2])
    simp only [List.length_cons]
    omega
  | case5 => cases h
  | case6 c rest _ e _ ih =>
    obtain ⟨r, hr, he⟩ := Option.map_eq_some_iff.mp h
    simp only [Prod.mk.injEq] at he
    have := ih (s := r.1) (by rw [hr, ← he.2])
    simp only [List.length_cons]
    omega
  | case7 => cases h
  | case8 c rest _ _ _ _ ih =>
    obtain ⟨r, hr, he⟩ := Option.map_eq_some_iff.mp h
    simp only [Prod.mk.injEq] at he
    have := ih (s := r.1) (by rw [hr, ← he.2])
    simp only [List.length_cons]
    omega

/-! ## Numbers -/

/-- The numeral follows the grammar of JSON: digits on both sides of the point, and no zero in
front of other digits. -/
def isJsonNumeral (n : Decimal.Numeral) : Bool :=
  !n.whole.isEmpty && (n.whole.head? ≠ some '0' || n.whole.length = 1) && n.fraction ≠ some []

/-! ## All tokens -/

/-- The token at the front of a text, and what follows it. -/
def Token.scan? : List Char → Option (Token × List Char)
  | [] => none
  | '[' :: rest => some (.openArray, rest)
  | ']' :: rest => some (.closeArray, rest)
  | '{' :: rest => some (.openObject, rest)
  | '}' :: rest => some (.closeObject, rest)
  | ',' :: rest => some (.comma, rest)
  | ':' :: rest => some (.colon, rest)
  | 'n' :: 'u' :: 'l' :: 'l' :: rest => some (.null, rest)
  | 't' :: 'r' :: 'u' :: 'e' :: rest => some (.bool true, rest)
  | 'f' :: 'a' :: 'l' :: 's' :: 'e' :: rest => some (.bool false, rest)
  | '"' :: rest => (scanString? rest).map fun r => (.string ((textOf? r.1).map String.ofList), r.2)
  | c :: rest =>
    if c = '-' || c.isDigit then
      match Decimal.Numeral.scan? (c :: rest) with
      | none => none
      | some (n, after) =>
        if isJsonNumeral n then
          let literal := (c :: rest).take ((c :: rest).length - after.length)
          some (.number (String.ofList literal), after)
        else none
    else none

theorem Token.scan?_string (rest : List Char) :
    scan? ('"' :: rest) = (scanString? rest).map fun r =>
      (.string ((textOf? r.1).map String.ofList), r.2) := rfl

/-- No token but a number starts with a minus or a digit. -/
theorem Token.scan?_number {c : Char} {rest after : List Char} {n : Decimal.Numeral}
    (h : (c = '-' || c.isDigit) = true) (hscan : Decimal.Numeral.scan? (c :: rest) = some (n, after))
    (hnumeral : isJsonNumeral n = true) :
    scan? (c :: rest) = some (.number (String.ofList
      ((c :: rest).take ((c :: rest).length - after.length))), after) := by
  rw [scan?]
  · rw [if_pos h, hscan]
    simp only [hnumeral, if_true]
  all_goals
    intros
    subst_vars
    cases h

/-- What follows a token is shorter than the text. -/
theorem Token.length_scan?_lt {cs rest : List Char} {t : Token} (h : scan? cs = some (t, rest)) :
    rest.length < cs.length := by
  unfold scan? at h
  split at h
  case h_11 rest' =>
    obtain ⟨⟨s, r⟩, hr, he⟩ := Option.map_eq_some_iff.mp h
    simp only [Prod.mk.injEq] at he
    have := length_scanString?_lt (he.2 ▸ hr)
    simp only [List.length_cons]
    omega
  case h_12 c rest' _ _ _ =>
    split at h
    · split at h
      · cases h
      · next n after hn =>
        split at h
        · next hj =>
          simp only [Option.some.injEq, Prod.mk.injEq] at h
          have hle := Decimal.Numeral.length_scan?_le hn
          have hne : n.whole ≠ [] := by
            intro he
            simp [isJsonNumeral, he] at hj
          have := List.length_pos_iff.mpr hne
          rw [← h.2]
          omega
        · cases h
    · cases h
  all_goals simp_all <;> omega

/-- The characters that may stand between tokens. -/
def isSpace (c : Char) : Bool := c = ' ' || c = '\n' || c = '\t' || c = '\r'

/-- All tokens of a text. -/
def Token.all? (cs : List Char) : Option (List Token) :=
  match cs with
  | [] => some []
  | c :: rest =>
    if isSpace c then Token.all? rest
    else
      match _h : Token.scan? (c :: rest) with
      | none => none
      | some (t, after) => (Token.all? after).map (t :: ·)
termination_by cs.length
decreasing_by
  · simp
  · exact Token.length_scan?_lt (by assumption)

end TypedTemplate.Json
