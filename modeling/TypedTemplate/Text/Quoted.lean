import TypedTemplate.Text.Unprintable

/-!
# Quoted text

A text shown inside a message is written on one line: what has no glyph of its own is escaped, and
so are the quotes that would end it.

* `escape`: the written form of one character, under a choice of what else is escaped.
* `escaped`: a whole text, with both quotes escaped; a mark that extends a grapheme is escaped only
  where it has nothing to attach to, at the very front.
* `quoted`: a whole text between double quotes.
-/

namespace TypedTemplate.Text

/-- What is escaped besides controls, backslashes and unprintable characters. -/
structure Escapes where
  singleQuote : Bool
  doubleQuote : Bool
  graphemeExtend : Bool

/-- The code point of a character in braces, in lower case hexadecimal. -/
def codePointEscape (c : Char) : List Char :=
  ['\\', 'u', '{'] ++ Nat.toDigits 16 c.toNat ++ ['}']

/-- The written form of one character. -/
def escape (e : Escapes) (c : Char) : List Char :=
  if c = '\x00' then ['\\', '0']
  else if c = '\t' then ['\\', 't']
  else if c = '\r' then ['\\', 'r']
  else if c = '\n' then ['\\', 'n']
  else if c = '\\' || (c = '"' && e.doubleQuote) || (c = '\'' && e.singleQuote) then ['\\', c]
  else if (e.graphemeExtend && extendsGrapheme c) || isUnprintable c then codePointEscape c
  else [c]

/-- The written form of a text that stands between quotes of either kind. -/
def escaped : List Char → List Char
  | [] => []
  | c :: rest => escape ⟨true, true, true⟩ c ++ rest.flatMap (escape ⟨true, true, false⟩)

/-- The text between double quotes. -/
def quoted (s : String) : String :=
  String.ofList ('"' :: s.toList.flatMap (escape ⟨false, true, true⟩) ++ ['"'])

end TypedTemplate.Text
