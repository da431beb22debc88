import TypedTemplate.Piece
import TypedTemplate.Token

/-!
# The shape of a piece

Where a piece ends depends on what it is: plain text ends where a tag opens, a tag where it closes
outside of quotes, a comment at its first end. This file says so without a scanner, as a condition
on a piece and the text that follows it, and shows that each of the three scanners finds just what
has this shape.

* `PlainText`, `TagInside`, `CommentBody`: how far a text, the inside of a tag and the body of a
  comment reach.
* `Piece.Shaped`: a piece in front of the rest of a template.
* **`plainText_spanText`**, **`tagInside_of_spanTag?`**, **`commentBody_of_spanComment?`**: what is
  scanned has its shape.
* **`spanText_of_plainText`**, **`spanTag?_of_tagInside`**, **`spanComment?_of_commentBody`**: what
  has its shape is scanned.
* `TagInside.getLast?_ne`, `CommentBody.getLast?_ne`: a mark in front of an end belongs to the end.
-/

namespace TypedTemplate

/-! ## Extents -/

/-- **Plain text** in front of the rest of a template: what is written, and what it stands for. A
backslash in front of two braces is left out of what it stands for. Anywhere else, two braces do
not start in it, not even with one of them in the rest. -/
inductive PlainText (after : List Char) : List Char → List Char → Prop where
  | nil : PlainText after [] []
  | escape {raw text : List Char} (rest : PlainText after raw text) :
    PlainText after ('\\' :: '{' :: '{' :: raw) ('{' :: '{' :: text)
  | char {c : Char} {raw text : List Char} (closed : ¬['{', '{'] <+: c :: (raw ++ after))
    (bare : ¬['\\', '{', '{'] <+: c :: (raw ++ after)) (rest : PlainText after raw text) :
    PlainText after (c :: raw) (c :: text)

/-- The body of a string without its quotes: the quote stands in it only behind a backslash, and
what a backslash stands in front of belongs to it. -/
inductive StringBody (quote : Char) : List Char → Prop where
  | nil : StringBody quote []
  | escape {c : Char} {body : List Char} (rest : StringBody quote body) :
    StringBody quote ('\\' :: c :: body)
  | char {c : Char} {body : List Char} (bare : c ≠ '\\') (inner : c ≠ quote)
    (rest : StringBody quote body) : StringBody quote (c :: body)

/-- The end of a tag stands at the front of a text, perhaps behind the mark for stripping. -/
def TagEnds (close cs : List Char) : Prop := close <+: cs ∨ '~' :: close <+: cs

/-- **The inside of a tag** in front of what follows it: characters at which the tag does not end,
and strings that are closed. -/
inductive TagInside (close after : List Char) : List Char → Prop where
  | nil : TagInside close after []
  | char {c : Char} {inner : List Char} (plain : isQuote c = false)
    (goesOn : ¬TagEnds close (c :: (inner ++ after))) (rest : TagInside close after inner) :
    TagInside close after (c :: inner)
  | string {quote : Char} {body inner : List Char} (opens : isQuote quote = true)
    (within : StringBody quote body) (rest : TagInside close after inner) :
    TagInside close after (quote :: (body ++ quote :: inner))

/-- The end of a comment stands at the front of a text. -/
def CommentEnds (long : Bool) (cs : List Char) : Prop :=
  ∃ stripped rest, cs = Piece.dashes long ++ Piece.stripMark stripped ++ ['}', '}'] ++ rest

/-- **The body of a comment** in front of what follows it: no end of the comment starts in it. -/
inductive CommentBody (long : Bool) (after : List Char) : List Char → Prop where
  | nil : CommentBody long after []
  | char {c : Char} {body : List Char} (goesOn : ¬CommentEnds long (c :: (body ++ after)))
    (rest : CommentBody long after body) : CommentBody long after (c :: body)

/-- What of a tag stands behind its inside. -/
def tagEnd (strip : Strip) (braces : Braces) : List Char :=
  Piece.stripMark strip.after ++ braces.closing

/-- What of a comment stands behind its body. -/
def commentEnd (strip : Strip) (long : Bool) : List Char :=
  Piece.dashes long ++ Piece.stripMark strip.after ++ ['}', '}']

/-- **The shape of a piece** in front of the rest of a template. The marks of a tag or comment are
those that are written: a brace, a tilde or dashes that could belong to its opening do. -/
inductive Piece.Shaped (after : List Char) : Piece → Prop where
  | text {raw : List Char} (nonempty : raw ≠ []) (plain : PlainText after raw (unescapeBraces raw))
    (stops : after = [] ∨ ['{', '{'] <+: after) : Shaped after (.text raw)
  | comment {strip : Strip} {long : Bool} {body : List Char}
    (short : long = false → ¬['-', '-'] <+: body ++ commentEnd strip long ++ after)
    (within : CommentBody long (commentEnd strip long ++ after) body) :
    Shaped after (.comment strip long body)
  | tag {strip : Strip} {braces : Braces} {inner : List Char}
    (double : braces = .double →
      ¬['{'] <+: stripMark strip.before ++ inner ++ tagEnd strip braces ++ after)
    (unmarked : strip.before = false → ¬['~'] <+: inner ++ tagEnd strip braces ++ after)
    (noComment : braces = .double → ¬['!'] <+: inner ++ tagEnd strip braces ++ after)
    (inside : TagInside braces.closing (tagEnd strip braces ++ after) inner) :
    Shaped after (.tag strip braces inner)

/-! ## Plain text -/

theorem plainText_spanText (cs : List Char) :
    PlainText (spanText cs).2 (spanText cs).1 (unescapeBraces (spanText cs).1) := by
  fun_induction spanText cs with
  | case1 => exact .nil
  | case2 => exact .nil
  | case3 rest raw after hr ih =>
    rw [hr] at ih
    exact .escape ih
  | case4 c rest hopen hescape raw after hr ih =>
    rw [hr] at ih
    have happend : raw ++ after = rest := by
      have h := spanText_append rest
      rwa [hr] at h
    have hbare : ¬['\\', '{', '{'] <+: c :: (raw ++ after) := by
      rintro ⟨more, hmore⟩
      rw [happend] at hmore
      obtain ⟨rfl, rfl⟩ := List.cons.inj hmore
      exact hescape more rfl rfl
    have hclosed : ¬['{', '{'] <+: c :: (raw ++ after) := by
      rintro ⟨more, hmore⟩
      rw [happend] at hmore
      obtain ⟨rfl, rfl⟩ := List.cons.inj hmore
      exact hopen more rfl rfl
    have hunescape : unescapeBraces (c :: raw) = c :: unescapeBraces raw := by
      rw [unescapeBraces]
      rintro more rfl rfl
      exact hbare ⟨more ++ after, rfl⟩
    rw [hunescape]
    exact .char hclosed hbare ih

/-- Plain text stops where a tag opens, or at the end. -/
theorem spanText_stops (cs : List Char) :
    (spanText cs).2 = [] ∨ ['{', '{'] <+: (spanText cs).2 := by
  fun_induction spanText cs with
  | case1 => exact .inl rfl
  | case2 rest => exact .inr ⟨rest, rfl⟩
  | case3 rest raw after hr ih => rwa [hr] at ih
  | case4 c rest _ _ raw after hr ih => rwa [hr] at ih

/-- What is plain text up to where it stops is cut off as one. -/
theorem spanText_of_plainText {after raw text : List Char} (h : PlainText after raw text)
    (hstops : after = [] ∨ ['{', '{'] <+: after) : spanText (raw ++ after) = (raw, after) := by
  induction h with
  | nil =>
    rcases hstops with rfl | ⟨more, rfl⟩
    · rfl
    · rfl
  | escape rest ih => simp [spanText, ih]
  | @char c raw text hclosed hbare rest ih =>
    rw [List.cons_append, spanText, ih]
    · rintro more rfl hmore
      exact hclosed ⟨more, by rw [hmore]; rfl⟩
    · rintro more rfl hmore
      exact hbare ⟨more, by rw [hmore]; rfl⟩

/-- Plain text does not start where a tag opens. -/
theorem PlainText.not_opening {after raw text : List Char} (h : PlainText after raw text)
    (hne : raw ≠ []) : ¬['{', '{'] <+: raw ++ after := by
  cases h with
  | nil => exact absurd rfl hne
  | escape => simp
  | char hclosed => exact hclosed

/-! ## Where a tag ends -/

theorem dropStart?_eq_some_iff {start cs rest : List Char} :
    dropStart? start cs = some rest ↔ cs = start ++ rest := by
  constructor
  · exact eq_append_of_dropStart?
  · rintro rfl
    induction start with
    | nil => rfl
    | cons p ps ih => simpa [dropStart?] using ih

theorem dropStart?_eq_none_iff {start cs : List Char} :
    dropStart? start cs = none ↔ ¬start <+: cs := by
  constructor
  · rintro h ⟨rest, hrest⟩
    have hsome := dropStart?_eq_some_iff.mpr hrest.symm
    rw [h] at hsome
    cases hsome
  · intro h
    cases hdrop : dropStart? start cs with
    | none => rfl
    | some rest => exact absurd ⟨rest, (eq_append_of_dropStart? hdrop).symm⟩ h

/-- There is an end to be found just where one stands. -/
theorem closing?_eq_none_iff {close cs : List Char} :
    closing? close cs = none ↔ ¬TagEnds close cs := by
  unfold closing? TagEnds
  cases hmark : dropStart? ('~' :: close) cs with
  | some rest =>
    have hstands : '~' :: close <+: cs := ⟨rest, (eq_append_of_dropStart? hmark).symm⟩
    simp [hstands]
  | none =>
    have habsent := dropStart?_eq_none_iff.mp hmark
    simp [habsent, dropStart?_eq_none_iff]

theorem Braces.head?_closing (braces : Braces) : braces.closing.head? = some '}' := by
  cases braces <;> rfl

/-- The end that is written is found, with its mark. -/
theorem closing?_stripMark {close : List Char} (hclose : close.head? = some '}')
    (stripped : Bool) (rest : List Char) :
    closing? close (Piece.stripMark stripped ++ close ++ rest) = some (stripped, rest) := by
  obtain ⟨more, rfl⟩ := List.head?_eq_some_iff.mp hclose
  unfold closing?
  cases stripped with
  | true =>
    have hmark : dropStart? ('~' :: '}' :: more)
        (Piece.stripMark true ++ '}' :: more ++ rest) = some rest :=
      dropStart?_eq_some_iff.mpr (by simp [Piece.stripMark])
    rw [hmark]
  | false =>
    have hmark : dropStart? ('~' :: '}' :: more)
        (Piece.stripMark false ++ '}' :: more ++ rest) = none := by
      simp [Piece.stripMark, dropStart?]
    have hplain : dropStart? ('}' :: more)
        (Piece.stripMark false ++ '}' :: more ++ rest) = some rest :=
      dropStart?_eq_some_iff.mpr (by simp [Piece.stripMark])
    rw [hmark, hplain]
    rfl

/-! ## Tags -/

/-- The inside of a tag, perhaps from within a string on. -/
def TagInsideFrom (close after : List Char) (quote : Option Char) (inner : List Char) : Prop :=
  match quote with
  | none => TagInside close after inner
  | some q => ∃ body rest, StringBody q body ∧ inner = body ++ q :: rest ∧
      TagInside close after rest

/-- What the scanner takes for the inside of a tag is one. -/
theorem tagInside_of_spanTag? {close cs inner rest : List Char} {quote : Option Char}
    {stripped : Bool} (h : spanTag? close quote cs = some (inner, stripped, rest)) :
    TagInsideFrom close (Piece.stripMark stripped ++ close ++ rest) quote inner := by
  have happend := eq_append_of_spanTag? h
  fun_induction spanTag? close quote cs generalizing inner stripped rest with
  | case1 => cases h
  | case2 => cases h
  | case3 q d more ih =>
    obtain ⟨⟨i, s, r⟩, hr, he⟩ := Option.map_eq_some_iff.mp h
    cases he
    obtain ⟨body, tail, hbody, rfl, htail⟩ := ih hr (eq_append_of_spanTag? hr)
    exact ⟨'\\' :: d :: body, tail, .escape hbody, rfl, htail⟩
  | case4 c more q hescape ih =>
    obtain ⟨⟨i, s, r⟩, hr, he⟩ := Option.map_eq_some_iff.mp h
    cases he
    have hinside := ih hr (eq_append_of_spanTag? hr)
    by_cases hq : c = q
    · subst hq
      rw [if_pos rfl] at hinside
      exact ⟨[], i, .nil, rfl, hinside⟩
    · rw [if_neg hq] at hinside
      obtain ⟨body, tail, hbody, rfl, htail⟩ := hinside
      exact ⟨c :: body, tail, .char hescape hq hbody, rfl, htail⟩
  | case5 c more hq ih =>
    obtain ⟨⟨i, s, r⟩, hr, he⟩ := Option.map_eq_some_iff.mp h
    cases he
    obtain ⟨body, tail, hbody, rfl, htail⟩ := ih hr (eq_append_of_spanTag? hr)
    exact .string (by simpa [isQuote] using hq) hbody htail
  | case6 c more hq s r hclose =>
    cases h
    exact .nil
  | case7 c more hq hclose ih =>
    obtain ⟨⟨i, s, r⟩, hr, he⟩ := Option.map_eq_some_iff.mp h
    cases he
    have hrest := eq_append_of_spanTag? hr
    have hends : ¬TagEnds close (c :: (i ++ (Piece.stripMark s ++ close ++ r))) := by
      have hnone := closing?_eq_none_iff.mp hclose
      rw [hrest] at hnone
      simpa using hnone
    exact .char (by simpa [isQuote] using hq) hends (ih hr hrest)

/-- Within a string, a character that is not a backslash may only be its end. -/
theorem spanTag?_quoted {close : List Char} {quote c : Char} (hbare : c ≠ '\\')
    (rest : List Char) :
    spanTag? close (some quote) (c :: rest) =
      (spanTag? close (if c = quote then none else some quote) rest).map
        fun r => (c :: r.1, r.2.1, r.2.2) := by
  rw [spanTag?.eq_def]
  simp only [hbare, ↓reduceIte]

/-- A quote opens a string. -/
theorem spanTag?_opens {close : List Char} {quote : Char} (hopens : isQuote quote = true)
    (rest : List Char) :
    spanTag? close none (quote :: rest) =
      (spanTag? close (some quote) rest).map fun r => (quote :: r.1, r.2.1, r.2.2) := by
  have hor : quote = '"' ∨ quote = '\'' := by simpa [isQuote] using hopens
  rw [spanTag?.eq_def]
  simp [hor]

/-- Where no string opens and the tag does not end, it goes on. -/
theorem spanTag?_goesOn {close : List Char} {c : Char} {rest : List Char}
    (hplain : isQuote c = false) (hgoes : ¬TagEnds close (c :: rest)) :
    spanTag? close none (c :: rest) =
      (spanTag? close none rest).map fun r => (c :: r.1, r.2.1, r.2.2) := by
  have hnot : ¬(c = '"' ∨ c = '\'') := by simpa [isQuote] using hplain
  have hnone := closing?_eq_none_iff.mpr hgoes
  rw [spanTag?.eq_def]
  simp [hnot, hnone]

/-- A string is skipped up to its closing quote. -/
theorem spanTag?_stringBody {close body : List Char} {quote : Char} (h : StringBody quote body)
    (hquote : quote ≠ '\\') (cs : List Char) :
    spanTag? close (some quote) (body ++ quote :: cs) =
      (spanTag? close none cs).map fun r => (body ++ quote :: r.1, r.2.1, r.2.2) := by
  induction h with
  | nil =>
    rw [List.nil_append, spanTag?_quoted hquote, if_pos rfl]
    rfl
  | escape _ ih => simp [spanTag?, ih, Function.comp_def]
  | char hbare hinner _ ih =>
    rw [List.cons_append, spanTag?_quoted hbare, if_neg hinner, ih]
    simp [Function.comp_def]

/-- The inside of a tag is what the scanner takes for it. -/
theorem spanTag?_of_tagInside {braces : Braces} {stripped : Bool} {inner rest : List Char}
    (h : TagInside braces.closing (Piece.stripMark stripped ++ braces.closing ++ rest) inner) :
    spanTag? braces.closing none
        (inner ++ (Piece.stripMark stripped ++ braces.closing ++ rest)) =
      some (inner, stripped, rest) := by
  induction h with
  | nil =>
    have hclose := closing?_stripMark braces.head?_closing stripped rest
    cases braces <;> cases stripped <;>
      simp_all [spanTag?, Piece.stripMark, Braces.closing]
  | char hplain hgoes _ ih =>
    rw [List.cons_append, spanTag?_goesOn hplain hgoes, ih]
    rfl
  | @string quote body inner hopens hbody _ ih =>
    have hescape : quote ≠ '\\' := by
      rintro rfl
      cases hopens
    have hsplit : body ++ quote :: inner ++ (Piece.stripMark stripped ++ braces.closing ++ rest) =
        body ++ quote :: (inner ++ (Piece.stripMark stripped ++ braces.closing ++ rest)) := by
      simp
    rw [List.cons_append, spanTag?_opens hopens, hsplit, spanTag?_stringBody hbody hescape, ih]
    rfl

/-! ## Comments -/

/-- There is no end of a comment to be found where none stands. -/
theorem commentClosing?_eq_none_iff {long : Bool} {cs : List Char} :
    (dropStart? (Piece.dashes long) cs).bind (closing? ['}', '}']) = none ↔
      ¬CommentEnds long cs := by
  constructor
  · rintro h ⟨stripped, rest, rfl⟩
    have hdash : dropStart? (Piece.dashes long)
        (Piece.dashes long ++ Piece.stripMark stripped ++ ['}', '}'] ++ rest) =
          some (Piece.stripMark stripped ++ ['}', '}'] ++ rest) :=
      dropStart?_eq_some_iff.mpr (by simp)
    rw [hdash, Option.bind_some, closing?_stripMark rfl] at h
    cases h
  · intro h
    cases hfound : (dropStart? (Piece.dashes long) cs).bind (closing? ['}', '}']) with
    | none => rfl
    | some found =>
      obtain ⟨stripped, rest⟩ := found
      obtain ⟨more, hdash, hclose⟩ := Option.bind_eq_some_iff.mp hfound
      refine absurd ⟨stripped, rest, ?_⟩ h
      rw [eq_append_of_dropStart? hdash, eq_append_of_closing? hclose]
      simp

/-- What the scanner takes for the body of a comment is one. -/
theorem commentBody_of_spanComment? {long : Bool} {cs body rest : List Char} {stripped : Bool}
    (h : spanComment? long cs = some (body, stripped, rest)) :
    CommentBody long (Piece.dashes long ++ Piece.stripMark stripped ++ ['}', '}'] ++ rest)
      body := by
  fun_induction spanComment? long cs generalizing body stripped rest with
  | case1 => cases h
  | case2 c more s r hends =>
    cases h
    exact .nil
  | case3 c more hends ih =>
    obtain ⟨⟨b, s, r⟩, hr, he⟩ := Option.map_eq_some_iff.mp h
    cases he
    have hnone := commentClosing?_eq_none_iff.mp hends
    rw [eq_append_of_spanComment? hr] at hnone
    exact .char (by simpa using hnone) (ih hr)

/-- The body of a comment is what the scanner takes for it. -/
theorem spanComment?_of_commentBody {long : Bool} {stripped : Bool} {body rest : List Char}
    (h : CommentBody long
      (Piece.dashes long ++ Piece.stripMark stripped ++ ['}', '}'] ++ rest) body) :
    spanComment? long
        (body ++ (Piece.dashes long ++ Piece.stripMark stripped ++ ['}', '}'] ++ rest)) =
      some (body, stripped, rest) := by
  induction h with
  | nil =>
    cases long <;> cases stripped <;>
      simp [spanComment?, Piece.dashes, Piece.stripMark, dropStart?, closing?]
  | char hgoes _ ih =>
    have hnone := commentClosing?_eq_none_iff.mpr hgoes
    rw [List.cons_append, spanComment?]
    simp only [hnone, ih, Option.map_some]

/-! ## Consequences of the shape -/

namespace Piece.Shaped

/-- A piece is not empty. -/
theorem chars_ne_nil {piece : Piece} {after : List Char} (h : piece.Shaped after) :
    piece.chars ≠ [] := by
  cases h with
  | text hne => exact hne
  | comment => simp [Piece.chars]
  | @tag strip braces => cases braces <;> simp [Piece.chars, Braces.opening]

/-- Plain text reaches up to a tag, a comment or the end: no plain text follows it. -/
theorem not_text_of_text {first second after : List Char}
    (h : (Piece.text first).Shaped (second ++ after)) :
    ¬(Piece.text second).Shaped after := by
  intro hsecond
  cases h with
  | text _ _ hstops =>
    cases hsecond with
    | text hne hplain =>
      rcases hstops with hend | hopen
      · exact hne (List.append_eq_nil_iff.mp hend).1
      · exact hplain.not_opening hne hopen

end Piece.Shaped

/-- The last character of the inside of a tag is not a mark in front of its end. -/
theorem TagInside.getLast?_ne {close after inner : List Char} (h : TagInside close after inner)
    (hclose : close <+: after) : inner.getLast? ≠ some '~' := by
  induction h with
  | nil => simp
  | @char c inner _ hgoes _ ih =>
    cases inner with
    | nil =>
      rintro hlast
      obtain rfl : c = '~' := by simpa using hlast
      exact hgoes (.inr (by simpa using hclose))
    | cons d inner => simpa [List.getLast?_cons_cons] using ih
  | @string quote body inner hopens _ _ ih =>
    cases inner with
    | nil =>
      intro hlast
      obtain rfl : quote = '~' := by
        rw [← List.cons_append, List.getLast?_append] at hlast
        simpa using hlast
      cases hopens
    | cons d inner =>
      rw [← List.cons_append, List.getLast?_append]
      simpa [List.getLast?_cons_cons] using ih

/-- The last character of the body of a short comment is not a mark in front of its end. -/
theorem CommentBody.getLast?_ne {after body : List Char} (h : CommentBody false after body)
    (hclose : ['}', '}'] <+: after) : body.getLast? ≠ some '~' := by
  induction h with
  | nil => simp
  | @char c body hgoes _ ih =>
    cases body with
    | nil =>
      intro hlast
      obtain rfl : c = '~' := by simpa using hlast
      obtain ⟨rest, rfl⟩ := hclose
      exact hgoes ⟨true, rest, by simp [Piece.dashes, Piece.stripMark]⟩
    | cons d body => simpa [List.getLast?_cons_cons] using ih

end TypedTemplate
