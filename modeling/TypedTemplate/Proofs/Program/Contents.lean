import Mathlib.Data.List.DropRight
import TypedTemplate.Proofs.Piece.Partition
import TypedTemplate.Proofs.Program.Derivation

/-!
# The text that a template keeps

The text of a program, read through all of its blocks and branches, is the plain text of the
template, each piece under its own span and less the blanks that the marks around it strip. At the
front of a text only the piece right before it counts. At the end it is another matter: a mark works
on the text that was kept last, and a comment, or a text of which nothing is left, does not stand in
between. So a mark may reach back over comments to a text that is not its neighbour.

* `Program.contents`: the text of a program, in order.
* **`Derives.contents`**: the text of a program is that of the parts it derives from.
* `textsBy`: the plain text of a template, where it is said which ends are stripped.
* `adjacent`, `reaches`: the next piece strips what is before it; and some piece behind does, once
  everything in between has gone.
* **`Stripping.contents_foldl`**: whitespace control strips the ends that are reached.
* `overreaches`, **`textsBy_eq_iff`**: a mark reaches too far, and where none does.
* **`contents_of_readProgram`**: the text of every program that is read, and where it is stripped by
  the neighbours of each text alone.
-/

namespace TypedTemplate

/-! ## Trimming -/

namespace Text

theorem trimEnd_trimEnd (cs : List Char) : trimEnd (trimEnd cs) = trimEnd cs := by
  unfold trimEnd trimStart
  rw [List.reverse_reverse, List.dropWhile_idempotent]

theorem prefix_trimEnd (cs : List Char) : trimEnd cs <+: cs := ⟨_, (eq_trimEnd_append cs).symm⟩

/-- A text that changes when it is trimmed gets shorter. -/
theorem length_trimEnd_lt {cs : List Char} (h : trimEnd cs ≠ cs) :
    (trimEnd cs).length < cs.length := by
  refine lt_of_le_of_ne (prefix_trimEnd cs).length_le fun hlength => h ?_
  exact (prefix_trimEnd cs).eq_of_length hlength

end Text

/-! ## The text of a program -/

/-- The text of a part. -/
def Part.content? : Part → Option (Span × List Char)
  | .content span text => some (span, text)
  | .tag _ _ => none

/-- The text of a statement, without that of its bodies. -/
def Statement.content? : Statement → Option (Span × List Char)
  | .content span text => some (span, text.toList)
  | _ => none

/-- **The text of a program**, in order through all blocks and branches. -/
def Program.contents (p : Program) : List (Span × List Char) :=
  p.statements.filterMap Statement.content?

/-- The text of a statement, and of its bodies. -/
def Statement.contents (s : Statement) : List (Span × List Char) :=
  s.nested.filterMap Statement.content?

@[simp] theorem Program.contents_nil : Program.contents [] = [] := rfl

@[simp] theorem Program.contents_cons (s : Statement) (p : Program) :
    Program.contents (s :: p) = s.contents ++ p.contents := by
  unfold contents statements
  rw [List.flatMap_cons, List.filterMap_append]
  rfl

/-- The text of a block is that of its body, and behind it that of its alternative. -/
theorem Header.contents_block (h : Header) (program : Program) (inverse : Option Program) :
    (h.block program inverse).contents =
      program.contents ++ Program.contents (inverse.getD []) := by
  unfold Header.block Statement.contents
  rw [Statement.nested_block, List.filterMap_cons_none rfl, List.filterMap_append]
  rfl

/-- A tag that closes a block has no text. -/
theorem Part.IsClose.content? {name : String} {part : Part} (h : part.IsClose name) :
    part.content? = none := by
  obtain ⟨span, inside, rfl, -⟩ := h
  rfl

/-- The statement of a leaf has no text. -/
theorem LeafReads.contents {span : Span} {inside : Excerpt} {s : Statement}
    (h : LeafReads span inside s) : s.contents = [] := by
  obtain ⟨inner, -, hread⟩ := h
  obtain ⟨-, -, head, params, hash, -, -, -, -, rfl⟩ := readExpression_eq_ok hread
  rfl

/-- **The text of a program is that of the parts it derives from**, in their order. -/
theorem Derives.contents {parts : List Part} {p : Program} (h : Derives parts p) :
    p.contents = parts.filterMap Part.content? := by
  induction h using Derives.rec
    (motive_2 := fun _ _ program tail s _ =>
      s.contents = program.contents ++ tail.filterMap Part.content?) with
  | nil => rfl
  | @content span text rest p _ ih =>
    have hself : (Statement.content span (String.ofList text)).contents = [(span, text)] := by
      simp [Statement.contents, Statement.nested, Statement.content?]
    rw [Program.contents_cons, hself, ih]
    rfl
  | leaf _ hreads _ ih =>
    rw [Program.contents_cons, hreads.contents, ih]
    rfl
  | @block span inside text header body tail rest program p s _ _ _ _ _ _ ihInner ihEnds ihMore =>
    rw [Program.contents_cons, ihEnds, ihInner, ihMore, List.filterMap_cons_none rfl,
      List.filterMap_append, List.filterMap_append]
  | close hcloses =>
    rw [Header.contents_block, List.filterMap_cons_none hcloses.content?]
    rfl
  | otherwise _ _ hcloses ihInner =>
    rw [Header.contents_block, Option.getD_some, ihInner, List.filterMap_cons_none rfl,
      List.filterMap_append, List.filterMap_cons_none hcloses.content?, List.filterMap_nil,
      List.append_nil]
  | @chain name header next program further span inside text body tail s _ _ _ _ ihInner ihEnds =>
    rw [Header.contents_block, Option.getD_some, Program.contents_cons, Program.contents_nil,
      List.append_nil, ihEnds, ihInner, List.filterMap_cons_none rfl, List.filterMap_append]

/-! ## The plain text of a template -/

namespace Piece

/-- The piece is a tag or comment that strips the blanks before it. -/
def stripsBefore : Piece → Bool
  | .text _ => false
  | .comment strip _ _ => strip.before
  | .tag strip _ _ => strip.before

/-- The piece is a tag or comment that strips the blanks after it. -/
def stripsAfter : Piece → Bool
  | .text _ => false
  | .comment strip _ _ => strip.after
  | .tag strip _ _ => strip.after

/-- Plain text without the backslashes in front of its braces, and without the blanks at its front
if they are stripped. -/
def frontText (front : Bool) (raw : List Char) : List Char :=
  if front then Text.trimStart (unescapeBraces raw) else unescapeBraces raw

end Piece

open Piece

/-- A text as it is kept: under the span of its piece, unless nothing is left of it. -/
def keptText (span : Span) (text : List Char) : List (Span × List Char) :=
  if text.isEmpty then [] else [(span, text)]

/-- The blanks at the end of a text are stripped, or they are not. -/
def backText (back : Bool) (text : List Char) : List Char :=
  if back then Text.trimEnd text else text

/-- **The plain text of pieces**: each text loses the blanks at its front if the piece before it
strips what is after it, and those at its end if what follows is said to reach it. In front of the
first piece there is one that strips, or there is none. -/
def textsBy (reach : List LocatedPiece → Bool) (front : Bool) :
    List LocatedPiece → List (Span × List Char)
  | [] => []
  | l :: rest =>
    match l.piece with
    | .text raw =>
      keptText l.span (backText (reach rest) (frontText front raw)) ++ textsBy reach false rest
    | piece => textsBy reach piece.stripsAfter rest

section

variable (reach : List LocatedPiece → Bool) (front : Bool) (start : Position)
  (rest : List LocatedPiece)

theorem textsBy_text (raw : List Char) :
    textsBy reach front (⟨start, .text raw⟩ :: rest) =
      keptText (LocatedPiece.span ⟨start, .text raw⟩)
        (backText (reach rest) (frontText front raw)) ++ textsBy reach false rest := rfl

theorem textsBy_comment (strip : Strip) (long : Bool) (body : List Char) :
    textsBy reach front (⟨start, .comment strip long body⟩ :: rest) =
      textsBy reach strip.after rest := rfl

theorem textsBy_tag (strip : Strip) (braces : Braces) (inner : List Char) :
    textsBy reach front (⟨start, .tag strip braces inner⟩ :: rest) =
      textsBy reach strip.after rest := rfl

end

/-- **The neighbour strips**: the next piece is a tag or comment that strips what is before it. -/
def adjacent : List LocatedPiece → Bool
  | [] => false
  | l :: _ => l.piece.stripsBefore

/-- **A mark reaches back** to a text, where so many texts of blanks stand in between. A tag is the
last piece that can. A comment does not stand in between, nor does a text of which nothing is left;
each mark takes one text of blanks away. -/
def reaches (standing : Nat) (front : Bool) : List LocatedPiece → Bool
  | [] => false
  | l :: rest =>
    match l.piece with
    | .text raw =>
      if (frontText front raw).isEmpty then reaches standing false rest
      else (Text.trimEnd (frontText front raw)).isEmpty && reaches (standing + 1) false rest
    | .comment strip _ _ =>
      match strip.before, standing with
      | false, standing => reaches standing strip.after rest
      | true, 0 => true
      | true, standing + 1 => reaches standing strip.after rest
    | .tag strip _ _ => strip.before && standing = 0

section

variable (standing : Nat) (front : Bool) (start : Position) (rest : List LocatedPiece)

theorem reaches_text (raw : List Char) :
    reaches standing front (⟨start, .text raw⟩ :: rest) =
      if (frontText front raw).isEmpty then reaches standing false rest
      else (Text.trimEnd (frontText front raw)).isEmpty && reaches (standing + 1) false rest := rfl

/-- A mark takes one text of blanks away, or reaches the text where none stands in between. -/
theorem reaches_comment (strip : Strip) (long : Bool) (body : List Char) :
    reaches standing front (⟨start, .comment strip long body⟩ :: rest) =
      match strip.before, standing with
      | false, standing => reaches standing strip.after rest
      | true, 0 => true
      | true, standing + 1 => reaches standing strip.after rest := rfl

theorem reaches_tag (strip : Strip) (braces : Braces) (inner : List Char) :
    reaches standing front (⟨start, .tag strip braces inner⟩ :: rest) =
      (strip.before && decide (standing = 0)) := rfl

end

/-! ## Whitespace control -/

namespace Stripping

/-- **What becomes of the texts that are pending**, in order, where it is said of each number of
texts of blanks behind a text whether it is reached over them. Over a text with more than blanks
none is reached. -/
def settle (reach : Nat → Bool) (standing : Nat) : List (Span × List Char) → List (Span × List Char)
  | [] => []
  | p :: earlier =>
    let own := if reach standing then stripLast [p] else [p]
    (if (Text.trimEnd p.2).isEmpty then settle reach (standing + 1) earlier else earlier.reverse) ++
      own

theorem settle_cons (reach : Nat → Bool) (standing : Nat) (p : Span × List Char)
    (earlier : List (Span × List Char)) :
    settle reach standing (p :: earlier) =
      (if (Text.trimEnd p.2).isEmpty then settle reach (standing + 1) earlier
        else earlier.reverse) ++ (if reach standing then stripLast [p] else [p]) := rfl

theorem settle_shift (reach : Nat → Bool) (standing : Nat) (pending : List (Span × List Char)) :
    settle (fun n => reach (n + 1)) standing pending = settle reach (standing + 1) pending := by
  induction pending generalizing standing with
  | nil => rfl
  | cons p earlier ih => rw [settle_cons, settle_cons, ih]

/-- Where nothing is reached, everything stays. -/
theorem settle_never (standing : Nat) (pending : List (Span × List Char)) :
    settle (fun _ => false) standing pending = pending.reverse := by
  induction pending generalizing standing with
  | nil => rfl
  | cons p earlier ih =>
    rw [settle_cons, ih]
    simp

/-- What is reached by a mark, or behind it: once the mark has taken a text of blanks away, one less
stands in between. -/
def throughMark (reach : Nat → Bool) : Nat → Bool
  | 0 => true
  | standing + 1 => reach standing

/-- **A mark takes the blanks of the text that is pending last**, and with it a text of blanks. -/
theorem settle_stripLast (reach : Nat → Bool) (pending : List (Span × List Char)) :
    settle reach 0 (stripLast pending) = settle (throughMark reach) 0 pending := by
  cases pending with
  | nil => rfl
  | cons p earlier =>
    obtain ⟨span, text⟩ := p
    rw [settle_cons]
    by_cases hblank : (Text.trimEnd text).isEmpty = true
    · -- The text goes, and the one in front of it is pending last.
      have hshift := settle_shift (throughMark reach) 0 earlier
      simp only [stripLast, throughMark, hblank, if_true]
      rw [List.append_nil]
      exact hshift
    · -- The text has lost its blanks, so that it is of no matter whether it is reached again.
      simp only [stripLast, throughMark, hblank, if_true, Bool.false_eq_true, if_false]
      rw [settle_cons]
      simp [Text.trimEnd_trimEnd, hblank, stripLast]

/-- What the texts before a tag come to. -/
theorem settle_tag (strip : Bool) (pending : List (Span × List Char)) :
    settle (fun n => strip && decide (n = 0)) 0 pending =
      (if strip then stripLast pending else pending).reverse := by
  cases strip with
  | false => exact settle_never 0 pending
  | true =>
    have hstrip := settle_stripLast (fun _ => false) pending
    rw [settle_never] at hstrip
    rw [if_pos rfl, hstrip]
    congr 1
    funext n
    cases n <;> rfl

/-- The texts that are settled, in order. -/
def settledTexts (s : Stripping) : List (Span × List Char) :=
  s.settled.reverse.filterMap Part.content?

/-- The texts of all parts so far. -/
theorem filterMap_parts (s : Stripping) :
    s.parts.reverse.filterMap Part.content? = s.settledTexts ++ s.pending.reverse := by
  unfold parts settledTexts
  rw [List.reverse_append, List.filterMap_append, ← List.map_reverse, List.filterMap_map]
  congr 1
  exact List.filterMap_some

/-- What a state and the pieces behind it come to: the texts that are settled, what becomes of those
that are pending, and the plain text of the pieces. -/
def outcome (s : Stripping) (pieces : List LocatedPiece) : List (Span × List Char) :=
  s.settledTexts ++ settle (fun n => reaches n s.stripNext pieces) 0 s.pending ++
    textsBy (reaches 0 false) s.stripNext pieces

/-- A text of which something is left is kept as whitespace control keeps it. -/
theorem keptText_backText {span : Span} {text : List Char} (h : ¬ text.isEmpty = true)
    (back : Bool) : keptText span (backText back text) =
      if back then stripLast [(span, text)] else [(span, text)] := by
  unfold keptText backText
  cases back with
  | false => simp [h]
  | true => rfl

/-- A text of which something is left is pending; one of which nothing is left has gone. -/
theorem outcome_text (s : Stripping) (start : Position) (raw : List Char)
    (rest : List LocatedPiece) :
    (s.step ⟨start, .text raw⟩).outcome rest = s.outcome (⟨start, .text raw⟩ :: rest) := by
  have hstep : s.step ⟨start, .text raw⟩ =
      { s with
        pending := if (frontText s.stripNext raw).isEmpty then s.pending
          else (LocatedPiece.span ⟨start, .text raw⟩, frontText s.stripNext raw) :: s.pending
        stripNext := false } := rfl
  rw [hstep]
  unfold outcome settledTexts
  simp only [textsBy_text, reaches_text]
  by_cases hempty : (frontText s.stripNext raw).isEmpty = true
  · have hnil : frontText s.stripNext raw = [] := List.isEmpty_iff.mp hempty
    have hkept (back : Bool) : keptText (LocatedPiece.span ⟨start, .text raw⟩)
        (backText back (frontText s.stripNext raw)) = [] := by
      rw [hnil]
      cases back <;> rfl
    simp only [hempty, if_true, hkept, List.nil_append]
  · rw [if_neg hempty, settle_cons, keptText_backText hempty]
    simp only [hempty, Bool.false_eq_true, if_false]
    -- What is pending can be reached over a text of blanks alone.
    by_cases hblank : (Text.trimEnd (frontText s.stripNext raw)).isEmpty = true
    · have hshift := settle_shift (fun n => reaches n false rest) 0 s.pending
      simp only [hblank, if_true, Bool.true_and]
      rw [← hshift]
      simp only [List.append_assoc]
    · simp only [hblank, Bool.false_eq_true, if_false, Bool.false_and]
      rw [settle_never]
      simp only [List.append_assoc]

/-- A comment strips the text that is pending last, if it is marked. -/
theorem outcome_comment (s : Stripping) (start : Position) (strip : Strip) (long : Bool)
    (body : List Char) (rest : List LocatedPiece) :
    (s.step ⟨start, .comment strip long body⟩).outcome rest =
      s.outcome (⟨start, .comment strip long body⟩ :: rest) := by
  have hstep : s.step ⟨start, .comment strip long body⟩ =
      { s with
        pending := if strip.before then stripLast s.pending else s.pending
        stripNext := strip.after } := rfl
  rw [hstep]
  unfold outcome settledTexts
  simp only [textsBy_comment, reaches_comment]
  cases hbefore : strip.before with
  | false => rfl
  | true =>
    simp only [if_true]
    rw [settle_stripLast]
    congr 3
    funext n
    cases n <;> rfl

/-- A tag settles the texts that are pending, less what it strips. -/
theorem outcome_tag (s : Stripping) (start : Position) (strip : Strip) (braces : Braces)
    (inner : List Char) (rest : List LocatedPiece) :
    (s.step ⟨start, .tag strip braces inner⟩).outcome rest =
      s.outcome (⟨start, .tag strip braces inner⟩ :: rest) := by
  have hstep : s.step ⟨start, .tag strip braces inner⟩ =
      ⟨.tag (LocatedPiece.span ⟨start, .tag strip braces inner⟩)
          (innerExcerpt start strip braces inner) ::
        parts { s with pending := if strip.before then stripLast s.pending else s.pending },
        [], strip.after⟩ := rfl
  have hparts := filterMap_parts
    { s with pending := if strip.before then stripLast s.pending else s.pending }
  rw [hstep]
  unfold outcome
  simp only [textsBy_tag, reaches_tag, settle_tag]
  rw [settledTexts, List.reverse_cons, List.filterMap_append, hparts]
  simp [Part.content?, settle, settledTexts]

/-- **One piece** changes nothing about what a state and the pieces behind it come to. -/
theorem outcome_step (s : Stripping) (l : LocatedPiece) (rest : List LocatedPiece) :
    (s.step l).outcome rest = s.outcome (l :: rest) := by
  obtain ⟨start, piece⟩ := l
  cases piece with
  | text raw => exact s.outcome_text start raw rest
  | comment strip long body => exact s.outcome_comment start strip long body rest
  | tag strip braces inner => exact s.outcome_tag start strip braces inner rest

theorem outcome_nil (s : Stripping) :
    s.outcome [] = s.parts.reverse.filterMap Part.content? := by
  have hnone : (fun n => reaches n s.stripNext []) = fun _ => false := rfl
  unfold outcome
  rw [hnone, settle_never, textsBy, List.append_nil, filterMap_parts]

/-- **Whitespace control strips the ends that are reached**: the texts of all parts are what the
state and the pieces come to. -/
theorem contents_foldl (s : Stripping) (pieces : List LocatedPiece) :
    (pieces.foldl step s).parts.reverse.filterMap Part.content? = s.outcome pieces := by
  induction pieces generalizing s with
  | nil => exact s.outcome_nil.symm
  | cons l rest ih => rw [List.foldl_cons, ih, outcome_step]

end Stripping

/-! ## Neighbours -/

/-- **A mark reaches too far**: over a comment, to a text that ends in blanks and is not its
neighbour. -/
def overreaches (front : Bool) : List LocatedPiece → Bool
  | [] => false
  | l :: rest =>
    match l.piece with
    | .text raw =>
      (reaches 0 false rest && !adjacent rest &&
        Text.trimEnd (frontText front raw) ≠ frontText front raw) || overreaches false rest
    | piece => overreaches piece.stripsAfter rest

/-- A neighbour that strips is reached. -/
theorem reaches_of_adjacent {pieces : List LocatedPiece} (h : adjacent pieces = true)
    (front : Bool) : reaches 0 front pieces = true := by
  cases pieces with
  | nil => cases h
  | cons l rest =>
    obtain ⟨start, piece⟩ := l
    cases piece with
    | text raw => cases h
    | comment strip long body =>
      have hbefore : strip.before = true := h
      rw [reaches_comment, hbefore]
    | tag strip braces inner =>
      have hbefore : strip.before = true := h
      simp [reaches_tag, hbefore]

/-- Where no mark reaches too far, the neighbours alone count. -/
theorem textsBy_adjacent {pieces : List LocatedPiece} {front : Bool}
    (h : overreaches front pieces = false) :
    textsBy (reaches 0 false) front pieces = textsBy adjacent front pieces := by
  induction pieces generalizing front with
  | nil => rfl
  | cons l rest ih =>
    obtain ⟨start, piece⟩ := l
    cases piece with
    | text raw =>
      obtain ⟨hown, hrest⟩ := Bool.or_eq_false_iff.mp h
      have hback : backText (reaches 0 false rest) (frontText front raw) =
          backText (adjacent rest) (frontText front raw) := by
        cases hadjacent : adjacent rest with
        | true => rw [reaches_of_adjacent hadjacent]
        | false =>
          cases hreach : reaches 0 false rest with
          | false => rfl
          | true => simpa [hadjacent, hreach, backText] using hown
      rw [textsBy_text, textsBy_text, hback, ih hrest]
    | comment strip long body => exact ih h
    | tag strip braces inner => exact ih h

/-- The number of characters in texts. -/
def textSize (texts : List (Span × List Char)) : Nat := (texts.flatMap Prod.snd).length

theorem textSize_append (as bs : List (Span × List Char)) :
    textSize (as ++ bs) = textSize as + textSize bs := by
  unfold textSize
  rw [List.flatMap_append, List.length_append]

theorem textSize_keptText (span : Span) (text : List Char) :
    textSize (keptText span text) = text.length := by
  unfold keptText textSize
  cases text <;> simp

/-- What is reached loses no less than what has a neighbour that strips. -/
theorem length_backText_le {rest : List LocatedPiece} (text : List Char) :
    (backText (reaches 0 false rest) text).length ≤ (backText (adjacent rest) text).length := by
  cases hadjacent : adjacent rest with
  | true => rw [reaches_of_adjacent hadjacent]
  | false =>
    cases reaches 0 false rest with
    | false => exact le_refl _
    | true => exact (Text.prefix_trimEnd text).length_le

theorem textSize_textsBy_le (front : Bool) (pieces : List LocatedPiece) :
    textSize (textsBy (reaches 0 false) front pieces) ≤
      textSize (textsBy adjacent front pieces) := by
  induction pieces generalizing front with
  | nil => exact le_refl _
  | cons l rest ih =>
    obtain ⟨start, piece⟩ := l
    cases piece with
    | text raw =>
      have hown : (backText (reaches 0 false rest) (frontText front raw)).length ≤
          (backText (adjacent rest) (frontText front raw)).length := length_backText_le _
      simp only [textsBy_text, textSize_append, textSize_keptText]
      exact Nat.add_le_add hown (ih false)
    | comment strip long body => exact ih strip.after
    | tag strip braces inner => exact ih strip.after

/-- **Where a mark reaches too far, characters are missing.** -/
theorem textSize_textsBy_lt {front : Bool} {pieces : List LocatedPiece}
    (h : overreaches front pieces = true) :
    textSize (textsBy (reaches 0 false) front pieces) <
      textSize (textsBy adjacent front pieces) := by
  induction pieces generalizing front with
  | nil => cases h
  | cons l rest ih =>
    obtain ⟨start, piece⟩ := l
    cases piece with
    | text raw =>
      have hle : (backText (reaches 0 false rest) (frontText front raw)).length ≤
          (backText (adjacent rest) (frontText front raw)).length := length_backText_le _
      simp only [textsBy_text, textSize_append, textSize_keptText]
      rcases Bool.or_eq_true_iff.mp h with hown | hrest
      · simp only [Bool.and_eq_true, Bool.not_eq_true', decide_eq_true_eq] at hown
        obtain ⟨⟨hreach, hadjacent⟩, hblanks⟩ := hown
        have hlt : (backText (reaches 0 false rest) (frontText front raw)).length <
            (backText (adjacent rest) (frontText front raw)).length := by
          rw [hreach, hadjacent]
          exact Text.length_trimEnd_lt hblanks
        exact Nat.add_lt_add_of_lt_of_le hlt (textSize_textsBy_le false rest)
      · exact Nat.add_lt_add_of_le_of_lt hle (ih hrest)
    | comment strip long body => exact ih h
    | tag strip braces inner => exact ih h

/-- **The neighbours alone count just where no mark reaches too far.** -/
theorem textsBy_eq_iff {front : Bool} {pieces : List LocatedPiece} :
    textsBy (reaches 0 false) front pieces = textsBy adjacent front pieces ↔
      overreaches front pieces = false := by
  refine ⟨fun heq => ?_, textsBy_adjacent⟩
  refine Bool.eq_false_iff.mpr fun hover => ?_
  have hlt := textSize_textsBy_lt hover
  rw [heq] at hlt
  exact lt_irrefl _ hlt

/-- What a mark reaches over begins with a comment that has no mark of its own, unless it begins
with text. -/
theorem exists_comment_of_reaches {rest : List LocatedPiece} (hreach : reaches 0 false rest = true)
    (hadjacent : adjacent rest = false) : ∃ l more, rest = l :: more ∧ (l.piece.IsText ∨
      ∃ strip long body, l.piece = .comment strip long body ∧ strip.before = false) := by
  cases rest with
  | nil => cases hreach
  | cons l more =>
    refine ⟨l, more, rfl, ?_⟩
    obtain ⟨start, piece⟩ := l
    cases piece with
    | text raw => exact .inl ⟨raw, rfl⟩
    | comment strip long body => exact .inr ⟨strip, long, body, rfl, hadjacent⟩
    | tag strip braces inner =>
      have hbefore : strip.before = false := hadjacent
      simp [reaches_tag, hbefore] at hreach

/-- **A mark can only reach too far where a comment without a mark in front stands right behind a
text.** -/
theorem exists_comment_of_overreaches {front : Bool} {pieces : List LocatedPiece}
    (hapart : ∀ first second, [first, second] <:+: pieces → first.piece.IsText →
      ¬second.piece.IsText) (h : overreaches front pieces = true) :
    ∃ first second strip long body, [first, second] <:+: pieces ∧ first.piece.IsText ∧
      second.piece = .comment strip long body ∧ strip.before = false := by
  induction pieces generalizing front with
  | nil => cases h
  | cons l rest ih =>
    have hlater {front : Bool} (hrest : overreaches front rest = true) :
        ∃ first second strip long body, [first, second] <:+: l :: rest ∧ first.piece.IsText ∧
          second.piece = .comment strip long body ∧ strip.before = false := by
      obtain ⟨first, second, strip, long, body, hinfix, hfound⟩ :=
        ih (fun first second hinfix => hapart first second (List.infix_cons hinfix)) hrest
      exact ⟨first, second, strip, long, body, List.infix_cons hinfix, hfound⟩
    obtain ⟨start, piece⟩ := l
    cases piece with
    | comment strip long body => exact hlater h
    | tag strip braces inner => exact hlater h
    | text raw =>
      rcases Bool.or_eq_true_iff.mp h with hown | hrest
      · simp only [Bool.and_eq_true, Bool.not_eq_true', decide_eq_true_eq] at hown
        obtain ⟨second, more, rfl, hsecond⟩ := exists_comment_of_reaches hown.1.1 hown.1.2
        have hinfix : [⟨start, .text raw⟩, second] <:+:
            (⟨start, .text raw⟩ : LocatedPiece) :: second :: more := ⟨[], more, rfl⟩
        rcases hsecond with htext | ⟨strip, long, body, hcomment, hbefore⟩
        · exact absurd htext (hapart _ _ hinfix ⟨raw, rfl⟩)
        · exact ⟨_, second, strip, long, body, hinfix, ⟨raw, rfl⟩, hcomment, hbefore⟩
      · exact hlater hrest

/-! ## Every template -/

/-- The text of a program is what whitespace control leaves of the plain text. -/
theorem contents_eq_textsBy {text : String} {p : Program} (h : readProgram text = .ok p) :
    p.contents = textsBy (reaches 0 false) false (readPieces text).1 := by
  have hderives := (readProgram_eq_ok_iff (readPieces_of_readProgram h)).mp h
  rw [hderives.contents]
  unfold stripPieces
  rw [Stripping.contents_foldl]
  rfl

/-- **The text of every program that is read.** In the order of the template, through all blocks and
branches, it is the plain text of the pieces. A text loses the blanks at its front just where the
piece before it is a tag or comment that strips what is after it, and the blanks at its end just
where a mark behind it reaches it; it goes if nothing is left. The neighbours of each text alone
decide if and only if no mark reaches over a comment to a text that ends in blanks, and that takes a
comment without a mark in front that stands right behind a text. -/
theorem contents_of_readProgram {text : String} {p : Program} (h : readProgram text = .ok p) :
    p.contents = textsBy (reaches 0 false) false (readPieces text).1 ∧
    (p.contents = textsBy adjacent false (readPieces text).1 ↔
      overreaches false (readPieces text).1 = false) ∧
    (overreaches false (readPieces text).1 = true →
      ∃ first second strip long body, [first, second] <:+: (readPieces text).1 ∧
        first.piece.IsText ∧ second.piece = .comment strip long body ∧ strip.before = false) := by
  have hcontents := contents_eq_textsBy h
  refine ⟨hcontents, ?_, ?_⟩
  · rw [hcontents]
    exact textsBy_eq_iff
  · intro hover
    have hpartition := (readPieces_partition text).2.2.2 _ (readPieces_of_readProgram h)
    exact exists_comment_of_overreaches hpartition.apart hover

/-- A comment and a block with marks around them, and blanks in the block. -/
def markedText : String :=
  "a  \x7b\x7b~! gone ~\x7d\x7d  b \x7b\x7b~#if x~\x7d\x7d \x7b\x7b~/if\x7d\x7d c"

/-- A comment without marks, between a text and a tag with a mark. -/
def crossedText : String := "a \x7b\x7b! c \x7d\x7d\x7b\x7b~x\x7d\x7d"

/-- Marks take the blanks next to them, and where a comment stands in between, those of the text in
front of it. -/
theorem marked_contents :
    (∃ p, readProgram markedText = .ok p ∧
      p.contents = textsBy adjacent false (readPieces markedText).1 ∧
      p.contents.map Prod.snd = [['a'], ['b'], [' ', 'c']]) ∧
    ∃ p first second strip long body, readProgram crossedText = .ok p ∧
      [first, second] <:+: (readPieces crossedText).1 ∧ first.piece.IsText ∧
      second.piece = .comment strip long body ∧ strip.before = false := by
  constructor
  · have hread : ∃ p, readProgram markedText = .ok p ∧
        decide (p.contents.map Prod.snd = [['a'], ['b'], [' ', 'c']]) = true :=
      exists_eq_ok (by decide +kernel)
    have hnone : overreaches false (readPieces markedText).1 = false := by decide +kernel
    obtain ⟨p, hp, htexts⟩ := hread
    exact ⟨p, hp, (contents_of_readProgram hp).2.1.mpr hnone, of_decide_eq_true htexts⟩
  · have hread : (readProgram crossedText).isOk = true := by decide +kernel
    have hover : overreaches false (readPieces crossedText).1 = true := by decide +kernel
    obtain ⟨p, hp⟩ := exists_of_isOk hread
    obtain ⟨first, second, strip, long, body, hfound⟩ := (contents_of_readProgram hp).2.2 hover
    exact ⟨p, first, second, strip, long, body, hp, hfound⟩

/-- So the neighbours of a text do not always decide: the mark of a tag takes the blanks of a text
in front of a comment. -/
theorem not_contents_adjacent :
    ¬∀ (text : String) (p : Program), readProgram text = .ok p →
      p.contents = textsBy adjacent false (readPieces text).1 := by
  intro hall
  have hread : ∃ p, readProgram crossedText = .ok p ∧
      decide (p.contents.map Prod.snd = [['a']]) = true := exists_eq_ok (by decide +kernel)
  obtain ⟨p, hp, htexts⟩ := hread
  have hlocal : (textsBy adjacent false (readPieces crossedText).1).map Prod.snd =
      [['a', ' ']] := by decide +kernel
  rw [← hall _ p hp, of_decide_eq_true htexts] at hlocal
  cases hlocal

end TypedTemplate
