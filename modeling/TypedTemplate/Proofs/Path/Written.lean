import Mathlib.Data.List.Basic
import TypedTemplate.Path

/-!
# Paths as they are written

The text of a path is a list of segments with a dot or a slash between them, behind marks that say
where the path starts. A segment is bare or in brackets. In brackets it may hold the separators, the
text of a mark and an opening bracket, or nothing at all; the splitter has to tell the dots and
brackets that it may hold from those that end it.

* `splitFrom?_run`: characters that go on with a segment.
* `Path.WrittenSegment`, `Path.WrittenPath`: what is written between the separators, and all of it.
* **`WrittenPath.splitSegments?_chars`**: a written path splits into the names of its segments.
* `splitParents_parents`, `WrittenPath.splitThis_chars`: what the marks in front are taken for.
* `WrittenPath.read_climbing`, `WrittenPath.read_variable`: what is read behind `../` and behind `@`.
* **`WrittenPath.read_chars`**: both, by the parts of the path alone.
-/

namespace TypedTemplate.Path

/-! ## Runs of characters -/

/-- The character goes on with a segment, inside brackets or outside. -/
def goesOn (inside : Bool) (c : Char) : Bool :=
  if inside then c ≠ ']' else c ≠ '.' && c ≠ '/' && c ≠ '['

theorem splitFrom?_goesOn {inside : Bool} {c : Char} (h : goesOn inside c = true)
    (segment : List Char) (bracketed : Bool) (rest : List Char) :
    splitFrom? segment bracketed inside (c :: rest) =
      splitFrom? (c :: segment) bracketed inside rest := by
  rw [splitFrom?]
  cases inside with
  | true =>
    have hclose : c ≠ ']' := by simpa [goesOn] using h
    simp [hclose]
  | false =>
    have hplain : (c ≠ '.' ∧ c ≠ '/') ∧ c ≠ '[' := by simpa [goesOn] using h
    simp [hplain]

/-- **A run of characters that go on with a segment** is taken as it stands. -/
theorem splitFrom?_run {inside : Bool} {cs : List Char} (h : ∀ c ∈ cs, goesOn inside c = true)
    (segment : List Char) (bracketed : Bool) (rest : List Char) :
    splitFrom? segment bracketed inside (cs ++ rest) =
      splitFrom? (cs.reverse ++ segment) bracketed inside rest := by
  induction cs generalizing segment with
  | nil => rfl
  | cons c cs ih =>
    rw [List.forall_mem_cons] at h
    rw [List.cons_append, splitFrom?_goesOn h.1, ih h.2, List.reverse_cons, List.append_assoc]
    rfl

/-! ## Segments -/

/-- What a bare segment cannot hold. A closing bracket it can, since none is open. -/
def segmentMarks : List Char := ['.', '/', '[', '|']

/-- **A segment as it is written**: bare, or in brackets, where it ends at the first closing one. A
bar is refused in either. -/
inductive WrittenSegment where
  | bare (name : List Char) (nonempty : name ≠ []) (plain : ∀ c ∈ name, c ∉ segmentMarks)
  | bracketed (name : List Char) (closed : ']' ∉ name) (unbarred : '|' ∉ name)

namespace WrittenSegment

/-- The segment that is meant. -/
def name : WrittenSegment → List Char
  | bare name _ _ => name
  | bracketed name _ _ => name

/-- The text of the segment. -/
def chars : WrittenSegment → List Char
  | bare name _ _ => name
  | bracketed name _ _ => '[' :: (name ++ [']'])

/-- The segment is in brackets. -/
def isBracketed : WrittenSegment → Bool
  | bare _ _ _ => false
  | bracketed _ _ _ => true

/-- **A segment that may stand in front**: a bare one neither is the mark `this` nor begins like a
variable. -/
def Unmarked : WrittenSegment → Prop
  | bare name _ _ => name ≠ ['t', 'h', 'i', 's'] ∧ name.head? ≠ some '@'
  | bracketed _ _ _ => True

variable (s : WrittenSegment)

theorem chars_ne_nil : s.chars ≠ [] := by
  cases s with
  | bare name nonempty plain => exact nonempty
  | bracketed => exact List.cons_ne_nil _ _

theorem not_mem_chars_bar : '|' ∉ s.chars := by
  cases s with
  | bare name nonempty plain => exact fun hmem => plain '|' hmem (by decide)
  | bracketed name closed unbarred =>
    simp only [chars, List.mem_cons, List.mem_append, List.not_mem_nil, or_false]
    rintro (hopen | hname | hclose)
    · exact absurd hopen (by decide)
    · exact unbarred hname
    · exact absurd hclose (by decide)

/-- A segment begins neither like a mark of the context nor, where it may stand in front, like a
variable. -/
theorem head?_chars : s.chars.head? ≠ some '.' ∧ (s.Unmarked → s.chars.head? ≠ some '@') := by
  cases s with
  | bare name nonempty plain =>
    refine ⟨fun hhead => ?_, fun h => h.2⟩
    exact plain '.' (List.mem_of_mem_head? hhead) (by decide)
  | bracketed => exact ⟨by simp [chars], fun _ => by simp [chars]⟩

/-- What stands in brackets may be empty, and what does not may not. -/
theorem not_isEmpty_name : (s.name.reverse.isEmpty && !s.isBracketed) = false := by
  cases s with
  | bare segment nonempty plain => simp [name, nonempty]
  | bracketed segment closed unbarred => simp [isBracketed]

/-- **A written segment is taken whole**, whatever follows it. -/
theorem splitFrom?_chars (rest : List Char) :
    splitFrom? [] false false (s.chars ++ rest) =
      splitFrom? s.name.reverse s.isBracketed false rest := by
  cases s with
  | bare name nonempty plain =>
    have hrun : ∀ c ∈ name, goesOn false c = true := by
      intro c hc
      have hmarks := plain c hc
      simp only [segmentMarks, List.mem_cons, not_or] at hmarks
      simp [goesOn, hmarks]
    have hbare := splitFrom?_run hrun [] false rest
    rwa [List.append_nil] at hbare
  | bracketed name closed unbarred =>
    have hrun : ∀ c ∈ name, goesOn true c = true := by
      intro c hc
      have hne : c ≠ ']' := fun heq => closed (heq ▸ hc)
      simp [goesOn, hne]
    have hopen : splitFrom? [] false false ('[' :: (name ++ ']' :: rest)) =
        splitFrom? [] true true (name ++ ']' :: rest) := by
      rw [splitFrom?]
      rfl
    have hclose : splitFrom? name.reverse true true (']' :: rest) =
        splitFrom? name.reverse true false rest := by
      rw [splitFrom?]
      simp
    calc splitFrom? [] false false ('[' :: (name ++ [']']) ++ rest)
        = splitFrom? [] false false ('[' :: (name ++ ']' :: rest)) := by simp
      _ = splitFrom? [] true true (name ++ ']' :: rest) := hopen
      _ = splitFrom? (name.reverse ++ []) true true (']' :: rest) := splitFrom?_run hrun ..
      _ = splitFrom? name.reverse true false rest := by rw [List.append_nil, hclose]

end WrittenSegment

/-! ## Paths -/

/-- What stands between two segments. -/
inductive Separator where
  | dot
  | slash
  deriving DecidableEq

/-- The character of a separator. -/
def Separator.char : Separator → Char
  | dot => '.'
  | slash => '/'

/-- **A path as it is written**, behind its marks. -/
structure WrittenPath where
  first : WrittenSegment
  further : List (Separator × WrittenSegment)

/-- The text of segments behind the first one. -/
def furtherChars (further : List (Separator × WrittenSegment)) : List Char :=
  further.flatMap fun s => s.1.char :: s.2.chars

/-- Each separator ends the segment in front of it, and the text ends the last one. -/
theorem splitFrom?_further (first : WrittenSegment)
    (further : List (Separator × WrittenSegment)) :
    splitFrom? [] false false (first.chars ++ furtherChars further) =
      some (first.name :: further.map fun s => s.2.name) := by
  induction further generalizing first with
  | nil =>
    rw [first.splitFrom?_chars, furtherChars, List.flatMap_nil, splitFrom?, first.not_isEmpty_name]
    simp
  | cons step further ih =>
    obtain ⟨separator, next⟩ := step
    have hends : splitFrom? first.name.reverse first.isBracketed false
        (separator.char :: (next.chars ++ furtherChars further)) =
        (splitFrom? [] false false (next.chars ++ furtherChars further)).map (first.name :: ·) := by
      rw [splitFrom?, first.not_isEmpty_name]
      cases separator <;> simp [Separator.char]
    have hchars : furtherChars ((separator, next) :: further) =
        separator.char :: (next.chars ++ furtherChars further) := rfl
    rw [first.splitFrom?_chars, hchars, hends, ih]
    rfl

namespace WrittenPath

/-- The text of a path. -/
def chars (w : WrittenPath) : List Char := w.first.chars ++ furtherChars w.further

/-- The segments that are meant. -/
def parts (w : WrittenPath) : List String :=
  (w.first :: w.further.map Prod.snd).map fun s => String.ofList s.name

variable (w : WrittenPath)

/-- **A written path splits** into the names of its segments. -/
theorem splitSegments?_chars : splitSegments? w.chars = some w.parts := by
  unfold splitSegments? chars
  rw [splitFrom?_further]
  simp [parts]

theorem chars_ne_nil : w.chars ≠ [] := List.append_ne_nil_of_left_ne_nil w.first.chars_ne_nil _

theorem not_mem_chars_bar : '|' ∉ w.chars := by
  simp only [chars, furtherChars, List.mem_append, List.mem_flatMap, List.mem_cons]
  rintro (hfirst | ⟨⟨separator, next⟩, -, hseparator | hnext⟩)
  · exact w.first.not_mem_chars_bar hfirst
  · cases separator <;> cases hseparator
  · exact next.not_mem_chars_bar hnext

theorem head?_chars : w.chars.head? = w.first.chars.head? :=
  List.head?_append_of_ne_nil _ w.first.chars_ne_nil

/-! ## Marks -/

/-- A bare segment in front goes up to the first separator. -/
theorem takeWhile_chars {name : List Char} {nonempty : name ≠ []}
    {plain : ∀ c ∈ name, c ∉ segmentMarks} (h : w.first = .bare name nonempty plain) :
    w.chars.takeWhile (fun c => c ≠ '.' && c ≠ '/') = name := by
  have hname : ∀ c ∈ name, (c ≠ '.' && c ≠ '/') = true := by
    intro c hc
    have hmarks := plain c hc
    simp only [segmentMarks, List.mem_cons, not_or] at hmarks
    simp [hmarks]
  have hfurther : (furtherChars w.further).takeWhile (fun c => c ≠ '.' && c ≠ '/') = [] := by
    cases w.further with
    | nil => rfl
    | cons step further =>
      obtain ⟨separator, next⟩ := step
      cases separator <;> rfl
  rw [chars, h]
  exact (List.takeWhile_append_of_pos hname).trans (by rw [hfurther, List.append_nil])

/-- **Nothing in front of a written path is taken for `this`.** -/
theorem splitThis_chars (h : w.first.Unmarked) : splitThis w.chars = (false, w.chars) := by
  cases hfirst : w.first with
  | bracketed name closed unbarred =>
    unfold chars
    rw [hfirst]
    rfl
  | bare name nonempty plain =>
    have htake := w.takeWhile_chars hfirst
    rw [hfirst] at h
    -- Every text with the mark in front has the mark, or nothing, up to its first separator.
    have hfront {cs : List Char} (hchars : w.chars = cs)
        (hmark : cs.takeWhile (fun c => c ≠ '.' && c ≠ '/') = ['t', 'h', 'i', 's'] ∨
          cs.takeWhile (fun c => c ≠ '.' && c ≠ '/') = []) : False := by
      rw [hchars] at htake
      rcases hmark with hthis | hnil
      · exact h.1 (htake.symm.trans hthis)
      · exact nonempty (htake.symm.trans hnil)
    unfold splitThis
    split
    · next hchars => exact (hfront hchars (.inl rfl)).elim
    · next hchars => exact (hfront hchars (.inr rfl)).elim
    · next hchars => exact (hfront hchars (.inl rfl)).elim
    · next hchars => exact (hfront hchars (.inl rfl)).elim
    · next hchars => exact (hfront hchars (.inr rfl)).elim
    · rfl

end WrittenPath

/-- The marks of a path that leaves so many contexts. -/
def parents (depth : Nat) : List Char := (List.replicate depth ['.', '.', '/']).flatten

/-- **The contexts that are left** are counted up to a text that begins with no dot. -/
theorem splitParents_parents (depth : Nat) {cs : List Char} (h : cs.head? ≠ some '.') :
    splitParents (parents depth ++ cs) = (depth, cs) := by
  induction depth with
  | zero =>
    change splitParents cs = (0, cs)
    unfold splitParents
    split
    · exact absurd rfl h
    · exact absurd rfl h
    · rfl
  | succ depth ih =>
    have hchars : parents (depth + 1) ++ cs = '.' :: '.' :: '/' :: (parents depth ++ cs) := by
      simp [parents, List.replicate_succ]
    rw [hchars, splitParents, ih]

theorem not_mem_parents_bar (depth : Nat) : '|' ∉ parents depth := by
  simp [parents]

theorem head?_parents_append (depth : Nat) {cs : List Char} (h : cs.head? ≠ some '@') :
    (parents depth ++ cs).head? ≠ some '@' := by
  cases depth with
  | zero => exact h
  | succ depth => simp [parents, List.replicate_succ]

/-! ## Reading -/

namespace WrittenPath

variable (w : WrittenPath)

/-- **Behind `../`**, however often, a written path leaves as many contexts. -/
theorem read_climbing (h : w.first.Unmarked) (depth : Nat) (start : Position) :
    read ⟨start, parents depth ++ w.chars⟩ =
      .ok ⟨Excerpt.span ⟨start, parents depth ++ w.chars⟩,
        String.ofList (parents depth ++ w.chars), w.parts, depth, false, false⟩ := by
  have hbar : (parents depth ++ w.chars).contains '|' = false := by
    simp [not_mem_parents_bar, w.not_mem_chars_bar]
  have hdot : w.chars.head? ≠ some '.' := w.head?_chars ▸ w.first.head?_chars.1
  have hvariable : (parents depth ++ w.chars).head? ≠ some '@' :=
    head?_parents_append depth (w.head?_chars ▸ w.first.head?_chars.2 h)
  have hempty : w.chars.isEmpty = false := by simpa using w.chars_ne_nil
  unfold read
  simp only [hbar, Bool.false_eq_true, if_false]
  split
  · next rest hchars =>
    rw [hchars] at hvariable
    exact absurd rfl hvariable
  · simp only [splitParents_parents depth hdot, w.splitThis_chars h, hempty,
      w.splitSegments?_chars, Bool.false_eq_true, if_false]
    rfl

/-- **Behind `@`**, a written path is a variable. -/
theorem read_variable (start : Position) :
    read ⟨start, '@' :: w.chars⟩ =
      .ok ⟨Excerpt.span ⟨start, '@' :: w.chars⟩, String.ofList ('@' :: w.chars), w.parts, 0, true,
        false⟩ := by
  have hbar : ('@' :: w.chars).contains '|' = false := by simp [w.not_mem_chars_bar]
  unfold read
  simp only [hbar, Bool.false_eq_true, if_false, w.splitSegments?_chars]
  rfl

/-- **A written path is read back.** Behind any number of `../`, in a word anywhere in a text, it is
the path with its segments that leaves as many contexts; behind `@` it is the variable with its
segments. -/
theorem read_chars (h : w.first.Unmarked) (depth : Nat) (start : Position) :
    (∃ p, read ⟨start, parents depth ++ w.chars⟩ = .ok p ∧ p.parts = w.parts ∧ p.depth = depth ∧
      p.data = false ∧ p.this = false) ∧
    ∃ p, read ⟨start, '@' :: w.chars⟩ = .ok p ∧ p.parts = w.parts ∧ p.depth = 0 ∧
      p.data = true ∧ p.this = false :=
  ⟨⟨_, w.read_climbing h depth start, rfl, rfl, rfl, rfl⟩,
    ⟨_, w.read_variable start, rfl, rfl, rfl, rfl⟩⟩

end WrittenPath

/-- Numbers and keys in brackets, nothing in brackets, and a segment that reads like a mark. -/
def shelfPath : WrittenPath where
  first := .bare ['s', 'h', 'e', 'l', 'f'] (by decide) (by simp [segmentMarks])
  further :=
    [(.dot, .bracketed ['0'] (by decide) (by decide)),
      (.slash, .bracketed [] (by decide) (by decide)),
      (.dot, .bare ['t', 'h', 'i', 's'] (by decide) (by simp [segmentMarks])),
      (.slash, .bracketed ['a', '.', 'b', '/', '[', 'c'] (by decide) (by decide))]

theorem shelfPath_read :
    shelfPath.first.Unmarked ∧
    parents 2 ++ shelfPath.chars = "../../shelf.[0]/[].this/[a.b/[c]".toList ∧
    (∃ p, read ⟨.start, parents 2 ++ shelfPath.chars⟩ = .ok p ∧
      p.parts = ["shelf", "0", "", "this", "a.b/[c"] ∧ p.depth = 2 ∧ p.data = false ∧
      p.this = false) ∧
    ∃ p, read ⟨.start, '@' :: shelfPath.chars⟩ = .ok p ∧
      p.parts = ["shelf", "0", "", "this", "a.b/[c"] ∧ p.depth = 0 ∧ p.data = true ∧
      p.this = false := by
  have hfirst : shelfPath.first.Unmarked := ⟨by decide, by decide⟩
  exact ⟨hfirst, by decide, shelfPath.read_chars hfirst 2 .start⟩

end TypedTemplate.Path
