import TypedTemplate.Proofs.Source.Position

/-!
# The table of lines

The lines of a source are noted in a single pass, by offsets of 32 bits that are kept along with the
last character. What the table says is put here without the pass: it is *laid* along the text, each
entry from the front of a line to its end, or to the carriage return in front of it. From this all
else follows.

* `cutAt?_eq_some`, `charsBetween?_eq_some`: what stands between two offsets.
* `Laid`: a table that is laid along a text, behind the lines in front of it.
* `LineScan.Follows`: what the pass keeps of the text gone through; `Follows.next_of_ne`,
  `Follows.next_newline` are its steps, and **`Follows.laid`** the whole pass.
* `Laid.line_eq`, `Laid.trueIn`, `Laid.ascends`: what a table that is laid along a text says.
* **`lines_tabulated`**: the lines of a source are the parts of its text between line ends, and all
  of them can be cut out.
-/

namespace TypedTemplate

/-! ## What stands between two offsets -/

theorem byteSize_nil : byteSize [] = 0 := rfl

/-- **A text is cut at the offsets between its characters**, and nowhere else. -/
theorem cutAt?_eq_some {offset : Nat} {cs front rest : List Char} :
    cutAt? offset cs = some (front, rest) ↔ cs = front ++ rest ∧ byteSize front = offset := by
  induction cs generalizing offset front with
  | nil =>
    unfold cutAt?
    constructor
    · intro h
      split at h
      · next hzero =>
        cases h
        exact ⟨rfl, hzero.symm⟩
      · cases h
    · rintro ⟨hnil, rfl⟩
      obtain ⟨rfl, rfl⟩ := List.append_eq_nil_iff.mp hnil.symm
      rw [if_pos byteSize_nil]
  | cons c cs ih =>
    unfold cutAt?
    constructor
    · intro h
      split at h
      · next hzero =>
        cases h
        exact ⟨rfl, hzero.symm⟩
      · split at h
        · next hsize =>
          obtain ⟨⟨front', rest'⟩, hcut, he⟩ := Option.map_eq_some_iff.mp h
          cases he
          obtain ⟨rfl, hfront⟩ := ih.mp hcut
          refine ⟨rfl, ?_⟩
          rw [byteSize_cons, hfront]
          omega
        · cases h
    · rintro ⟨hcs, rfl⟩
      cases front with
      | nil =>
        rw [if_pos byteSize_nil, hcs]
        rfl
      | cons d front =>
        obtain ⟨rfl, rfl⟩ := List.cons.inj hcs
        have hpos : byteSize (c :: front) ≠ 0 :=
          Nat.ne_of_gt (byteSize_pos (List.cons_ne_nil c front))
        have hsize : c.utf8Size ≤ byteSize (c :: front) := by
          rw [byteSize_cons]
          omega
        have hrest : byteSize (c :: front) - c.utf8Size = byteSize front := by
          rw [byteSize_cons, Nat.add_sub_cancel_left]
        rw [if_neg hpos, if_pos hsize, hrest, ih.mpr ⟨rfl, rfl⟩]
        rfl

/-- **What stands between two offsets**: the text behind the first and in front of the second. -/
theorem charsBetween?_eq_some {cs chars : List Char} {start stop : Nat} :
    charsBetween? cs start stop = some chars ↔ ∃ before after, cs = before ++ chars ++ after ∧
      byteSize before = start ∧ byteSize (before ++ chars) = stop := by
  unfold charsBetween?
  constructor
  · intro h
    split at h
    · next hle =>
      split at h
      · next before behind hbefore =>
        obtain ⟨⟨_, after⟩, hchars, rfl⟩ := Option.map_eq_some_iff.mp h
        obtain ⟨rfl, hstart⟩ := cutAt?_eq_some.1 hbefore
        obtain ⟨rfl, hsize⟩ := cutAt?_eq_some.1 hchars
        refine ⟨before, after, (List.append_assoc ..).symm, hstart, ?_⟩
        rw [byteSize_append, hstart, hsize]
        omega
      · cases h
    · cases h
  · rintro ⟨before, after, rfl, rfl, rfl⟩
    have hsize : byteSize (before ++ chars) - byteSize before = byteSize chars := by
      rw [byteSize_append, Nat.add_sub_cancel_left]
    have hle : byteSize before ≤ byteSize (before ++ chars) := by
      rw [byteSize_append]
      omega
    have hbefore : cutAt? (byteSize before) (before ++ chars ++ after) =
        some (before, chars ++ after) := cutAt?_eq_some.2 ⟨List.append_assoc .., rfl⟩
    have hchars : cutAt? (byteSize chars) (chars ++ after) = some (chars, after) :=
      cutAt?_eq_some.2 ⟨rfl, rfl⟩
    rw [if_pos hle, hbefore, hsize]
    simp only [hchars, Option.map_some]

/-! ## Tables -/

/-- A line without the carriage return it ends with. -/
def dropReturn (line : List Char) : List Char :=
  if line.getLast? = some '\r' then line.dropLast else line

/-- The offsets are those of a text behind another. -/
structure LineBounds.Around (b : LineBounds) (front line : List Char) : Prop where
  start : b.start.toNat = byteSize front
  stop : b.stop.toNat = byteSize (front ++ line)

/-- Such offsets cut the text out. -/
theorem LineBounds.Around.charsBetween? {b : LineBounds} {front line : List Char}
    (h : b.Around front line) (rest : List Char) :
    charsBetween? (front ++ line ++ rest) b.start.toNat b.stop.toNat = some line :=
  charsBetween?_eq_some.2 ⟨front, rest, rfl, h.start.symm, h.stop.symm⟩

/-- **A table that is laid along a text**, behind the lines in front of it: an entry for each of the
lines that end in the text, without their ends, and one for what is behind them. -/
inductive Laid : List Char → List Char → List LineBounds → Prop where
  | last {front line : List Char} {b : LineBounds} (unended : '\n' ∉ line)
    (around : b.Around front line) : Laid front line [b]
  | line {front line rest : List Char} {b : LineBounds} {more : List LineBounds}
    (unended : '\n' ∉ line) (around : b.Around front (dropReturn line))
    (further : Laid (front ++ line ++ ['\n']) rest more) : Laid front (line ++ '\n' :: rest) (b :: more)

theorem dropReturn_concat (init : List Char) (c : Char) :
    dropReturn (init ++ [c]) = if c = '\r' then init else init ++ [c] := by
  unfold dropReturn
  simp

/-- What is left of a line is in front of it. -/
theorem isPrefix_dropReturn (line : List Char) : dropReturn line <+: line := by
  unfold dropReturn
  split
  · exact List.dropLast_prefix line
  · exact List.prefix_rfl

/-- What is left of a line that ends stands behind what is in front of the line. -/
theorem exists_append_dropReturn (front line rest : List Char) :
    ∃ returned, front ++ (line ++ '\n' :: rest) = front ++ dropReturn line ++ returned := by
  obtain ⟨returned, hline⟩ := isPrefix_dropReturn line
  refine ⟨returned ++ '\n' :: rest, ?_⟩
  rw [List.append_assoc, ← List.append_assoc (dropReturn line), hline]

/-! ## The pass -/

namespace LineScan

/-- **What the pass keeps** of lines that have ended and the line at hand behind them. -/
structure Follows (s : LineScan) (front line : List Char) : Prop where
  start : s.start.toNat = byteSize front
  unended : '\n' ∉ line
  last : ∀ init c, line = init ++ [c] → s.last = c ∧ s.lastAt.toNat = byteSize (front ++ init)
  fresh : line = [] → s.last ≠ '\r'

theorem follows_initial : initial.Follows [] [] where
  start := rfl
  unended := List.not_mem_nil
  last init c h := by simp at h
  fresh _ := by decide

variable {s : LineScan} {front line : List Char} {offset : UInt32} {size : Nat}

/-- A character that ends no line belongs to the line at hand. -/
theorem Follows.next_of_ne (h : s.Follows front line)
    (hoffset : offset.toNat = byteSize (front ++ line)) {c : Char} (hc : c ≠ '\n') :
    (s.next offset c).Follows front (line ++ [c]) where
  start := by
    rw [next, if_neg hc]
    exact h.start
  unended := by
    rw [List.mem_append, List.mem_singleton]
    rintro (hmem | rfl)
    · exact h.unended hmem
    · exact hc rfl
  last init d heq := by
    obtain ⟨rfl, hd⟩ := List.append_inj' heq rfl
    cases hd
    exact ⟨rfl, hoffset⟩
  fresh hnil := by simp at hnil

/-- Behind a line end there is a new line at hand. -/
theorem Follows.next_newline (hoffset : offset.toNat = byteSize (front ++ line))
    (hfits : byteSize (front ++ line ++ ['\n']) < UInt32.size) :
    (s.next offset '\n').Follows (front ++ line ++ ['\n']) [] where
  start := by
    have hsize : byteSize (front ++ line ++ ['\n']) = offset.toNat + 1 := by
      rw [byteSize_append, byteSize_singleton, hoffset]
      rfl
    rw [hsize] at hfits ⊢
    rw [next, if_pos rfl, UInt32.toNat_add]
    exact Nat.mod_eq_of_lt hfits
  unended := List.not_mem_nil
  last init c heq := by simp at heq
  fresh _ := by simp [next]

/-- The entry of a line that ends. The last character decides whether it ends in a carriage return:
where the line is empty, that is the line end in front of it. -/
theorem Follows.ended (h : s.Follows front line)
    (hoffset : offset.toNat = byteSize (front ++ line)) :
    (s.ended offset).Around front (dropReturn line) := by
  refine ⟨h.start, ?_⟩
  unfold LineScan.ended
  rcases List.eq_nil_or_concat line with rfl | ⟨init, c, rfl⟩
  · rw [if_neg (h.fresh rfl), hoffset]
    rfl
  · rw [List.concat_eq_append] at *
    obtain ⟨hlast, hlastAt⟩ := h.last init c rfl
    rw [dropReturn_concat, hlast]
    by_cases hc : c = '\r'
    · rw [if_pos hc, if_pos hc, hlastAt]
    · rw [if_neg hc, if_neg hc, hoffset]

/-- The entry of the line that is not ended. -/
theorem Follows.remaining (h : s.Follows front line) (hsize : byteSize (front ++ line) = size)
    (hfits : size < UInt32.size) : (s.remaining size).Around front line := by
  have hstart := h.start
  have hsplit := byteSize_append front line
  have hnat : size.toUInt32.toNat = size := Nat.mod_eq_of_lt hfits
  unfold LineScan.remaining
  split
  · exact ⟨hstart, by rw [hnat, hsize]⟩
  · have hempty : byteSize line = 0 := by omega
    split
    · next hzero => exact ⟨by simp; omega, by simp; omega⟩
    · exact ⟨by simp only [hnat]; omega, by simp only [hnat]; omega⟩

/-- **The pass lays its table along the text.** -/
theorem Follows.laid (h : s.Follows front line) {rest : List Char}
    (hsize : byteSize (front ++ line ++ rest) = size) (hfits : size < UInt32.size) :
    Laid front (line ++ rest) (s.bounds size (byteSize (front ++ line)) rest) := by
  induction rest generalizing s front line with
  | nil =>
    rw [List.append_nil] at hsize ⊢
    exact .last h.unended (h.remaining hsize hfits)
  | cons c rest ih =>
    have hsplit : byteSize (front ++ line ++ [c]) = byteSize (front ++ line) + c.utf8Size := by
      rw [byteSize_append, byteSize_singleton]
    have hmove : front ++ line ++ c :: rest = front ++ line ++ [c] ++ rest := by simp
    have hle : byteSize (front ++ line ++ [c]) ≤ size := by
      rw [← hsize, hmove, byteSize_append (front ++ line ++ [c])]
      omega
    have hoffset : (byteSize (front ++ line)).toUInt32.toNat = byteSize (front ++ line) :=
      Nat.mod_eq_of_lt (Nat.lt_of_le_of_lt (by omega : _ ≤ size) hfits)
    unfold bounds
    rw [← hsplit]
    by_cases hc : c = '\n'
    · subst hc
      have hnext := Follows.next_newline (s := s) hoffset (by omega)
      rw [if_pos rfl]
      refine .line h.unended (h.ended hoffset) ?_
      have hlaid := ih hnext (by rw [List.append_nil, ← hmove]; exact hsize)
      rw [List.append_nil] at hlaid
      exact hlaid
    · have hnext := h.next_of_ne hoffset hc
      rw [if_neg hc]
      have hlaid := ih hnext (by rw [← List.append_assoc, ← hmove]; exact hsize)
      rw [← List.append_assoc, List.append_assoc line] at hlaid
      exact hlaid

end LineScan

/-! ## What a table says -/

namespace Laid

variable {front chars : List Char} {bs : List LineBounds} {i : Nat} {b : LineBounds}

theorem length_pos (h : Laid front chars bs) : 0 < bs.length := by
  cases h with
  | last => exact Nat.one_pos
  | line => exact Nat.succ_pos _

/-- **Each entry stands for a part of the text between line ends**: what is cut out is the part
itself behind the last line end, and the part without its carriage return elsewhere. -/
theorem line_eq (h : Laid front chars bs) (hb : bs[i]? = some b) :
    ∃ part, (chars.splitOn '\n')[i]? = some part ∧
      charsBetween? (front ++ chars) b.start.toNat b.stop.toNat =
        some (if i + 1 < bs.length then dropReturn part else part) := by
  induction h generalizing i with
  | @last front line b' unended around =>
    cases i with
    | zero =>
      cases hb
      refine ⟨line, ?_, ?_⟩
      · rw [List.splitOn_eq_singleton unended]
        rfl
      · have hslice := around.charsBetween? []
        rw [List.append_nil] at hslice
        exact hslice
    | succ i => cases hb
  | @line front line rest b' more unended around further ih =>
    have hparts : (line ++ '\n' :: rest).splitOn '\n' = line :: rest.splitOn '\n' :=
      List.splitOn_append_cons_self_of_not_mem unended rest
    rw [hparts]
    cases i with
    | zero =>
      cases hb
      obtain ⟨returned, htext⟩ := exists_append_dropReturn front line rest
      have hlength : 0 + 1 < (b :: more).length := Nat.succ_lt_succ further.length_pos
      refine ⟨line, rfl, ?_⟩
      rw [if_pos hlength, htext]
      exact around.charsBetween? returned
    | succ i =>
      obtain ⟨part, hpart, hslice⟩ := ih hb
      have htext : front ++ (line ++ '\n' :: rest) = front ++ line ++ ['\n'] ++ rest := by simp
      have hlast : i + 1 + 1 < (b' :: more).length ↔ i + 1 < more.length := Nat.succ_lt_succ_iff
      refine ⟨part, hpart, ?_⟩
      rw [htext, hslice]
      simp only [hlast]

/-- There is an entry for each part. -/
theorem length_splitOn (h : Laid front chars bs) :
    (chars.splitOn '\n').length = bs.length := by
  induction h with
  | last unended around =>
    rw [List.splitOn_eq_singleton unended]
    rfl
  | @line _ _ rest _ _ unended around further ih =>
    rw [List.splitOn_append_cons_self_of_not_mem unended rest, List.length_cons, List.length_cons,
      ih]

/-- The lines start behind what is in front of the text. -/
theorem le_start (h : Laid front chars bs) (hb : b ∈ bs) : byteSize front ≤ b.start.toNat := by
  induction h with
  | last unended around =>
    cases List.mem_singleton.mp hb
    exact Nat.le_of_eq around.start.symm
  | line unended around further ih =>
    rcases List.mem_cons.mp hb with rfl | hmore
    · exact Nat.le_of_eq around.start.symm
    · have hle := ih hmore
      rw [List.append_assoc, byteSize_append] at hle
      omega

/-- **The lines stand one behind the other**, with a line end between them. -/
theorem ascends (h : Laid front chars bs) :
    bs.Pairwise fun a b => a.stop.toNat < b.start.toNat := by
  induction h with
  | last => exact List.pairwise_singleton _ _
  | @line front line rest b more unended around further ih =>
    refine List.pairwise_cons.mpr ⟨fun b' hb' => ?_, ih⟩
    obtain ⟨returned, hline⟩ := isPrefix_dropReturn line
    have hstop : byteSize (front ++ dropReturn line) ≤ byteSize (front ++ line) := by
      conv => rhs; rw [← hline, ← List.append_assoc, byteSize_append]
      omega
    have hend : 0 < byteSize ['\n'] := byteSize_pos (List.cons_ne_nil _ _)
    calc b.stop.toNat
        = byteSize (front ++ dropReturn line) := around.stop
      _ ≤ byteSize (front ++ line) := hstop
      _ < byteSize (front ++ line ++ ['\n']) := by
        rw [byteSize_append (front ++ line)]
        omega
      _ ≤ b'.start.toNat := further.le_start hb'

end Laid

/-- Behind a line end, and at the front of a text, a column starts over. -/
theorem Position.trueIn_behind_line {text : String} {front rest : List Char}
    (htext : text.toList = front ++ rest) (hended : ∀ c ∈ front.getLast?, c = '\n') :
    (Position.mk (1 + front.count '\n') 1 (byteSize front)).TrueIn text := by
  have hcol : front.reverse.takeWhile (· != '\n') = [] := by
    rcases List.eq_nil_or_concat front with rfl | ⟨init, c, rfl⟩
    · rfl
    · rw [List.concat_eq_append] at *
      have hc : c = '\n' := hended c (by simp)
      simp [hc]
  have hadvance : Position.start.advance front =
      Position.mk (1 + front.count '\n') 1 (byteSize front) := by
    have hoffset := Position.offset_advance Position.start front
    have hline := Position.line_advance Position.start front
    have hcolumn := Position.col_advance_start front
    rw [hcol] at hcolumn
    cases hposition : Position.start.advance front with
    | mk line col offset =>
      rw [hposition] at hoffset hline hcolumn
      simp only [Position.start] at hoffset hline
      simp only [List.length_nil] at hcolumn
      rw [hline, hcolumn, hoffset]
      simp
  rw [← hadvance]
  exact Position.trueIn_advance htext

/-- The span of a line is true, where a line end is in front of the line, or nothing. -/
theorem LineBounds.Around.trueIn {b : LineBounds} {text : String} {front line rest : List Char}
    (h : b.Around front line) (htext : text.toList = front ++ line ++ rest)
    (hended : ∀ c ∈ front.getLast?, c = '\n') :
    (Span.mk (1 + front.count '\n') 1 b.start.toNat b.stop.toNat).TrueIn text := by
  refine ⟨Span.within_of_append htext h.start h.stop, ?_⟩
  rw [h.start]
  exact Position.trueIn_behind_line (htext.trans (List.append_assoc ..)) hended

/-- **The span of an entry is true**, as that of the first column of its line. -/
theorem Laid.trueIn {text : String} {front chars : List Char} {bs : List LineBounds}
    (h : Laid front chars bs) (htext : text.toList = front ++ chars)
    (hended : ∀ c ∈ front.getLast?, c = '\n') {i : Nat} {b : LineBounds} (hb : bs[i]? = some b) :
    (Span.mk (1 + front.count '\n' + i) 1 b.start.toNat b.stop.toNat).TrueIn text := by
  induction h generalizing i with
  | @last front line b' unended around =>
    cases i with
    | zero =>
      cases hb
      exact around.trueIn (htext.trans (List.append_nil _).symm) hended
    | succ i => cases hb
  | @line front line rest b' more unended around further ih =>
    cases i with
    | zero =>
      cases hb
      obtain ⟨returned, hsplit⟩ := exists_append_dropReturn front line rest
      exact around.trueIn (htext.trans hsplit) hended
    | succ i =>
      have hmove : text.toList = front ++ line ++ ['\n'] ++ rest := by rw [htext]; simp
      have htrue := ih hmove (by simp) hb
      have hcount : (front ++ line ++ ['\n']).count '\n' = front.count '\n' + 1 := by
        simp [List.count_eq_zero.mpr unended]
      have hline : 1 + (front.count '\n' + 1) + i = 1 + front.count '\n' + (i + 1) := by omega
      rw [hcount, hline] at htrue
      exact htrue

/-! ## Lines of a source -/

namespace Source

variable {s : Source}

/-- **The table of a source is laid along its text**, which is not too long for offsets of 32
bits. -/
theorem laid_table (hsize : s.text.utf8ByteSize ≤ sizeLimit) : Laid [] s.text.toList s.table := by
  have hfits : s.text.utf8ByteSize < UInt32.size :=
    Nat.lt_of_le_of_lt hsize (by decide)
  exact LineScan.follows_initial.laid (byteSize_toList s.text) hfits

theorem line_of_slice? {i : Nat} {b : LineBounds} {chars : List Char} (hb : s.table[i]? = some b)
    (hslice : s.slice? b = some chars) : s.line i = String.ofList chars := by
  unfold line lines
  rw [List.getElem?_map, hb, Option.map_some, hslice]
  rfl

theorem line_of_length_le {i : Nat} (h : s.table.length ≤ i) : s.line i = "" := by
  unfold line lines
  rw [List.getElem?_map, List.getElem?_eq_none h]
  rfl

end Source

/-- **The lines of a source are the parts of its text between line ends.** There is one more of them
than there are line ends. The table has for each of them the offsets of a span that is true, that of
the first column of the line, so that it is cut out of the text; a part that a line end follows is
without the carriage return it may end with. No two lines overlap, and behind the last one there are
only empty ones. -/
theorem lines_tabulated {s : Source} (hsize : s.text.utf8ByteSize ≤ Source.sizeLimit) :
    (s.table.length = 1 + s.text.toList.count '\n' ∧
      (s.text.toList.splitOn '\n').length = s.table.length) ∧
    (∀ i b, s.table[i]? = some b →
      (Span.mk (i + 1) 1 b.start.toNat b.stop.toNat).TrueIn s.text ∧
      ∃ part line, (s.text.toList.splitOn '\n')[i]? = some part ∧
        line = (if i + 1 < s.table.length then dropReturn part else part) ∧
        s.slice? b = some line ∧ s.line i = String.ofList line) ∧
    (s.table.Pairwise fun a b => a.stop.toNat < b.start.toNat) ∧
    ∀ i, s.table.length ≤ i → s.line i = "" := by
  have hlaid := Source.laid_table hsize
  refine ⟨⟨s.length_table, hlaid.length_splitOn⟩, ?_, hlaid.ascends,
    fun i => Source.line_of_length_le⟩
  intro i b hb
  have htrue := hlaid.trueIn (List.nil_append _).symm (fun c hc => by cases hc) hb
  obtain ⟨part, hpart, hslice⟩ := hlaid.line_eq hb
  have hnumber : 1 + [].count '\n' + i = i + 1 := by
    rw [List.count_nil]
    omega
  rw [hnumber] at htrue
  exact ⟨htrue, part, _, hpart, rfl, hslice, Source.line_of_slice? hb hslice⟩

/-- A line with a carriage return, an empty one, and one that no line end follows. -/
def letterSource : Source := ⟨"letter", "é\r\n\nü\r"⟩

theorem letterSource_tabulated :
    letterSource.text.utf8ByteSize ≤ Source.sizeLimit ∧
    letterSource.table = [⟨0, 2⟩, ⟨4, 4⟩, ⟨5, 8⟩] ∧
    (Span.mk 3 1 5 8).TrueIn letterSource.text ∧
    letterSource.line 0 = "é" ∧ letterSource.line 1 = "" ∧ letterSource.line 2 = "ü\r" ∧
    letterSource.line 3 = "" := by
  have hsize : letterSource.text.utf8ByteSize ≤ Source.sizeLimit := by decide
  obtain ⟨-, hlines, -, hbehind⟩ := lines_tabulated hsize
  have htable : letterSource.table = [⟨0, 2⟩, ⟨4, 4⟩, ⟨5, 8⟩] := by decide
  obtain ⟨-, _, _, hpart₀, rfl, -, hline₀⟩ := hlines 0 ⟨0, 2⟩ (by rw [htable]; rfl)
  obtain ⟨-, _, _, hpart₁, rfl, -, hline₁⟩ := hlines 1 ⟨4, 4⟩ (by rw [htable]; rfl)
  obtain ⟨htrue, _, _, hpart₂, rfl, -, hline₂⟩ := hlines 2 ⟨5, 8⟩ (by rw [htable]; rfl)
  cases hpart₀
  cases hpart₁
  cases hpart₂
  exact ⟨hsize, htable, htrue, hline₀, hline₁, hline₂, hbehind 3 (by rw [htable]; decide)⟩

end TypedTemplate
