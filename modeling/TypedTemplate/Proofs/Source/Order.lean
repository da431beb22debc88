import Mathlib.Data.Prod.Lex
import TypedTemplate.Proofs.Source.Tokens

/-!
# The order of places

A place is a line and a column, and lines count before columns. Every character moves the place on,
so what is cut out of a text one behind the other stands at places that ascend.

* `Position.place`, `Span.place`: the line and column of a position and of a span.
* `Position.place_lt_advance`: behind a text the place is a later one.
* `Ascends`: places that ascend within a stretch.
* `Excerpt.stop`: the position behind an excerpt; `Excerpt.IsEndOf`: what is left of one.
* **`ascends_readTokens`**: the tokens of an excerpt ascend within it.
-/

namespace TypedTemplate

/-! ## Places -/

/-- A line and a column, compared by the line first. -/
abbrev Place := Nat ×ₗ Nat

/-- The line and column of a position. -/
def Position.place (p : Position) : Place := toLex (p.line, p.col)

/-- The line and column that a span starts at. -/
def Span.place (s : Span) : Place := toLex (s.line, s.col)

namespace Position

/-- A line end moves on to the next line, and any other character to the next column. -/
theorem place_lt_next (p : Position) (c : Char) : p.place < (p.next c).place := by
  unfold place next
  by_cases hend : c = '\n'
  · rw [if_pos hend]
    exact Prod.Lex.toLex_lt_toLex.mpr (.inl (Nat.lt_succ_self p.line))
  · rw [if_neg hend]
    exact Prod.Lex.toLex_lt_toLex.mpr (.inr ⟨rfl, Nat.lt_succ_self p.col⟩)

theorem place_le_advance (p : Position) (cs : List Char) : p.place ≤ (p.advance cs).place := by
  induction cs generalizing p with
  | nil => exact le_rfl
  | cons c cs ih => exact (p.place_lt_next c).le.trans (ih (p.next c))

/-- **Behind a text the place is a later one.** -/
theorem place_lt_advance (p : Position) {cs : List Char} (h : cs ≠ []) :
    p.place < (p.advance cs).place := by
  cases cs with
  | nil => exact absurd rfl h
  | cons c cs => exact (p.place_lt_next c).trans_le ((p.next c).place_le_advance cs)

end Position

/-! ## Places within a stretch -/

/-- **Places that ascend within a stretch**, the first place of which belongs to it, and the last
does not. -/
structure Ascends (first last : Place) (places : List Place) : Prop where
  sorted : places.Pairwise (· < ·)
  le : ∀ p ∈ places, first ≤ p
  lt : ∀ p ∈ places, p < last

namespace Ascends

variable {first middle last : Place} {ps qs : List Place}

theorem nil : Ascends first last [] := ⟨.nil, by simp, by simp⟩

theorem mono {first' last' : Place} (h : Ascends first last ps) (hfirst : first' ≤ first)
    (hlast : last ≤ last') : Ascends first' last' ps :=
  ⟨h.sorted, fun p hp => hfirst.trans (h.le p hp), fun p hp => (h.lt p hp).trans_le hlast⟩

theorem sublist (h : Ascends first last ps) (hsub : qs.Sublist ps) : Ascends first last qs :=
  ⟨h.sorted.sublist hsub, fun p hp => h.le p (hsub.subset hp), fun p hp => h.lt p (hsub.subset hp)⟩

/-- What ascends in one stretch, and behind it what ascends in the next. -/
theorem append (hps : Ascends first middle ps) (hqs : Ascends middle last qs)
    (hfirst : first ≤ middle) (hlast : middle ≤ last) : Ascends first last (ps ++ qs) where
  sorted := List.pairwise_append.mpr ⟨hps.sorted, hqs.sorted,
    fun p hp q hq => (hps.lt p hp).trans_le (hqs.le q hq)⟩
  le := List.forall_mem_append.mpr ⟨hps.le, fun q hq => hfirst.trans (hqs.le q hq)⟩
  lt := List.forall_mem_append.mpr ⟨fun p hp => (hps.lt p hp).trans_le hlast, hqs.lt⟩

/-- A place in front of a stretch, and what ascends in it. -/
theorem cons {p : Place} (h : Ascends middle last ps) (hp : p < middle) (hlast : middle ≤ last) :
    Ascends p last (p :: ps) where
  sorted := List.pairwise_cons.mpr ⟨fun q hq => hp.trans_le (h.le q hq), h.sorted⟩
  le := List.forall_mem_cons.mpr ⟨le_rfl, fun q hq => hp.le.trans (h.le q hq)⟩
  lt := List.forall_mem_cons.mpr ⟨hp.trans_le hlast, h.lt⟩

/-- The first of some places may be put as early as the stretch begins. -/
theorem cons_tail (h : Ascends first last ps) (hne : ps ≠ []) :
    Ascends first last (first :: ps.tail) := by
  cases ps with
  | nil => exact absurd rfl hne
  | cons p ps =>
    obtain ⟨hall, hsorted⟩ := List.pairwise_cons.mp h.sorted
    have hp := h.le p List.mem_cons_self
    refine ⟨List.pairwise_cons.mpr ⟨fun q hq => hp.trans_lt (hall q hq), hsorted⟩, ?_, ?_⟩
    · exact List.forall_mem_cons.mpr ⟨le_rfl, fun q hq => h.le q (List.mem_cons_of_mem p hq)⟩
    · have hlast := h.lt p List.mem_cons_self
      exact List.forall_mem_cons.mpr
        ⟨hp.trans_lt hlast, fun q hq => h.lt q (List.mem_cons_of_mem p hq)⟩

end Ascends

/-! ## Excerpts -/

namespace Excerpt

/-- The position behind an excerpt. -/
def stop (e : Excerpt) : Position := e.start.advance e.chars

theorem place_start_le_stop (e : Excerpt) : e.start.place ≤ e.stop.place :=
  e.start.place_le_advance e.chars

/-- **What is left of an excerpt** when its front is cut off starts later, and stops where the
excerpt does. -/
structure IsEndOf (back e : Excerpt) : Prop where
  start_le : e.start.place ≤ back.start.place
  stop_eq : back.stop = e.stop

theorem isEndOf_drop (e : Excerpt) (count : Nat) : (e.drop count).IsEndOf e where
  start_le := e.start.place_le_advance _
  stop_eq := by
    unfold stop drop
    rw [← Position.advance_append, List.take_append_drop]

theorem isEndOf_trimStart (e : Excerpt) : e.trimStart.IsEndOf e := e.isEndOf_drop _

theorem IsEndOf.trans {back middle e : Excerpt} (h : back.IsEndOf middle)
    (hmiddle : middle.IsEndOf e) : back.IsEndOf e :=
  ⟨hmiddle.start_le.trans h.start_le, h.stop_eq.trans hmiddle.stop_eq⟩

end Excerpt

/-! ## Tokens -/

/-- No lexeme is empty. -/
theorem chars_ne_nil_of_mem_cutLexemes {cs : List Char} {l : Lexeme}
    (h : l ∈ (cutLexemes cs).1) : l.chars ≠ [] := by
  fun_induction cutLexemes cs with
  | case1 => simp at h
  | case2 _ _ _ _ _ hr ih =>
    rw [hr] at ih
    rcases List.mem_cons.mp h with rfl | h
    · exact List.cons_ne_nil _ _
    · exact ih h
  | case3 _ _ _ _ _ _ hr ih =>
    rw [hr] at ih
    rcases List.mem_cons.mp h with rfl | h
    · exact List.cons_ne_nil _ _
    · exact ih h
  | case4 => simp at h
  | case5 _ _ _ _ _ _ _ _ _ _ hr ih =>
    rw [hr] at ih
    rcases List.mem_cons.mp h with rfl | h
    · exact List.cons_ne_nil _ _
    · exact ih h
  | case6 => simp at h
  | case7 _ _ _ _ _ _ _ _ _ _ hr ih =>
    rw [hr] at ih
    rcases List.mem_cons.mp h with rfl | h
    · exact List.cons_ne_nil _ _
    · exact ih h

/-- The place of a token. -/
def Token.place (t : Token) : Place := t.span.place

namespace Token

/-- The token of a lexeme is at the place of the lexeme, that of a string at its opening quote. -/
theorem place_of_ofLexeme? {p : Position} {l : Lexeme} {t : Token} (h : ofLexeme? p l = some t) :
    t.place = p.place := by
  cases l with
  | blank cs => cases h
  | mark c => cases h; rfl
  | string quote body => cases h; rfl
  | word cs => cases h; rfl

/-- The tokens of lexemes, none of which is empty, ascend. -/
theorem ascends_ofLexemes {ls : List Lexeme} (hne : ∀ l ∈ ls, l.chars ≠ []) (p : Position) :
    Ascends p.place (p.advance (ls.flatMap Lexeme.chars)).place
      ((ofLexemes p ls).map Token.place) := by
  induction ls generalizing p with
  | nil => exact .nil
  | cons l ls ih =>
    rw [List.forall_mem_cons] at hne
    have hstep := p.place_lt_advance hne.1
    have hmore := ih hne.2 (p.advance l.chars)
    have hlast := (p.advance l.chars).place_le_advance (ls.flatMap Lexeme.chars)
    rw [List.flatMap_cons, Position.advance_append, ofLexemes, List.map_append]
    cases hfirst : ofLexeme? p l with
    | none => exact hmore.mono hstep.le le_rfl
    | some t =>
      rw [Option.toList_some, List.map_singleton, place_of_ofLexeme? hfirst]
      exact hmore.cons hstep hlast

end Token

/-- **The tokens of an excerpt ascend within it.** -/
theorem ascends_readTokens (e : Excerpt) :
    Ascends e.start.place e.stop.place ((readTokens e).tokens.map Token.place) := by
  have hne : ∀ l ∈ (cutLexemes e.chars).1, l.chars ≠ [] :=
    fun l hl => chars_ne_nil_of_mem_cutLexemes hl
  have htokens := Token.ascends_ofLexemes hne e.start
  refine htokens.mono le_rfl ?_
  unfold Excerpt.stop
  conv => rhs; rw [← flatMap_chars_cutLexemes e.chars]
  rw [Position.advance_append]
  exact Position.place_le_advance _ _

end TypedTemplate
