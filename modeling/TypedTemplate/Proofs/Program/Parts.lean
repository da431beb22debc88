import TypedTemplate.Program.Whitespace

/-!
# Parts and the pieces they come from

Whitespace control takes blanks off texts, and drops texts and comments. A part is therefore the tag
of a piece with its whole inside, or text that a piece stands for, under the span of the piece.

* `Stripping.Keeps`: what holds of the parts while whitespace control is under way.
* **`forall_mem_stripPieces`**: from one piece to every part of a template.
-/

namespace TypedTemplate

variable {P : Part → Prop}

namespace Stripping

/-- A text that is pending is not empty. It may still lose blanks, so what holds of its part holds of
whatever may be left of it. -/
structure KeepsText (P : Part → Prop) (p : Span × List Char) : Prop where
  text_ne_nil : p.2 ≠ []
  content : ∀ text, text ≠ [] → P (.content p.1 text)

/-- Something holds of the parts so far. -/
structure Keeps (P : Part → Prop) (s : Stripping) : Prop where
  settled : ∀ part ∈ s.settled, P part
  pending : ∀ p ∈ s.pending, KeepsText P p

/-- A text of blanks is dropped, and any other only loses the blanks at its end. -/
theorem keepsText_stripLast {pending : List (Span × List Char)}
    (h : ∀ p ∈ pending, KeepsText P p) : ∀ p ∈ stripLast pending, KeepsText P p := by
  unfold stripLast
  split
  · exact h
  · next span text earlier =>
    rw [List.forall_mem_cons] at h
    by_cases hblank : (Text.trimEnd text).isEmpty = true
    · rw [if_pos hblank]
      exact h.2
    · rw [if_neg hblank]
      exact List.forall_mem_cons.mpr ⟨⟨by simpa using hblank, h.1.content⟩, h.2⟩

theorem Keeps.stripBefore {s : Stripping} (hs : s.Keeps P) (strip : Bool) :
    Keeps P { s with pending := if strip then stripLast s.pending else s.pending } := by
  refine ⟨hs.settled, fun p hp => ?_⟩
  simp only at hp
  split at hp
  · exact keepsText_stripLast hs.pending p hp
  · exact hs.pending p hp

theorem Keeps.parts {s : Stripping} (hs : s.Keeps P) : ∀ part ∈ s.parts, P part := by
  unfold Stripping.parts
  refine List.forall_mem_append.mpr ⟨?_, hs.settled⟩
  intro part hpart
  obtain ⟨p, hp, rfl⟩ := List.mem_map.mp hpart
  exact (hs.pending p hp).content p.2 (hs.pending p hp).text_ne_nil

/-- One more piece keeps what holds of the parts of the piece. -/
theorem Keeps.step {s : Stripping} (hs : s.Keeps P) {l : LocatedPiece}
    (hcontent : ∀ text, text ≠ [] → P (.content l.span text))
    (htag : ∀ strip braces inner, l.piece = .tag strip braces inner →
      P (.tag l.span (innerExcerpt l.start strip braces inner))) : (s.step l).Keeps P := by
  unfold Stripping.step
  split
  · next raw _ =>
    refine ⟨hs.settled, ?_⟩
    simp only
    generalize (if s.stripNext then Text.trimStart (unescapeBraces raw) else unescapeBraces raw) =
      text
    by_cases hempty : text.isEmpty = true
    · rw [if_pos hempty]
      exact hs.pending
    · rw [if_neg hempty]
      exact List.forall_mem_cons.mpr ⟨⟨by simpa using hempty, hcontent⟩, hs.pending⟩
  · next strip _ _ _ => exact ⟨hs.settled, (hs.stripBefore strip.before).pending⟩
  · next strip braces inner hpiece =>
    refine ⟨List.forall_mem_cons.mpr ⟨htag strip braces inner hpiece, ?_⟩, by simp⟩
    exact (hs.stripBefore strip.before).parts

end Stripping

/-- **From one piece to every part.** What holds of the tag of every piece, and of every text under
the span of a piece unless it is empty, holds of every part of a template. -/
theorem forall_mem_stripPieces {pieces : List LocatedPiece}
    (hcontent : ∀ l ∈ pieces, ∀ text, text ≠ [] → P (.content l.span text))
    (htag : ∀ l ∈ pieces, ∀ strip braces inner, l.piece = .tag strip braces inner →
      P (.tag l.span (innerExcerpt l.start strip braces inner))) :
    ∀ part ∈ stripPieces pieces, P part := by
  have hrun : ∀ s : Stripping, s.Keeps P → (pieces.foldl Stripping.step s).Keeps P := by
    induction pieces with
    | nil => exact fun _ hs => hs
    | cons l pieces ih =>
      rw [List.forall_mem_cons] at hcontent htag
      intro s hs
      exact ih hcontent.2 htag.2 (s.step l) (hs.step hcontent.1 htag.1)
  have hstart : Stripping.start.Keeps P := ⟨by simp [Stripping.start], by simp [Stripping.start]⟩
  intro part hpart
  exact (hrun .start hstart).parts part (List.mem_reverse.mp hpart)

end TypedTemplate
