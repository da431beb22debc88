import TypedTemplate.Proofs.Piece.Shape

/-!
# Insides of tags, cut and put together

What is the inside of a tag depends on what follows it, since an end could reach from the one into
the other. A character that no end holds keeps them apart.

* `TagEnds.of_append_cons`: no end reaches over such a character.
* `TagInside.append`, **`TagInside.before`**, `TagInside.cons`: insides one after the other, and
  next to such a character.
* `TagInside.of_append`, `TagInside.of_quote`: what is left behind a front without quotes, and
  behind a string.
* `tagInside_of_plain`: texts without quotes and closing braces.
-/

namespace TypedTemplate

/-! ## Ends -/

/-- A prefix that does not hold a character ends in front of it. -/
theorem prefix_of_prefix_append_cons {α : Type} {start front rest : List α} {c : α}
    (hc : c ∉ start) (h : start <+: front ++ c :: rest) : start <+: front := by
  induction front generalizing start with
  | nil =>
    cases start with
    | nil => exact List.nil_prefix
    | cons d start =>
      obtain ⟨rfl, -⟩ := List.cons_prefix_cons.mp h
      exact absurd List.mem_cons_self hc
  | cons d front ih =>
    cases start with
    | nil => exact List.nil_prefix
    | cons e start =>
      obtain ⟨rfl, htail⟩ := List.cons_prefix_cons.mp h
      rw [List.mem_cons, not_or] at hc
      exact List.cons_prefix_cons.mpr ⟨rfl, ih hc.2 htail⟩

/-- The end of a tag does not reach over a character that it does not hold. -/
theorem TagEnds.of_append_cons {close front rest : List Char} {c : Char} (hc : c ∉ '~' :: close)
    (h : TagEnds close (front ++ c :: rest)) : TagEnds close front := by
  rcases h with hplain | hmarked
  · exact .inl (prefix_of_prefix_append_cons (fun hmem => hc (List.mem_cons_of_mem _ hmem)) hplain)
  · exact .inr (prefix_of_prefix_append_cons hc hmarked)

/-- The end of a tag at the front of a text is there whatever follows the text. -/
theorem TagEnds.append {close cs : List Char} (h : TagEnds close cs) (rest : List Char) :
    TagEnds close (cs ++ rest) := by
  rcases h with hplain | hmarked
  · exact .inl (hplain.trans (List.prefix_append cs rest))
  · exact .inr (hmarked.trans (List.prefix_append cs rest))

/-- No tag ends at a character that its end does not hold. -/
theorem not_tagEnds_cons {braces : Braces} {c : Char} (hc : c ∉ '~' :: braces.closing)
    (rest : List Char) : ¬TagEnds braces.closing (c :: rest) := by
  intro hends
  have hnil := @TagEnds.of_append_cons braces.closing [] rest c hc hends
  cases braces <;> simp [TagEnds, Braces.closing] at hnil

/-! ## Insides -/

namespace TagInside

variable {close after inner rest : List Char}

/-- The insides of two tags, one after the other. -/
theorem append (h : TagInside close (rest ++ after) inner) (hrest : TagInside close after rest) :
    TagInside close after (inner ++ rest) := by
  induction h with
  | nil => exact hrest
  | char hplain hgoes _ ih =>
    rw [List.cons_append]
    exact .char hplain (by rwa [List.append_assoc]) ih
  | string hopens hwithin _ ih =>
    rw [List.cons_append, List.append_assoc, List.cons_append]
    exact .string hopens hwithin ih

/-- **The inside of a tag** may stand in front of any character that the end does not hold. -/
theorem before (h : TagInside close after inner) {c : Char} (hc : c ∉ '~' :: close)
    (rest : List Char) : TagInside close (c :: rest) inner := by
  induction h with
  | nil => exact .nil
  | @char d inner hplain hgoes _ ih =>
    refine .char hplain ?_ ih
    -- An end that reaches over the character would have to hold it.
    intro hends
    have hfront : TagEnds close (d :: inner) := TagEnds.of_append_cons hc hends
    exact hgoes (hfront.append after)
  | string hopens hwithin _ ih => exact .string hopens hwithin ih

/-- The inside of a tag may start behind any front of it without quotes. -/
theorem of_append {front : List Char} (h : TagInside close after (front ++ rest))
    (hfront : ∀ c ∈ front, isQuote c = false) : TagInside close after rest := by
  induction front with
  | nil => exact h
  | cons c front ih =>
    rw [List.forall_mem_cons] at hfront
    generalize hcs : c :: front ++ rest = cs at h
    cases h with
    | nil => cases hcs
    | char _ _ hrest =>
      obtain ⟨rfl, rfl⟩ := List.cons.inj hcs
      exact ih hrest hfront.2
    | string hopens =>
      obtain ⟨rfl, -⟩ := List.cons.inj hcs
      rw [hfront.1] at hopens
      cases hopens

/-- Behind a quote, the inside of a tag goes on with the body of a string and the same quote. -/
theorem of_quote {quote : Char} (h : TagInside close after (quote :: rest))
    (hquote : isQuote quote = true) :
    ∃ body inner, rest = body ++ quote :: inner ∧ StringBody quote body ∧
      TagInside close after inner := by
  generalize hcs : quote :: rest = cs at h
  cases h with
  | nil => cases hcs
  | char hplain =>
    obtain ⟨rfl, rfl⟩ := List.cons.inj hcs
    rw [hquote] at hplain
    cases hplain
  | string _ hbody hrest =>
    obtain ⟨rfl, rfl⟩ := List.cons.inj hcs
    exact ⟨_, _, rfl, hbody, hrest⟩

end TagInside

/-- A character that the end does not hold, and opens no string, in front of the inside of a tag. -/
theorem TagInside.cons {braces : Braces} {after inner : List Char} {c : Char}
    (hc : c ∉ '~' :: braces.closing) (hplain : isQuote c = false)
    (h : TagInside braces.closing after inner) : TagInside braces.closing after (c :: inner) :=
  .char hplain (not_tagEnds_cons hc _) h

/-- Without quotes and closing braces, a text is the inside of a tag. -/
theorem tagInside_of_plain {close cs : List Char} (hclose : '}' ∈ close)
    (hplain : ∀ c ∈ cs, c ≠ '}' ∧ isQuote c = false) : TagInside close [] cs := by
  induction cs with
  | nil => exact .nil
  | cons c cs ih =>
    have hbrace : '}' ∉ c :: cs := fun hmem => (hplain _ hmem).1 rfl
    rw [List.forall_mem_cons] at hplain
    refine .char hplain.1.2 ?_ (ih hplain.2)
    rw [List.append_nil]
    rintro (hends | hends)
    · exact hbrace (hends.subset hclose)
    · exact hbrace (hends.subset (List.mem_cons_of_mem _ hclose))

end TypedTemplate
