import Mathlib.Data.List.Basic
import TypedTemplate.Proofs.Piece.Partition
import TypedTemplate.Proofs.Program.Derivation
import TypedTemplate.Proofs.Source.Order

/-!
# Programs in written order

The statements of a program and the expressions in their tags, listed in pre-order, stand at places
that ascend. The pieces of a template ascend, the tokens of a tag ascend within its piece, and
reading leaves out some of them and never changes their order: an expression is at the place of one
of its tokens, and a block begins at the place of its tag.

* `Group.tokens`: the tokens of a group; **`tokensIn_groups`**: grouping keeps their order.
* `Expr.spans_ofGroup`, `Expr.spans_arguments`: reading expressions keeps it.
* `Program.spans`: the spans of statements and expressions, in pre-order.
* **`Derives.spans`**: they are among those of the parts that the program derives from.
* **`ascends_of_readProgram`**: the places of a program that is read ascend.
-/

namespace TypedTemplate

/-! ## Groups -/

namespace Group

mutual

/-- The tokens of a group in their order. A closing parenthesis is none of them. -/
def tokens : Group → List Token
  | .token t => [t]
  | .nested opening groups _ => opening :: tokensIn groups
  | .broken _ => []
termination_by structural g => g

/-- The tokens of groups in their order. -/
def tokensIn : List Group → List Token
  | [] => []
  | g :: rest => tokens g ++ tokensIn rest
termination_by structural gs => gs

end

@[simp] theorem tokensIn_eq_flatMap (gs : List Group) : tokensIn gs = gs.flatMap tokens := by
  induction gs with
  | nil => rfl
  | cons g rest ih => rw [tokensIn, ih, List.flatMap_cons]

end Group

/-- The tokens that have been read inside the groups that are open. -/
def openTokens (current : List Group) : List OpenGroup → List Token
  | [] => Group.tokensIn current.reverse
  | g :: outer => openTokens g.before outer ++ g.opening :: Group.tokensIn current.reverse

theorem openTokens_cons (x : Group) (current : List Group) (outer : List OpenGroup) :
    openTokens (x :: current) outer = openTokens current outer ++ x.tokens := by
  cases outer <;> simp [openTokens]

/-- A group that is closed holds what stood behind its opening parenthesis. -/
theorem openTokens_closed (g : OpenGroup) (closing : Closing) (current : List Group)
    (outer : List OpenGroup) :
    openTokens (.nested g.opening current.reverse closing :: g.before) outer =
      openTokens current (g :: outer) := by
  rw [openTokens_cons, Group.tokens, openTokens]

theorem tokensIn_closeAll (stop : Position) (current : List Group) (outer : List OpenGroup) :
    Group.tokensIn (closeAll stop current outer) = openTokens current outer := by
  induction outer generalizing current with
  | nil => rfl
  | cons g outer ih => rw [closeAll, ih, openTokens_closed]

/-- **Grouping keeps the order of tokens**, and leaves out closing parentheses only. -/
theorem tokensIn_gather (stop : Position) (fault : Option SyntaxError) (outer : List OpenGroup)
    (current : List Group) (tokens : List Token) :
    (Group.tokensIn (gather stop fault outer current tokens)).Sublist
      (openTokens current outer ++ tokens) := by
  induction tokens generalizing outer current with
  | nil =>
    unfold gather
    rw [List.append_nil]
    cases fault with
    | none =>
      simp only
      rw [tokensIn_closeAll]
    | some e =>
      simp only
      rw [tokensIn_closeAll, openTokens_cons, Group.tokens, List.append_nil]
  | cons t rest ih =>
    have hpush := ih outer (.token t :: current)
    rw [openTokens_cons, Group.tokens, List.append_assoc, List.singleton_append] at hpush
    unfold gather
    by_cases hopen : t.isSymbol '(' = true
    · have hopened := ih (⟨t, current⟩ :: outer) []
      simp only [openTokens, List.reverse_nil, Group.tokensIn, List.append_assoc,
        List.singleton_append] at hopened
      rw [if_pos hopen]
      exact hopened
    · rw [if_neg hopen]
      cases outer with
      | nil => exact hpush
      | cons g outer =>
        by_cases hclose : t.isSymbol ')' = true
        · simp only [hclose, if_true]
          have hclosed := ih outer
            (.nested g.opening current.reverse ⟨t.excerpt.start, true⟩ :: g.before)
          rw [openTokens_closed] at hclosed
          exact hclosed.trans ((List.sublist_cons_self t rest).append_left _)
        · simp only [hclose]
          exact hpush

/-- **The groups of a tag have its tokens in their order.** -/
theorem tokensIn_groups (ts : Tokens) : (Group.tokensIn ts.groups).Sublist ts.tokens :=
  tokensIn_gather ts.stop ts.fault [] [] ts.tokens

/-! ## Expressions -/

theorem Path.span_of_read {word : Excerpt} {p : Path} (h : Path.read word = .ok p) :
    p.span = word.span := by
  unfold Path.read at h
  simp only at h
  split at h
  · cases h
  · split at h
    · split at h
      · cases h
        rfl
      · cases h
    · split at h
      · split at h
        · cases h
          rfl
        · cases h
      · split at h
        · cases h
          rfl
        · cases h

namespace Expr

/-- The spans of an expression and of all expressions inside it. -/
def spans (e : Expr) : List Span := e.parts.map Expr.span

theorem spans_call (span : Span) (name : String) (params : List Expr)
    (hash : List (String × Expr)) :
    (Expr.call span name params hash).spans =
      span :: (params ++ hash.map Prod.snd).flatMap spans := by
  have hspans : (fun e : Expr => e.parts.map Expr.span) = spans := rfl
  unfold spans
  rw [parts, List.map_cons, partsIn_eq_flatMap, partsInNamed_eq_flatMap, List.map_append,
    List.map_flatMap, List.map_flatMap, List.flatMap_append, List.flatMap_map]
  rfl

/-- The expression of a token has the span of the token. -/
theorem spans_ofToken {t : Token} {e : Expr} (h : ofToken t = .ok e) : e.spans = [t.span] := by
  rcases ofToken_eq_ok h with ⟨v, rfl⟩ | ⟨p, hp, rfl⟩
  · rfl
  · have hspan : p.span = t.span := Path.span_of_read hp
    rw [← hspan]
    rfl

/-- The groups of arguments have the spans of the arguments in their order. Positional arguments
stand in front of named ones, in the program as in the text. A named argument takes three groups, so
the induction is on the number of groups that are left. -/
theorem spans_arguments_of_forall {stop : Position} {named : Bool} {gs : List Group}
    (hgs : ∀ g ∈ gs, ∀ e, ofGroup g = .ok e → e.spans.Sublist (g.tokens.map Token.span))
    {params : List Expr} {hash : HashArgs}
    (h : arguments stop named gs = .ok (params, hash)) :
    (named = true → params = []) ∧
      ((params ++ hash.map Prod.snd).flatMap spans).Sublist
        ((Group.tokensIn gs).map Token.span) := by
  induction hlen : gs.length using Nat.strongRecOn generalizing named gs params hash with
  | ind n ih =>
    subst hlen
    cases gs with
    | nil =>
      cases h
      exact ⟨fun _ => rfl, List.Sublist.refl _⟩
    | cons g rest =>
      rcases arguments_cons_eq_ok h with
        ⟨value, params', rfl, hvalue, hrest, rfl⟩ |
        ⟨t, sign, g', rest', value, hash', rfl, -, -, rfl, hvalue, hrest, rfl⟩
      · obtain ⟨-, hmore⟩ :=
          ih _ (by simp) (fun x hx => hgs x (List.mem_cons_of_mem _ hx)) hrest rfl
        refine ⟨fun hnamed => (by cases hnamed), ?_⟩
        rw [List.cons_append, List.flatMap_cons, Group.tokensIn, List.map_append]
        exact (hgs g List.mem_cons_self value hvalue).append hmore
      · obtain ⟨hnone, hmore⟩ :=
          ih _ (by simp only [List.length_cons]; omega) (fun x hx => hgs x (by simp [hx])) hrest rfl
        obtain rfl := hnone rfl
        refine ⟨fun _ => rfl, ?_⟩
        rw [List.nil_append] at hmore ⊢
        have htokens : (Group.tokensIn (.token t :: .token sign :: g' :: rest')).map Token.span =
            t.span :: sign.span ::
              (g'.tokens.map Token.span ++ (Group.tokensIn rest').map Token.span) := by
          simp [Group.tokensIn, Group.tokens]
        rw [List.map_cons, List.flatMap_cons, htokens]
        exact (((hgs g' (by simp) value hvalue).append hmore).cons _).cons _

/-- **A group has the spans of its expression in their order.** -/
theorem spans_ofGroup (g : Group) :
    ∀ e, ofGroup g = .ok e → e.spans.Sublist (g.tokens.map Token.span) := by
  induction g using Group.induction with
  | broken x =>
    intro e h
    cases h
  | token t =>
    intro e h
    rw [spans_ofToken h]
    exact List.Sublist.refl _
  | nested opening groups closing ih =>
    intro e h
    rcases ofGroup_eq_ok h with
      ⟨t, heq, -⟩ | ⟨_, name, rest, _, params, hash, heq, -, hargs, -, rfl⟩
    · cases heq
    · cases heq
      obtain ⟨-, hmore⟩ :=
        spans_arguments_of_forall (fun g hg => ih g (List.mem_cons_of_mem _ hg)) hargs
      rw [spans_call, Group.tokens, Group.tokensIn, Group.tokens, List.map_cons,
        List.singleton_append, List.map_cons]
      exact (hmore.cons _).cons_cons _

/-- **Groups have the spans of the arguments that they are read as in their order.** -/
theorem spans_arguments {stop : Position} {named : Bool} {gs : List Group} {params : List Expr}
    {hash : HashArgs} (h : arguments stop named gs = .ok (params, hash)) :
    ((params ++ hash.map Prod.snd).flatMap spans).Sublist ((Group.tokensIn gs).map Token.span) :=
  (spans_arguments_of_forall (fun g _ => spans_ofGroup g) h).2

end Expr

/-! ## Statements -/

/-- The span of a statement, and those of the expressions in its tag. -/
def Statement.spans (s : Statement) : List Span := s.span :: s.exprs.flatMap Expr.spans

/-- **The spans of a program** at every level, in pre-order. -/
def Program.spans (p : Program) : List Span := p.statements.flatMap Statement.spans

/-- The spans of a statement and of its bodies, in pre-order. -/
def Statement.allSpans (s : Statement) : List Span := s.nested.flatMap Statement.spans

/-- The spans of the header of a block. -/
def Header.spans (h : Header) : List Span :=
  h.span :: (h.params ++ h.hash.map Prod.snd).flatMap Expr.spans

theorem Program.spans_eq_flatMap (p : Program) : p.spans = p.flatMap Statement.allSpans := by
  unfold spans statements
  rw [List.flatMap_assoc]
  rfl

theorem Program.spans_cons (s : Statement) (p : Program) :
    Program.spans (s :: p) = s.allSpans ++ p.spans := by
  rw [spans_eq_flatMap, spans_eq_flatMap, List.flatMap_cons]

/-- The spans of a block are those of its header, of its body and of its alternative. -/
theorem Header.allSpans_block (h : Header) (program : Program) (inverse : Option Program) :
    (h.block program inverse).allSpans =
      h.spans ++ (program.spans ++ Program.spans (inverse.getD [])) := by
  unfold Header.block Statement.allSpans
  rw [Statement.nested_block, List.flatMap_cons, List.flatMap_append]
  rfl

/-! ## Tags -/

/-- The spans that a part may have in a program: its own, and those of the tokens behind the name
of a block. A chain begins where its header does. -/
def Part.spans : Part → List Span
  | .content span _ => [span]
  | .tag span inside =>
    match Role.ofInside inside with
    | .leaf =>
      match leafExpression? inside with
      | some inner => span :: (readTokens inner).tokens.map Token.span
      | none => []
    | .opens text => span :: (readTokens text).tokens.tail.map Token.span
    | .chain text =>
      if (readTokens text).tokens = [] then []
      else text.span :: (readTokens text).tokens.tail.map Token.span
    | _ => []

/-- **The tag of a leaf** has the spans of its statement. -/
theorem LeafReads.spans {span : Span} {inside : Excerpt} {s : Statement}
    (hrole : Role.ofInside inside = .leaf) (h : LeafReads span inside s) :
    s.allSpans.Sublist (Part.tag span inside).spans := by
  obtain ⟨inner, hinner, hread⟩ := h
  obtain ⟨g, rest, head, params, hash, hgroups, hhead, hargs, -, rfl⟩ := readExpression_eq_ok hread
  have hmore := (Expr.spans_ofGroup g head hhead).append (Expr.spans_arguments hargs)
  have htokens := (tokensIn_groups (readTokens inner)).map Token.span
  rw [hgroups, Group.tokensIn, List.map_append] at htokens
  have hall : (Statement.expression span head params hash).allSpans =
      span :: (head.spans ++ (params ++ hash.map Prod.snd).flatMap Expr.spans) := by
    simp [Statement.allSpans, Statement.nested, Statement.spans, Statement.exprs, Statement.span]
  have hspans : (Part.tag span inside).spans =
      span :: (readTokens inner).tokens.map Token.span := by
    simp only [Part.spans, hrole, hinner]
  rw [hall, hspans]
  exact (hmore.trans htokens).cons_cons span

/-- The tokens behind the name of a block have the spans of its arguments. -/
theorem spans_of_readHeader {span : Span} {text : Excerpt} {header : Header}
    (h : readHeader span text = .ok header) :
    (readTokens text).tokens ≠ [] ∧
      header.spans.Sublist (span :: (readTokens text).tokens.tail.map Token.span) := by
  obtain ⟨name, rest, params, hash, hgroups, -, hargs, rfl, -⟩ := readHeader_eq_ok h
  have htokens := tokensIn_groups (readTokens text)
  rw [hgroups, Group.tokensIn, Group.tokens, List.singleton_append] at htokens
  refine ⟨fun hnil => ?_, ?_⟩
  · rw [hnil] at htokens
    exact absurd (List.sublist_nil.mp htokens) (List.cons_ne_nil _ _)
  · have htail : (Group.tokensIn rest).Sublist (readTokens text).tokens.tail := htokens.tail
    exact ((Expr.spans_arguments hargs).trans (htail.map Token.span)).cons_cons span

/-- The tag that opens a block has the spans of its header. -/
theorem spans_opens {span : Span} {inside text : Excerpt} {header : Header}
    (hrole : Role.ofInside inside = .opens text) (h : readHeader span text = .ok header) :
    header.spans.Sublist (Part.tag span inside).spans := by
  simp only [Part.spans, hrole]
  exact (spans_of_readHeader h).2

/-- The tag of a link has the spans of its header. -/
theorem spans_chain (span : Span) {inside text : Excerpt} {header : Header}
    (hrole : Role.ofInside inside = .chain text) (h : readHeader text.span text = .ok header) :
    header.spans.Sublist (Part.tag span inside).spans := by
  obtain ⟨hne, hspans⟩ := spans_of_readHeader h
  simp only [Part.spans, hrole, hne, if_false]
  exact hspans

/-! ## Derivations -/

/-- **The spans of a program are among those of the parts it derives from**, in their order. -/
theorem Derives.spans {parts : List Part} {p : Program} (h : Derives parts p) :
    p.spans.Sublist (parts.flatMap Part.spans) := by
  induction h using Derives.rec
    (motive_2 := fun _ header program tail s _ =>
      s.allSpans.Sublist (header.spans ++ (program.spans ++ tail.flatMap Part.spans))) with
  | nil => exact List.Sublist.refl _
  | @content span text rest p _ ih =>
    rw [Program.spans_cons, List.flatMap_cons]
    have hself : (Statement.content span (String.ofList text)).allSpans = [span] := by
      simp [Statement.allSpans, Statement.nested, Statement.spans, Statement.exprs, Statement.span]
    rw [hself]
    exact ih.cons_cons span
  | leaf hrole hreads _ ih =>
    rw [Program.spans_cons, List.flatMap_cons]
    exact (hreads.spans hrole).append ih
  | @block span inside text header body tail rest program p s hrole _ hreads _ _ _ ihInner ihEnds
      ihMore =>
    have hblock := ihEnds.trans
      ((spans_opens hrole hreads).append (ihInner.append (List.Sublist.refl _)))
    rw [Program.spans_cons, List.flatMap_cons, List.flatMap_append, List.flatMap_append,
      ← List.append_assoc]
    exact hblock.append ihMore
  | close =>
    rw [Header.allSpans_block]
    exact (List.Sublist.refl _).append ((List.Sublist.refl _).append (List.nil_sublist _))
  | @otherwise name header program inverse span inside body last hrole _ _ ihInner =>
    have hnone : (Part.tag span inside).spans = [] := by simp only [Part.spans, hrole]
    rw [Header.allSpans_block, Option.getD_some, List.flatMap_cons, hnone, List.nil_append,
      List.flatMap_append]
    have hinverse := ihInner.trans (List.sublist_append_left _ ([last].flatMap Part.spans))
    exact (List.Sublist.refl _).append ((List.Sublist.refl _).append hinverse)
  | @chain name header next program further span inside text body tail s hrole hreads _ _ ihInner
      ihEnds =>
    have hlink := ihEnds.trans
      ((spans_chain span hrole hreads).append (ihInner.append (List.Sublist.refl _)))
    rw [Header.allSpans_block, Option.getD_some, Program.spans_cons, List.flatMap_cons,
      List.flatMap_append]
    refine (List.Sublist.refl _).append ((List.Sublist.refl _).append ?_)
    rw [show Program.spans [] = [] from rfl, List.append_nil]
    exact hlink

/-! ## Whitespace control -/

/-- The spans that a piece may have in a program. -/
def LocatedPiece.spans (l : LocatedPiece) : List Span :=
  match l.piece with
  | .text _ => [l.span]
  | .comment _ _ _ => []
  | .tag strip braces inner => (Part.tag l.span (innerExcerpt l.start strip braces inner)).spans

namespace Stripping

/-- The spans of all parts so far, in order. -/
def spans (s : Stripping) : List Span :=
  s.settled.reverse.flatMap Part.spans ++ (s.pending.map Prod.fst).reverse

theorem flatMap_spans_parts (s : Stripping) : s.parts.reverse.flatMap Part.spans = s.spans := by
  have hpending : ∀ pending : List (Span × List Char),
      (pending.map fun p => Part.content p.1 p.2).flatMap Part.spans = pending.map Prod.fst := by
    intro pending
    induction pending with
    | nil => rfl
    | cons p rest ih =>
      rw [List.map_cons, List.flatMap_cons, ih]
      rfl
  unfold parts spans
  rw [List.reverse_append, List.flatMap_append, ← List.map_reverse, hpending, List.map_reverse]

/-- Stripping blanks takes texts away, and moves none. -/
theorem stripLast_sublist (pending : List (Span × List Char)) :
    ((stripLast pending).map Prod.fst).Sublist (pending.map Prod.fst) := by
  unfold stripLast
  split
  · exact List.Sublist.refl _
  · next span text earlier =>
    by_cases hblank : (Text.trimEnd text).isEmpty = true
    · rw [if_pos hblank]
      exact List.sublist_cons_self _ _
    · rw [if_neg hblank]
      exact List.Sublist.refl _

theorem stripBefore_sublist (strip : Bool) (pending : List (Span × List Char)) :
    ((if strip then stripLast pending else pending).map Prod.fst).Sublist
      (pending.map Prod.fst) := by
  by_cases hstrip : strip = true
  · rw [if_pos hstrip]
    exact stripLast_sublist pending
  · rw [if_neg hstrip]

/-- One more piece adds its spans behind all others, if any. -/
theorem spans_step (s : Stripping) (l : LocatedPiece) :
    (s.step l).spans.Sublist (s.spans ++ l.spans) := by
  unfold step
  split
  · next raw hpiece =>
    have hspans : l.spans = [l.span] := by simp only [LocatedPiece.spans, hpiece]
    rw [hspans]
    simp only [spans]
    generalize (if s.stripNext then Text.trimStart (unescapeBraces raw) else unescapeBraces raw) =
      text
    by_cases hempty : text.isEmpty = true
    · rw [if_pos hempty]
      exact List.sublist_append_left _ _
    · rw [if_neg hempty, List.map_cons, List.reverse_cons, List.append_assoc]
  · next strip _ _ hpiece =>
    have hspans : l.spans = [] := by simp only [LocatedPiece.spans, hpiece]
    rw [hspans, List.append_nil]
    exact (List.Sublist.refl _).append (stripBefore_sublist strip.before s.pending).reverse
  · next strip braces inner hpiece =>
    have hspans : l.spans = (Part.tag l.span (innerExcerpt l.start strip braces inner)).spans := by
      simp only [LocatedPiece.spans, hpiece]
    have hkept : List.Sublist (spans { s with
        pending := if strip.before then stripLast s.pending else s.pending }) s.spans :=
      (List.Sublist.refl _).append (stripBefore_sublist strip.before s.pending).reverse
    have hparts := flatMap_spans_parts
      { s with pending := if strip.before then stripLast s.pending else s.pending }
    rw [hspans]
    simp only [spans, List.map_nil, List.reverse_nil, List.append_nil, List.reverse_cons,
      List.flatMap_append, List.flatMap_singleton]
    rw [hparts]
    exact hkept.append (List.Sublist.refl _)

end Stripping

/-- **Whitespace control keeps the order of pieces.** -/
theorem spans_stripPieces (pieces : List LocatedPiece) :
    ((stripPieces pieces).flatMap Part.spans).Sublist (pieces.flatMap LocatedPiece.spans) := by
  have hrun : ∀ s : Stripping, (pieces.foldl Stripping.step s).spans.Sublist
      (s.spans ++ pieces.flatMap LocatedPiece.spans) := by
    induction pieces with
    | nil =>
      intro s
      rw [List.flatMap_nil, List.append_nil]
      exact List.Sublist.refl _
    | cons l pieces ih =>
      intro s
      have hstep := (s.spans_step l).append (List.Sublist.refl (pieces.flatMap LocatedPiece.spans))
      rw [List.append_assoc] at hstep
      exact (ih (s.step l)).trans hstep
  unfold stripPieces
  rw [Stripping.flatMap_spans_parts]
  exact hrun .start

/-! ## Places -/

/-- The expression of a leaf is what is left of the inside of its tag. -/
theorem isEndOf_of_leafExpression? {inside inner : Excerpt}
    (h : leafExpression? inside = some inner) : inner.IsEndOf inside := by
  unfold leafExpression? at h
  split at h
  · cases h
  · next c rest _ =>
    by_cases hrefused : c = '>' ∨ c = '^' ∨ c = '*'
    · rw [if_pos hrefused] at h
      cases h
    · rw [if_neg hrefused] at h
      by_cases hampersand : c = '&'
      · rw [if_pos hampersand] at h
        cases h
        exact (inside.trimStart.isEndOf_drop 1).trans inside.isEndOf_trimStart
      · rw [if_neg hampersand] at h
        cases h
        exact inside.isEndOf_trimStart

/-- The header of a block is what is left of the inside of its tag. -/
theorem Role.isEndOf_ofInside {inside text : Excerpt}
    (h : ofInside inside = .opens text ∨ ofInside inside = .chain text) :
    text.IsEndOf inside := by
  have hdrop : ∀ count, (inside.trimStart.drop count).IsEndOf inside :=
    fun count => (inside.trimStart.isEndOf_drop count).trans inside.isEndOf_trimStart
  unfold ofInside at h
  split at h
  · simp at h
  · simp at h
  · split at h
    · simp only [reduceCtorEq, chain.injEq, false_or] at h
      rw [← h]
      exact (Excerpt.isEndOf_trimStart _).trans (hdrop 4)
    · simp at h
  · simp at h
  · simp only [opens.injEq, reduceCtorEq, or_false] at h
    rw [← h]
    exact hdrop 1
  · simp at h

/-- **The spans of a tag ascend** between its first place and the end of its inside. -/
theorem Part.ascends_tag {span : Span} {inside : Excerpt} (h : span.place < inside.start.place) :
    Ascends span.place inside.stop.place ((Part.tag span inside).spans.map Span.place) := by
  have htokens : ∀ text : Excerpt, text.IsEndOf inside → Ascends inside.start.place
      inside.stop.place ((readTokens text).tokens.map Token.place) := by
    intro text htext
    have hall := ascends_readTokens text
    rw [htext.stop_eq] at hall
    exact hall.mono htext.start_le le_rfl
  have hplaces : ∀ ts : List Token, (ts.map Token.span).map Span.place = ts.map Token.place :=
    fun ts => List.map_map
  rw [spans]
  split
  · split
    · next inner hinner =>
      rw [List.map_cons, hplaces]
      exact (htokens inner (isEndOf_of_leafExpression? hinner)).cons h inside.place_start_le_stop
    · exact .nil
  · next text hrole =>
    have hall := htokens text (Role.isEndOf_ofInside (.inl hrole))
    rw [List.map_cons, hplaces]
    exact (hall.sublist ((List.tail_sublist _).map _)).cons h inside.place_start_le_stop
  · next text hrole =>
    have htext := Role.isEndOf_ofInside (.inr hrole)
    by_cases hnone : (readTokens text).tokens = []
    · rw [if_pos hnone]
      exact .nil
    · have hall := ascends_readTokens text
      have hne : (readTokens text).tokens.map Token.place ≠ [] := by simpa using hnone
      rw [htext.stop_eq] at hall
      rw [if_neg hnone, List.map_cons, hplaces, List.map_tail]
      exact (hall.cons_tail hne).mono (h.le.trans htext.start_le) le_rfl
  · exact .nil

/-- The spans of a piece ascend within the piece. -/
theorem LocatedPiece.ascends (l : LocatedPiece) (hne : l.piece.chars ≠ []) :
    Ascends l.start.place (l.start.advance l.piece.chars).place (l.spans.map Span.place) := by
  have hwhole := l.start.place_lt_advance hne
  unfold spans
  split
  · exact Ascends.nil.cons hwhole le_rfl
  · exact .nil
  · next strip braces inner hpiece =>
    have hopening : braces.opening ++ Piece.stripMark strip.before ≠ [] := by
      cases braces <;> simp [Braces.opening]
    have hstart : l.span.place < (innerExcerpt l.start strip braces inner).start.place :=
      l.start.place_lt_advance hopening
    refine (Part.ascends_tag hstart).mono le_rfl ?_
    have hchars : l.piece.chars = (braces.opening ++ Piece.stripMark strip.before) ++ inner ++
        (Piece.stripMark strip.after ++ braces.closing) := by
      rw [hpiece]
      simp [Piece.chars]
    have hstop : (innerExcerpt l.start strip braces inner).stop =
        l.start.advance ((braces.opening ++ Piece.stripMark strip.before) ++ inner) :=
      (Position.advance_append _ _ _).symm
    rw [hchars, Position.advance_append, hstop]
    exact Position.place_le_advance _ _

/-- **The spans of pieces ascend** within the text that they make up. -/
theorem Cuts.ascends {cs : List Char} {pieces : List Piece} (h : Cuts cs pieces) (p : Position) :
    Ascends p.place (p.advance cs).place
      (((locatePieces p pieces).flatMap LocatedPiece.spans).map Span.place) := by
  induction h generalizing p with
  | nil => exact .nil
  | @cons piece rest pieces hshaped _ ih =>
    have hfirst := LocatedPiece.ascends ⟨p, piece⟩ hshaped.chars_ne_nil
    rw [locatePieces, List.flatMap_cons, List.map_append, Position.advance_append]
    exact hfirst.append (ih (p.advance piece.chars)) (p.place_le_advance _)
      (Position.place_le_advance _ _)

/-- **The places of a program that is read ascend** in pre-order. -/
theorem ascends_of_readProgram {text : String} {p : Program} (h : readProgram text = .ok p) :
    (p.spans.map Span.place).Pairwise (· < ·) := by
  have hread := readPieces_of_readProgram h
  have hfault : (cutPieces text.toList).2 = none :=
    Option.map_eq_none_iff.mp (Prod.mk.inj hread).2
  have hcuts : Cuts text.toList (cutPieces text.toList).1 :=
    cutPieces_eq_iff.mp (Prod.ext rfl hfault)
  have hspans := ((readProgram_eq_ok_iff hread).mp h).spans.trans (spans_stripPieces _)
  exact ((hcuts.ascends .start).sublist (hspans.map Span.place)).sorted

end TypedTemplate
