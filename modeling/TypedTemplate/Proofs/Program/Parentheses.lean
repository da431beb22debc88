import TypedTemplate.Proofs.Program.Alike
import TypedTemplate.Proofs.Program.WellFormed
import TypedTemplate.Proofs.Token.Shape

/-!
# Calls in parentheses

A tag may call a helper by a word in front of arguments, or hold such a call in parentheses. The
word is taken for a path in the one case, whose segment is the name of the helper, and for the name
as it is written in the other. So the two name the same helper unless the word quotes its segment.

* `Group.Whole`: a group that can be read at its level; `whole_of_arguments`: all of them are.
* **`gather_enclosed`**, **`groups_enclosed`**: groups that are whole become one group between
  parentheses.
* **`Path.name_eq_written_iff`**: a segment without brackets is named as it is written.
* **`readExpression_parenthesized`**: what a call in parentheses is read as.
-/

namespace TypedTemplate

/-! ## Whole groups -/

/-- **A group that is whole**: no parenthesis in it is left open, and it is none that closes. -/
inductive Group.Whole : Group → Prop where
  | token {t : Token} (inside : t.isSymbol ')' = false) : Whole (.token t)
  | nested {opening : Token} {groups : List Group} {closing : Closing}
    (closed : closing.closed = true) : Whole (.nested opening groups closing)

theorem Token.isSymbol_of_kind {t : Token} (h : t.kind ≠ .symbol) (c : Char) :
    t.isSymbol c = false := by
  unfold isSymbol
  simp [h]

theorem Group.Whole.of_alike {g g' : Group} (h : g.Whole) (halike : g.Alike g') : g'.Whole := by
  cases halike with
  | token ht =>
    cases h with
    | token hinside => exact .token (ht.isSymbol ')' ▸ hinside)
  | nested _ hends =>
    cases h with
    | nested hclosed => exact .nested (hends ▸ hclosed)
  | broken => cases h

theorem whole_of_alike {groups groups' : List Group}
    (halike : List.Forall₂ Group.Alike groups groups') (h : ∀ g ∈ groups, g.Whole) : ∀ g ∈ groups', g.Whole := by
  induction halike with
  | nil => simp
  | cons hfirst _ ih =>
    rw [List.forall_mem_cons] at h ⊢
    exact ⟨h.1.of_alike hfirst, ih h.2⟩

/-- What reads as an expression is whole. -/
theorem whole_of_ofGroup {g : Group} {e : Expr} (h : Expr.ofGroup g = .ok e) : g.Whole := by
  rcases Expr.ofGroup_eq_ok h with ⟨t, rfl, ht⟩ | ⟨_, _, _, _, _, _, rfl, -, -, hclosed, -⟩
  · refine .token (Token.isSymbol_of_kind ?_ _)
    intro hsymbol
    rw [Expr.ofToken, hsymbol] at ht
    cases ht
  · exact .nested hclosed

/-- What reads as arguments is whole. A named argument takes three groups, so the induction is on
the number of groups that are left. -/
theorem whole_of_arguments {stop : Position} {named : Bool} {groups : List Group}
    {params : List Expr} {hash : HashArgs}
    (h : Expr.arguments stop named groups = .ok (params, hash)) : ∀ g ∈ groups, g.Whole := by
  induction hlen : groups.length using Nat.strongRecOn generalizing named groups params hash with
  | ind n ih =>
    subst hlen
    cases groups with
    | nil => simp
    | cons g rest =>
      rcases Expr.arguments_cons_eq_ok h with
        ⟨value, params', -, hvalue, hrest, rfl⟩ |
        ⟨t, sign, g', rest', value, hash', rfl, hword, hsign, rfl, hvalue, hrest, rfl⟩
      · exact List.forall_mem_cons.mpr ⟨whole_of_ofGroup hvalue, ih _ (by simp) hrest rfl⟩
      · have hrest := ih _ (by simp only [List.length_cons]; omega) hrest rfl
        have hname : t.isSymbol ')' = false := Token.isSymbol_of_kind (by simp [hword]) _
        have hequals : sign.isSymbol ')' = false := by
          unfold Token.isSymbol at hsign ⊢
          simp only [Bool.and_eq_true, decide_eq_true_eq] at hsign
          simp [hsign.2]
        simp only [List.forall_mem_cons]
        exact ⟨.token hname, .token hequals, whole_of_ofGroup hvalue, hrest⟩

/-- What reads as an expression statement is whole. -/
theorem whole_of_readExpression {span : Span} {inner : Excerpt} {s : Statement}
    (h : readExpression span inner = .ok s) : ∀ g ∈ (readTokens inner).groups, g.Whole := by
  obtain ⟨g, rest, head, params, hash, hgroups, hhead, hargs, -⟩ := readExpression_eq_ok h
  rw [hgroups]
  exact List.forall_mem_cons.mpr ⟨whole_of_ofGroup hhead, whole_of_arguments hargs⟩

/-! ## Groups between parentheses -/

/-- The groups so far at the level of the tag, in reverse, where some groups are open. -/
def levelGroups (current : List Group) : List OpenGroup → List Group
  | [] => current
  | g :: outer => levelGroups g.before outer

theorem mem_levelGroups_cons {g x : Group} {current : List Group} {outer : List OpenGroup}
    (h : g ∈ levelGroups current outer) : g ∈ levelGroups (x :: current) outer := by
  cases outer with
  | nil => exact List.mem_cons_of_mem x h
  | cons => exact h

theorem mem_closeAll {stop : Position} {g : Group} {current : List Group} {outer : List OpenGroup}
    (h : g ∈ levelGroups current outer) : g ∈ closeAll stop current outer := by
  induction outer generalizing current with
  | nil => exact List.mem_reverse.mpr h
  | cons g' outer ih => exact ih (mem_levelGroups_cons h)

/-- A group that is open where the tag ends is not whole. -/
theorem outer_eq_nil_of_closeAll {stop : Position} {current : List Group} {outer : List OpenGroup}
    (h : ∀ g ∈ closeAll stop current outer, g.Whole) : outer = [] := by
  cases outer with
  | nil => rfl
  | cons g outer =>
    -- The outermost open group is a group of the tag.
    have hopen : ∃ x ∈ closeAll stop current (g :: outer), ¬x.Whole := by
      clear h
      induction outer generalizing current g with
      | nil =>
        refine ⟨_, List.mem_reverse.mpr List.mem_cons_self, ?_⟩
        rintro ⟨⟩
        contradiction
      | cons g' outer ih => exact ih g'
    obtain ⟨x, hx, hnot⟩ := hopen
    exact absurd (h x hx) hnot

/-- A group at the level of the tag stays there. -/
theorem mem_gather {stop : Position} {fault : Option SyntaxError} {g : Group}
    {current : List Group} {outer : List OpenGroup} {tokens : List Token}
    (h : g ∈ levelGroups current outer) : g ∈ gather stop fault outer current tokens := by
  induction tokens generalizing current outer with
  | nil =>
    cases fault with
    | none => exact mem_closeAll h
    | some e => exact mem_closeAll (mem_levelGroups_cons h)
  | cons t rest ih =>
    rw [gather_cons]
    by_cases hopen : t.isSymbol '(' = true
    · rw [if_pos hopen]
      exact ih h
    · rw [if_neg hopen]
      cases outer with
      | nil => exact ih (List.mem_cons_of_mem _ h)
      | cons g' outer =>
        simp only
        split
        · exact ih (mem_levelGroups_cons h)
        · exact ih h

/-- **Groups that are whole become one group** between parentheses. Nothing in them closes the new
group before its end, and no fault ends them. -/
theorem gather_enclosed {stop : Position} {fault : Option SyntaxError} {outer : List OpenGroup}
    {current : List Group} {tokens : List Token}
    (hwhole : ∀ g ∈ gather stop fault outer current tokens, g.Whole) {close : Token}
    (hclose : close.isSymbol ')' = true) (bottom : OpenGroup) (stop' : Position) :
    fault = none ∧
      gather stop' none (outer ++ [bottom]) current (tokens ++ [close]) =
        (.nested bottom.opening (gather stop fault outer current tokens)
          ⟨close.excerpt.start, true⟩ :: bottom.before).reverse := by
  have hnotOpen : ¬close.isSymbol '(' = true := by
    unfold Token.isSymbol at hclose ⊢
    simp only [Bool.and_eq_true, decide_eq_true_eq] at hclose
    simp [hclose.2]
  induction tokens generalizing outer current with
  | nil =>
    cases fault with
    | some e =>
      rw [gather] at hwhole
      obtain rfl := outer_eq_nil_of_closeAll hwhole
      have hbroken := hwhole (.broken e) (mem_closeAll List.mem_cons_self)
      cases hbroken
    | none =>
      rw [gather] at hwhole
      obtain rfl := outer_eq_nil_of_closeAll hwhole
      refine ⟨rfl, ?_⟩
      rw [List.nil_append, List.nil_append, gather_cons, if_neg hnotOpen]
      simp only [hclose, if_true]
      rfl
  | cons t rest ih =>
    rw [List.cons_append, gather_cons]
    rw [gather_cons] at hwhole ⊢
    by_cases hopen : t.isSymbol '(' = true
    · rw [if_pos hopen] at hwhole ⊢
      rw [if_pos hopen]
      exact ih hwhole
    · rw [if_neg hopen] at hwhole ⊢
      rw [if_neg hopen]
      cases outer with
      | nil =>
        simp only at hwhole
        have ht := hwhole (.token t) (mem_gather List.mem_cons_self)
        cases ht with
        | token hinside =>
          simp only [List.nil_append, hinside, Bool.false_eq_true, if_false]
          exact ih hwhole
      | cons g outer =>
        simp only at hwhole
        simp only [List.cons_append]
        by_cases hends : t.isSymbol ')' = true
        · rw [if_pos hends] at hwhole ⊢
          rw [if_pos hends]
          exact ih hwhole
        · rw [if_neg hends] at hwhole ⊢
          rw [if_neg hends]
          exact ih hwhole

theorem Token.ofLexemes_append (p : Position) (front back : List Lexeme) :
    Token.ofLexemes p (front ++ back) =
      Token.ofLexemes p front ++ Token.ofLexemes (p.advance (front.flatMap Lexeme.chars)) back := by
  induction front generalizing p with
  | nil => rfl
  | cons l front ih =>
    rw [List.cons_append, Token.ofLexemes, Token.ofLexemes, ih, List.append_assoc,
      List.flatMap_cons, Position.advance_append]

/-- The mark that ends the parentheses around a text. -/
def closeMark (p : Position) : Token := ⟨.symbol, ⟨p, [')']⟩⟩

/-- Where the groups are whole, there is no fault among the tokens. -/
theorem fault_eq_none_of_whole {inner : Excerpt}
    (hwhole : ∀ g ∈ (readTokens inner).groups, g.Whole) : (readTokens inner).fault = none := by
  have hcloses : (closeMark inner.start).isSymbol ')' = true := rfl
  exact (gather_enclosed hwhole hcloses ⟨closeMark inner.start, []⟩ inner.start).1

/-- **A text whose groups are whole is one group** when it is put in parentheses, and what is in
this group differs in its places only. -/
theorem groups_enclosed {inner : Excerpt} (hwhole : ∀ g ∈ (readTokens inner).groups, g.Whole)
    (start : Position) :
    ∃ opening groups closing,
      (readTokens ⟨start, '(' :: (inner.chars ++ [')'])⟩).groups =
        [.nested opening groups closing] ∧
      closing.closed = true ∧ List.Forall₂ Group.Alike (readTokens inner).groups groups := by
  generalize hopening : Token.mk .symbol ⟨start, ['(']⟩ = opening
  have hopens : opening.isSymbol '(' = true := hopening ▸ rfl
  have hclose (p : Position) : (closeMark p).isSymbol ')' = true := rfl
  -- Whole groups leave no fault, so the lexemes make up the text.
  have hnone := fault_eq_none_of_whole hwhole
  have hlexes : Lexes inner.chars (cutLexemes inner.chars).1 :=
    lexes_cutLexemes (Option.map_eq_none_iff.mp hnone)
  generalize (cutLexemes inner.chars).1 = lexemes at hlexes
  have htokens := (hlexes.enclosed (c := '(') (d := ')') rfl rfl).readTokens
    (e := ⟨start, '(' :: (inner.chars ++ [')'])⟩)
  have hsplit : (readTokens ⟨start, '(' :: (inner.chars ++ [')'])⟩).tokens =
      opening :: (Token.ofLexemes (start.advance ['(']) lexemes ++
        [closeMark ((start.advance ['(']).advance inner.chars)]) := by
    rw [htokens, ← hopening, ← hlexes.flatMap_chars]
    exact congrArg _ (Token.ofLexemes_append _ lexemes [.mark ')'])
  -- The same lexemes behind the parenthesis make the same groups in other places.
  have halike : List.Forall₂ Group.Alike (readTokens inner).groups
      (gather inner.start none [] [] (Token.ofLexemes (start.advance ['(']) lexemes)) := by
    unfold Tokens.groups
    rw [hlexes.readTokens]
    exact gather_alike (ofLexemes_alike _ _ _) .nil .nil
  obtain ⟨-, hgroups⟩ := gather_enclosed (whole_of_alike halike hwhole)
    (hclose ((start.advance ['(']).advance inner.chars)) ⟨opening, []⟩
    (start.advance ('(' :: (inner.chars ++ [')'])))
  refine ⟨opening, _, ⟨(start.advance ['(']).advance inner.chars, true⟩, ?_, rfl, halike⟩
  unfold Tokens.groups
  rw [hsplit, gather_cons, if_pos hopens, htokens]
  exact hgroups

/-! ## Names -/

namespace Path

/-- A lone segment that does not begin with a bracket is all of the text. -/
theorem eq_of_splitFrom? {segment cs part : List Char}
    (hopen : segment ≠ [] ∨ cs.head? ≠ some '[')
    (h : splitFrom? segment false false cs = some [part]) : part = segment.reverse ++ cs := by
  induction cs generalizing segment with
  | nil =>
    rw [splitFrom?] at h
    split at h
    · cases h
    · cases h
      rw [List.append_nil]
  | cons c rest ih =>
    have hplain : ¬(c = '[' && !false && segment.isEmpty) = true := by
      rcases hopen with hne | hhead
      · simp [hne]
      · simp only [List.head?_cons, ne_eq, Option.some.injEq] at hhead
        simp [hhead]
    rw [splitFrom?, if_neg hplain, if_neg (by simp)] at h
    split at h
    · split at h
      · cases h
      · -- There is no text without segments behind a dot or a slash.
        obtain ⟨tail, htail, heq⟩ := Option.map_eq_some_iff.mp h
        obtain ⟨-, rfl⟩ := List.cons.inj heq
        exact absurd rfl (ne_nil_of_splitFrom? htail)
    · rw [ih (.inl (by simp)) h]
      simp

/-- A lone segment is no longer than the text. -/
theorem length_le_of_splitFrom? {segment cs part : List Char} {bracketed inside : Bool}
    (h : splitFrom? segment bracketed inside cs = some [part]) :
    part.length ≤ segment.length + cs.length := by
  induction cs generalizing segment bracketed inside with
  | nil =>
    rw [splitFrom?] at h
    split at h
    · cases h
    · cases h
      simp
  | cons c rest ih =>
    rw [splitFrom?] at h
    rw [List.length_cons]
    split at h
    · have hlength := ih h
      omega
    · split at h
      · have hlength := ih h
        omega
      · split at h
        · split at h
          · cases h
          · obtain ⟨tail, htail, heq⟩ := Option.map_eq_some_iff.mp h
            obtain ⟨-, rfl⟩ := List.cons.inj heq
            exact absurd rfl (ne_nil_of_splitFrom? htail)
        · have hlength := ih h
          simp only [List.length_cons] at hlength
          omega

theorem splitParents_snd {cs : List Char} (h : (splitParents cs).1 = 0) :
    (splitParents cs).2 = cs := by
  unfold splitParents at h ⊢
  split <;> simp_all

theorem splitThis_snd {cs : List Char} (h : (splitThis cs).1 = false) :
    (splitThis cs).2 = cs := by
  unfold splitThis at h ⊢
  split <;> simp_all

theorem simpleName?_eq_some {p : Path} {name : String} (h : p.simpleName? = some name) :
    p.parts = [name] ∧ p.this = false ∧ p.data = false ∧ p.depth = 0 := by
  unfold simpleName? at h
  split at h
  · next segment hparts =>
    split at h
    · next hmarks =>
      cases h
      simp only [Bool.and_eq_true, Bool.not_eq_true', decide_eq_true_eq] at hmarks
      exact ⟨hparts, hmarks.1.1, hmarks.1.2, hmarks.2⟩
    · cases h
  · cases h

/-- A path that may name a helper has one segment, which is all that its word holds. -/
theorem exists_part_of_read {word : Excerpt} {p : Path} {name : String}
    (hread : read word = .ok p) (hname : p.simpleName? = some name) :
    p.written = word.text ∧
      ∃ part, splitFrom? [] false false word.chars = some [part] ∧ name = String.ofList part := by
  obtain ⟨hparts, hthis, hdata, hdepth⟩ := simpleName?_eq_some hname
  rw [read] at hread
  simp only at hread
  split at hread
  · cases hread
  · split at hread
    · split at hread
      · cases hread
        cases hdata
      · cases hread
    · split at hread
      · split at hread
        · cases hread
          cases hparts
        · cases hread
      · split at hread
        · next parts hsegments =>
          cases hread
          simp only at hparts hthis hdepth
          subst hparts
          rw [splitParents_snd hdepth] at hthis hsegments
          rw [splitThis_snd hthis] at hsegments
          obtain ⟨segments, hsplit, heq⟩ := Option.map_eq_some_iff.mp hsegments
          obtain ⟨part, rfl, rfl⟩ := List.map_eq_singleton_iff.mp heq
          exact ⟨rfl, part, hsplit, rfl⟩
        · cases hread

/-- **The name is the word as it is written** unless the word begins with a bracket, which is then
no part of the name. -/
theorem name_eq_written_iff {word : Excerpt} {p : Path} {name : String}
    (hread : read word = .ok p) (hname : p.simpleName? = some name) :
    name = p.written ↔ p.written.toList.head? ≠ some '[' := by
  obtain ⟨hwritten, part, hsplit, rfl⟩ := exists_part_of_read hread hname
  rw [hwritten, Excerpt.text, String.toList_ofList]
  constructor
  · intro heq hopen
    obtain rfl : part = word.chars := String.ofList_injective heq
    obtain ⟨rest, hrest⟩ := List.head?_eq_some_iff.mp hopen
    rw [hrest, splitFrom?, if_pos (by rfl)] at hsplit
    have hlength := length_le_of_splitFrom? hsplit
    simp only [List.length_nil, List.length_cons] at hlength
    omega
  · intro hopen
    rw [eq_of_splitFrom? (.inr hopen) hsplit]
    rfl

end Path

/-- A word that is read as a path is no literal. -/
theorem Expr.ofToken_eq_path {t : Token} {path : Path} (h : Expr.ofToken t = .ok (.path path)) :
    t.kind = .word ∧ Path.read t.excerpt = .ok path := by
  rw [ofToken] at h
  split at h
  · cases h
  · split at h <;> cases h
  · next hkind =>
    split at h
    · cases h
    · obtain ⟨p, hp, heq⟩ := map_eq_ok.mp h
      cases heq
      exact ⟨hkind, hp⟩
  · cases h

/-! ## Calls -/

/-- Of a head that may name a helper, the word and the path. -/
theorem mayCall_eq_true {head : Expr} (h : mayCall head = true) :
    ∃ path name, head = .path path ∧ path.simpleName? = some name := by
  unfold mayCall at h
  split at h
  · next path =>
    obtain ⟨name, hname⟩ := Option.isSome_iff_exists.mp h
    exact ⟨path, name, rfl, hname⟩
  · cases h

/-- A tag with nothing but a call in parentheses. -/
theorem readExpression_nested {span : Span} {inner : Excerpt} {opening : Token}
    {groups : List Group} {closing : Closing} {e : Expr}
    (hgroups : (readTokens inner).groups = [.nested opening groups closing])
    (hcall : Expr.ofGroup (.nested opening groups closing) = .ok e) :
    readExpression span inner = .ok (.expression span e [] []) := by
  unfold readExpression
  simp only [hgroups, startsWithName?, hcall, Expr.arguments]
  rfl

/-- **A call in parentheses** is read as a call of the helper that its word spells, on arguments
that differ from those without parentheses in their places only. -/
theorem readExpression_parenthesized {span : Span} {inner : Excerpt} {head : Expr}
    {params : List Expr} {hash : HashArgs}
    (h : readExpression span inner = .ok (.expression span head params hash))
    (hargs : params ≠ [] ∨ hash ≠ []) :
    ∃ path name, head = .path path ∧ path.simpleName? = some name ∧
      (name = path.written ↔ path.written.toList.head? ≠ some '[') ∧
      ∀ span' start, ∃ place params' hash', Expr.AllAlike params params' ∧
        Expr.NamedAlike hash hash' ∧
        readExpression span' ⟨start, '(' :: (inner.chars ++ [')'])⟩ =
          .ok (.expression span' (.call place path.written params' hash') [] []) := by
  obtain ⟨g, rest, head, params, hash, hgroups, hhead, harguments, hcall, heq⟩ :=
    readExpression_eq_ok h
  cases heq
  obtain ⟨path, name, rfl, hname⟩ := mayCall_eq_true (hcall hargs)
  rcases Expr.ofGroup_eq_ok hhead with ⟨t, rfl, ht⟩ | ⟨_, _, _, _, _, _, -, -, -, -, heq⟩
  · obtain ⟨hword, hread⟩ := Expr.ofToken_eq_path ht
    refine ⟨path, name, rfl, hname, Path.name_eq_written_iff hread hname, ?_⟩
    intro span' start
    obtain ⟨opening, groups, closing, henclosed, hclosed, halike⟩ :=
      groups_enclosed (whole_of_readExpression h) start
    rw [hgroups] at halike
    rcases halike with _ | ⟨⟨hsame⟩, hrest⟩
    obtain ⟨params', hash', hargs', hall, hnamed⟩ := Expr.arguments_alike hrest
      (fun g _ g' e => Expr.ofGroup_alike g g' e) harguments closing.position
    refine ⟨opening.span, params', hash', hall, hnamed, ?_⟩
    have hcall := Expr.ofGroup_call opening (hsame.kind ▸ hword) hargs' hclosed
    rw [← hsame.text, show t.text = path.written from (Path.exists_part_of_read hread hname).1.symm]
      at hcall
    exact readExpression_nested henclosed hcall
  · cases heq

end TypedTemplate
