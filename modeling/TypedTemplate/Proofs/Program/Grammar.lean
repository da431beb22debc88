import TypedTemplate.Proofs.Program.Reading

/-!
# The grammar of blocks

A tag is one of five things to the block structure, by the text inside it: a leaf, the opening or
the closing of a block, an alternative, or a link of a chain. The grammar says in which order they
may stand.

* `Role`: what a piece is to the block structure, and `Role.ofInside`: what a tag is.
* `TagReads`: a tag that is well formed by itself.
* `IsBody`, `IsTail`: the grammar.
* **`isBody_significant_iff`**: text and comments may stand anywhere, and do not count.
* `Answers`: a directive answers to a role, and **`answers_ofTag`**: that of a tag to the tag's.
-/

namespace TypedTemplate

/-! ## Roles -/

/-- What a piece is to the block structure. -/
inductive Role where
  /-- Text or a comment. -/
  | filler
  | leaf
  | opens (header : Excerpt)
  | otherwise
  | chain (header : Excerpt)
  | close (name : String)

/-- What a tag is to the block structure, by the text inside it without the blanks around it. A
header is what stands behind the hash sign, or behind the word `else` and its blanks. -/
def Role.ofInside (inside : Excerpt) : Role :=
  match Text.trim inside.chars with
  | ['e', 'l', 's', 'e'] => .otherwise
  | ['^'] => .otherwise
  | 'e' :: 'l' :: 's' :: 'e' :: c :: _ =>
    if Text.isBlank c then .chain (inside.trimStart.drop 4).trimStart else .leaf
  | '/' :: name => .close (String.ofList (Text.trim name))
  | '#' :: _ => .opens (inside.trimStart.drop 1)
  | _ => .leaf

/-- The expression of a leaf, behind an ampersand if there is one. An empty leaf has none, nor has
one whose first character would make it an inclusion, an inverse section or a decorator. -/
def leafExpression? (inside : Excerpt) : Option Excerpt :=
  match Text.trim inside.chars with
  | [] => none
  | c :: _ =>
    if c = '>' ∨ c = '^' ∨ c = '*' then none
    else if c = '&' then some (inside.trimStart.drop 1)
    else some inside.trimStart

/-- The first word of a header. -/
def Excerpt.firstWord? (header : Excerpt) : Option String :=
  match (readTokens header).groups with
  | .token t :: _ => if t.kind = .word then some t.text else none
  | _ => none

/-! ## Tags by themselves -/

/-- The kinds of blocks that take exactly one argument, without a name. -/
def singleArgument : List String := ["if", "unless", "each", "with"]

/-- **A header that is well formed**: it starts with a name, its arguments parse, and they are as
many as the kind of block takes. -/
def HeaderReads (header : Excerpt) : Prop :=
  ∃ name rest params hash, (readTokens header).groups = .token name :: rest ∧ name.kind = .word ∧
    Expr.arguments (readTokens header).stop false rest = .ok (params, hash) ∧
    (name.text ∈ singleArgument → params.length = 1 ∧ hash = [])

/-- **A leaf that is well formed**: its expression parses. -/
def LeafReads (span : Span) (inside : Excerpt) (s : Statement) : Prop :=
  ∃ inner, leafExpression? inside = some inner ∧ readExpression span inner = .ok s

/-- A header may stand behind a hash sign: it does not begin like a decorator or a partial
block. -/
def MayOpen (header : Excerpt) : Prop :=
  header.chars.head? ≠ some '*' ∧ header.chars.head? ≠ some '>'

/-- **A tag that is well formed by itself.** -/
def TagReads (span : Span) (inside : Excerpt) : Prop :=
  match Role.ofInside inside with
  | .leaf => ∃ s, LeafReads span inside s
  | .opens header => MayOpen header ∧ HeaderReads header
  | .chain header => HeaderReads header
  | _ => True

/-! ## The grammar -/

mutual

/-- **A body**: text, comments, leaves and blocks, in any order. -/
inductive IsBody : List Role → Prop where
  | nil : IsBody []
  | filler {rest : List Role} (more : IsBody rest) : IsBody (.filler :: rest)
  | leaf {rest : List Role} (more : IsBody rest) : IsBody (.leaf :: rest)
  | block {header : Excerpt} {name : String} {body tail rest : List Role}
    (word : header.firstWord? = some name) (inner : IsBody body) (ends : IsTail name tail)
    (more : IsBody rest) : IsBody (.opens header :: (body ++ tail ++ rest))

/-- **What ends a block** behind its first body: its closing tag, an alternative in front of it, or
a chain that goes on. All the closing tag has to do with is the name that the block was opened
with. -/
inductive IsTail : String → List Role → Prop where
  | close {name : String} : IsTail name [.close name]
  | otherwise {name : String} {body : List Role} (inner : IsBody body) :
    IsTail name (.otherwise :: (body ++ [.close name]))
  | chain {name : String} {header : Excerpt} {body tail : List Role} (inner : IsBody body)
    (ends : IsTail name tail) : IsTail name (.chain header :: (body ++ tail))

end

/-- The piece is text or a comment. -/
def Role.isFiller : Role → Bool
  | .filler => true
  | _ => false

/-- A tag is neither text nor a comment. -/
theorem Role.isFiller_ofInside (inside : Excerpt) : (ofInside inside).isFiller = false := by
  unfold ofInside
  split
  · rfl
  · rfl
  · split
    · rfl
    · rfl
  · rfl
  · rfl
  · rfl

/-- The roles other than text and comments. -/
def significant (roles : List Role) : List Role := roles.filter fun r => !r.isFiller

theorem significant_append (as bs : List Role) :
    significant (as ++ bs) = significant as ++ significant bs := List.filter_append ..

/-- A body in front of a body is one. -/
theorem IsBody.append {as bs : List Role} (ha : IsBody as) (hb : IsBody bs) :
    IsBody (as ++ bs) := by
  induction ha using IsBody.rec (motive_2 := fun _ _ _ => True) with
  | nil => exact hb
  | filler _ ih => exact .filler ih
  | leaf _ ih => exact .leaf ih
  | block word inner ends _ _ _ ih =>
    rw [List.cons_append, List.append_assoc]
    exact .block word inner ends ih
  | close => trivial
  | otherwise => trivial
  | chain => trivial

/-- Where something significant stands first, text and comments stand in front of it. -/
theorem significant_eq_cons {roles rest : List Role} {r : Role}
    (h : significant roles = r :: rest) :
    ∃ lead more, roles = lead ++ r :: more ∧ significant lead = [] ∧ r.isFiller = false ∧
      significant more = rest := by
  obtain ⟨lead, more, hroles, hlead, hr, hmore⟩ := List.filter_eq_cons_iff.mp h
  refine ⟨lead, more, hroles, ?_, by simpa using hr, hmore⟩
  exact List.filter_eq_nil_iff.mpr hlead

/-- Text and comments alone are a body. -/
theorem isBody_of_significant_nil {roles : List Role} (h : significant roles = []) :
    IsBody roles := by
  induction roles with
  | nil => exact .nil
  | cons r roles ih =>
    have hall := List.filter_eq_nil_iff.mp h
    have hr : r = .filler := by
      have hfiller := hall r List.mem_cons_self
      cases r <;> first | rfl | exact absurd rfl hfiller
    subst hr
    exact .filler (ih (List.filter_eq_nil_iff.mpr fun x hx => hall x (List.mem_cons_of_mem _ hx)))

/-- A body without its text and comments is a body. -/
theorem IsBody.significant {roles : List Role} (h : IsBody roles) :
    IsBody (significant roles) := by
  induction h using IsBody.rec
    (motive_2 := fun name tail _ => IsTail name (TypedTemplate.significant tail)) with
  | nil => exact .nil
  | filler _ ih => exact ih
  | leaf _ ih => exact .leaf ih
  | block word _ _ _ hinner hends hmore =>
    have hblock := IsBody.block word hinner hends hmore
    rw [← significant_append, ← significant_append] at hblock
    exact hblock
  | close => exact .close
  | @otherwise name body _ hinner =>
    have htail : IsTail name
        (.otherwise :: (TypedTemplate.significant body ++ [.close name])) := .otherwise hinner
    have happend : TypedTemplate.significant (body ++ [.close name]) =
        TypedTemplate.significant body ++ [.close name] := significant_append ..
    rw [← happend] at htail
    exact htail
  | @chain name header body tail _ _ hinner hends =>
    have htail : IsTail name (.chain header ::
        (TypedTemplate.significant body ++ TypedTemplate.significant tail)) := .chain hinner hends
    rw [← significant_append] at htail
    exact htail

/-- A body may hold text and comments anywhere. What ends a block may as well, but those at its ends
belong to the bodies around it. -/
theorem IsBody.of_significant {roles rs : List Role} (h : IsBody rs)
    (hroles : TypedTemplate.significant roles = rs) : IsBody roles := by
  induction h using IsBody.rec
    (motive_2 := fun name tail _ => ∀ roles, TypedTemplate.significant roles = tail →
      ∃ lead core trail, roles = lead ++ core ++ trail ∧ TypedTemplate.significant lead = [] ∧
        TypedTemplate.significant trail = [] ∧ IsTail name core) generalizing roles with
  | nil => exact isBody_of_significant_nil hroles
  | filler =>
    obtain ⟨lead, more, -, -, hfiller, -⟩ := significant_eq_cons hroles
    cases hfiller
  | leaf _ ih =>
    obtain ⟨lead, more, rfl, hlead, -, hmore⟩ := significant_eq_cons hroles
    exact (isBody_of_significant_nil hlead).append (.leaf (ih hmore))
  | block word _ _ _ hinner hends hmore =>
    obtain ⟨lead, more, rfl, hlead, -, hsplit⟩ := significant_eq_cons hroles
    obtain ⟨front, rest, rfl, hfront, hrest⟩ := List.filter_eq_append_iff.mp hsplit
    obtain ⟨body, ends, rfl, hbody, htail⟩ := List.filter_eq_append_iff.mp hfront
    obtain ⟨before, core, after, rfl, hbefore, hafter, hcore⟩ := hends ends htail
    have hfirst := (hinner hbody).append (isBody_of_significant_nil hbefore)
    have hlast := (isBody_of_significant_nil hafter).append (hmore hrest)
    have hblock := (isBody_of_significant_nil hlead).append (.block word hfirst hcore hlast)
    simpa using hblock
  | @close name roles hclose =>
    obtain ⟨lead, more, rfl, hlead, -, hmore⟩ := significant_eq_cons hclose
    exact ⟨lead, [.close name], more, by simp, hlead, hmore, .close⟩
  | @otherwise name _ _ hinner roles htail =>
    obtain ⟨lead, more, rfl, hlead, -, hsplit⟩ := significant_eq_cons htail
    obtain ⟨body, ends, rfl, hbody, hends⟩ := List.filter_eq_append_iff.mp hsplit
    obtain ⟨before, after, rfl, hbefore, -, hafter⟩ := significant_eq_cons hends
    have hfirst := (hinner hbody).append (isBody_of_significant_nil hbefore)
    exact ⟨lead, _, after, by simp, hlead, hafter, .otherwise hfirst⟩
  | @chain _ header _ _ _ _ hinner hends roles htail =>
    obtain ⟨lead, more, rfl, hlead, -, hsplit⟩ := significant_eq_cons htail
    obtain ⟨body, ends, rfl, hbody, hcore⟩ := List.filter_eq_append_iff.mp hsplit
    obtain ⟨before, core, after, rfl, hbefore, hafter, hchain⟩ := hends ends hcore
    have hfirst := (hinner hbody).append (isBody_of_significant_nil hbefore)
    exact ⟨lead, .chain header :: (body ++ before ++ core), after, by simp, hlead, hafter,
      .chain hfirst hchain⟩

/-- **Text and comments may stand anywhere**: they do not count in the grammar. -/
theorem isBody_significant_iff {roles : List Role} : IsBody (significant roles) ↔ IsBody roles := by
  constructor
  · intro h
    exact h.of_significant rfl
  · exact IsBody.significant

/-! ## Headers -/

theorem BlockKind.name_ofName (name : String) : (BlockKind.ofName name).name = name := by
  unfold BlockKind.ofName
  split
  · next h => exact h.symm
  · split
    · next h => exact h.symm
    · split
      · next h => exact h.symm
      · split
        · next h => exact h.symm
        · rfl

/-- The kinds that call no helper are those that take exactly one argument. -/
theorem BlockKind.isCustom_ofName {name : String} :
    (BlockKind.ofName name).isCustom = false ↔ name ∈ singleArgument := by
  unfold BlockKind.ofName singleArgument
  constructor
  · intro h
    split at h
    · simp_all
    · split at h
      · simp_all
      · split at h
        · simp_all
        · split at h
          · simp_all
          · cases h
  · intro h
    simp only [List.mem_cons, List.not_mem_nil, or_false] at h
    rcases h with rfl | rfl | rfl | rfl <;> rfl

/-- The name of a block is the first word of its header. -/
theorem firstWord?_of_readHeader {span : Span} {text : Excerpt} {h : Header}
    (hread : readHeader span text = .ok h) : text.firstWord? = some h.kind.name := by
  obtain ⟨name, rest, params, hash, hgroups, hword, -, rfl, -⟩ := readHeader_eq_ok hread
  unfold Excerpt.firstWord?
  simp only [hgroups, hword, ↓reduceIte, BlockKind.name_ofName]

/-- A header is read if it is well formed, and only then. -/
theorem exists_readHeader_iff {span : Span} {text : Excerpt} :
    (∃ h, readHeader span text = .ok h) ↔ HeaderReads text := by
  constructor
  · rintro ⟨h, hread⟩
    obtain ⟨name, rest, params, hash, hgroups, hword, hargs, rfl, hone⟩ := readHeader_eq_ok hread
    refine ⟨name, rest, params, hash, hgroups, hword, hargs, ?_⟩
    intro hname
    exact hone (BlockKind.isCustom_ofName.mpr hname)
  · rintro ⟨name, rest, params, hash, hgroups, hword, hargs, hone⟩
    refine ⟨⟨span, .ofName name.text, params, hash⟩, ?_⟩
    have harity : ¬(!(BlockKind.ofName name.text).isCustom &&
        (params.length ≠ 1 || !hash.isEmpty)) = true := by
      cases hcustom : (BlockKind.ofName name.text).isCustom with
      | true => simp
      | false =>
        obtain ⟨hlength, rfl⟩ := hone (BlockKind.isCustom_ofName.mp hcustom)
        simp [hlength]
    unfold readHeader
    simp only [hgroups, hword, ne_eq, not_true_eq_false, ↓reduceIte, hargs]
    rw [if_neg harity]

/-! ## Directives -/

/-- What is asked for answers to what a tag is. -/
inductive Answers (inside : Excerpt) : Role → Directive → Prop where
  | otherwise : Answers inside .otherwise .otherwise
  | chain (header : Excerpt) : Answers inside (.chain header) (.otherwiseIf header)
  | close (name : String) : Answers inside (.close name) (.close name)
  | opens {header : Excerpt} (allowed : MayOpen header) :
    Answers inside (.opens header) (.opens header)
  | refusedBlock {header : Excerpt} (refused : ¬MayOpen header) :
    Answers inside (.opens header) (.refused .decoratorBlock)
  | leaf {inner : Excerpt} (expression : leafExpression? inside = some inner) :
    Answers inside .leaf (.leaf inner)
  | refusedLeaf {cause : SyntaxError.Cause} (expression : leafExpression? inside = none) :
    Answers inside .leaf (.refused cause)

theorem Excerpt.chars_trimStart (e : Excerpt) : e.trimStart.chars = Text.trimStart e.chars := by
  rw [e.trimStart_eq]

/-- Behind a hash sign, trimming at the back does not touch the character that matters. -/
theorem mayOpen_iff {inside : Excerpt} {more : List Char}
    (h : Text.trim inside.chars = '#' :: more) :
    MayOpen (inside.trimStart.drop 1) ↔ more.head? ≠ some '*' ∧ more.head? ≠ some '>' := by
  have hsplit := Text.eq_trimEnd_append inside.trimStart.chars
  have htrim : Text.trimEnd inside.trimStart.chars = '#' :: more := by
    rw [inside.chars_trimStart]
    exact h
  rw [htrim] at hsplit
  have hchars : (inside.trimStart.drop 1).chars =
      more ++ (inside.trimStart.chars.reverse.takeWhile Text.isBlank).reverse := by
    show inside.trimStart.chars.drop 1 = _
    conv => lhs; rw [hsplit]
    rfl
  have hblank : ∀ c ∈ (inside.trimStart.chars.reverse.takeWhile Text.isBlank).reverse,
      Text.isBlank c = true := by
    intro c hc
    exact List.all_eq_true.mp List.all_takeWhile c (List.mem_reverse.mp hc)
  unfold MayOpen
  rw [hchars]
  cases more with
  | cons c more => simp
  | nil =>
    cases hback : (inside.trimStart.chars.reverse.takeWhile Text.isBlank).reverse with
    | nil => simp
    | cons c rest =>
      have hc := hblank c (hback ▸ List.mem_cons_self)
      simp only [List.nil_append, List.head?_cons, List.head?_nil]
      constructor
      · simp
      · rintro -
        constructor
        · rintro heq
          cases heq
          revert hc
          decide
        · rintro heq
          cases heq
          revert hc
          decide

/-- What stands behind the word `else` is a header if a blank stands in front of it. -/
theorem elseHeader?_trimStart (inside : Excerpt) :
    elseHeader? inside.trimStart =
      match dropStart? ['e', 'l', 's', 'e'] (Text.trim inside.chars) with
      | some (c :: _) =>
        if Text.isBlank c then some (inside.trimStart.drop 4).trimStart else none
      | _ => none := by
  unfold elseHeader?
  rw [inside.chars_trimStart]
  rfl

/-- **What a tag asks for answers to what it is** to the block structure. -/
theorem answers_ofTag (inside : Excerpt) :
    Answers inside (Role.ofInside inside) (Directive.ofTag inside) := by
  have htrim : Text.trimEnd inside.trimStart.chars = Text.trim inside.chars := by
    rw [inside.chars_trimStart]
    rfl
  have hleaf : leafExpression? inside =
      match Text.trim inside.chars with
      | [] => none
      | c :: _ =>
        if c = '>' ∨ c = '^' ∨ c = '*' then none
        else if c = '&' then some (inside.trimStart.drop 1)
        else some inside.trimStart := rfl
  have hopen := @mayOpen_iff inside
  unfold Directive.ofTag Role.ofInside
  simp only [htrim, elseHeader?_trimStart]
  generalize Text.trim inside.chars = text at hopen hleaf ⊢
  split
  · exact .otherwise
  · exact .otherwise
  · next text c tail =>
    have hlonger : ¬(decide ('e' :: 'l' :: 's' :: 'e' :: c :: tail = ['e', 'l', 's', 'e']) ||
        decide ('e' :: 'l' :: 's' :: 'e' :: c :: tail = ['^'])) = true := by simp
    rw [if_neg hlonger]
    cases hblank : Text.isBlank c with
    | true =>
      simp only [dropStart?, hblank, ↓reduceIte]
      exact .chain _
    | false =>
      simp only [dropStart?, hblank, Bool.false_eq_true, ↓reduceIte]
      exact .leaf hleaf
  · next text name =>
    rw [if_neg (by simp)]
    exact .close _
  · next text more =>
    have hno : dropStart? ['e', 'l', 's', 'e'] ('#' :: more) = none := by simp [dropStart?]
    have hallowed := hopen rfl
    rw [if_neg (by simp), hno]
    cases more with
    | nil => exact .opens (by simp [hallowed])
    | cons c more =>
      by_cases hstar : c = '*'
      · subst hstar
        exact .refusedBlock (by simp [hallowed])
      · by_cases hangle : c = '>'
        · subst hangle
          exact .refusedBlock (by simp [hallowed])
        · have hmay : MayOpen (inside.trimStart.drop 1) := by simp [hallowed, hstar, hangle]
          dsimp only
          split
          all_goals first | exact .opens hmay | simp_all
  · next helse hcaret hchain hclose hhash =>
    rw [if_neg (by simpa using ⟨helse, hcaret⟩)]
    have hno : (match dropStart? ['e', 'l', 's', 'e'] text with
        | some (c :: _) =>
          if Text.isBlank c then some (inside.trimStart.drop 4).trimStart else none
        | _ => none) = none := by
      split
      · next c rest hdrop =>
        exact absurd (eq_append_of_dropStart? hdrop) (hchain c rest)
      · rfl
    rw [hno]
    dsimp only
    cases text with
    | nil => exact .refusedLeaf hleaf
    | cons c rest =>
      simp only at hleaf
      by_cases hrefused : c = '>' ∨ c = '^' ∨ c = '*'
      · rw [if_pos hrefused] at hleaf
        rcases hrefused with rfl | rfl | rfl
        · exact .refusedLeaf hleaf
        · exact .refusedLeaf hleaf
        · exact .refusedLeaf hleaf
      · rw [if_neg hrefused] at hleaf
        by_cases hampersand : c = '&'
        · subst hampersand
          exact .leaf hleaf
        · rw [if_neg hampersand] at hleaf
          split
          all_goals first | exact .leaf hleaf | simp_all

end TypedTemplate
