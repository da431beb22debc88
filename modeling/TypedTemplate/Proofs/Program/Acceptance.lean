import TypedTemplate.Proofs.Program.Derivation

/-!
# Which templates are read

A program derives from the parts of a template just where every tag is well formed by itself and
the roles of the parts are a body. Whitespace control drops text and comments, but no tag, so the
same can be said of the pieces that the template is cut into.

* `exists_derives_iff`: which parts derive a program.
* **`filter_isTag_stripPieces`**: whitespace control keeps the tags, and their order.
* `ChainLink`: a link of a chain.
* **`derivesTail_chain`**: a chain of any length is closed once, by the name it was opened with.
* **`readProgram_grammar`**: which templates are read, and as what.
-/

namespace TypedTemplate

/-! ## What derives -/

/-- A part that is well formed by itself. -/
def Part.Reads : Part → Prop
  | .content _ _ => True
  | .tag span inside => TagReads span inside

theorem tagReads_of_leaf {span : Span} {inside : Excerpt} {s : Statement}
    (role : Role.ofInside inside = .leaf) (reads : LeafReads span inside s) :
    TagReads span inside := by
  unfold TagReads
  rw [role]
  exact ⟨s, reads⟩

/-- What derives has well-formed tags in the order of the grammar. -/
theorem Derives.isBody {parts : List Part} {p : Program} (h : Derives parts p) :
    (∀ part ∈ parts, part.Reads) ∧ IsBody (parts.map Part.role) := by
  induction h using Derives.rec
    (motive_2 := fun name _ _ tail _ _ =>
      (∀ part ∈ tail, part.Reads) ∧ IsTail name (tail.map Part.role)) with
  | nil => exact ⟨by simp, .nil⟩
  | content _ ih => exact ⟨List.forall_mem_cons.mpr ⟨trivial, ih.1⟩, .filler ih.2⟩
  | @leaf span inside s rest p hrole hreads _ ih =>
    refine ⟨List.forall_mem_cons.mpr ⟨tagReads_of_leaf hrole hreads, ih.1⟩, ?_⟩
    rw [List.map_cons, Part.role, hrole]
    exact .leaf ih.2
  | @block span inside text header body tail rest program p s hrole hallowed hreads _ _ _ ihInner
      ihEnds ihMore =>
    have htag : TagReads span inside := by
      unfold TagReads
      rw [hrole]
      exact ⟨hallowed, exists_readHeader_iff.mp ⟨header, hreads⟩⟩
    constructor
    · simp only [List.mem_cons, List.mem_append]
      rintro part (rfl | (hpart | hpart) | hpart)
      · exact htag
      · exact ihInner.1 part hpart
      · exact ihEnds.1 part hpart
      · exact ihMore.1 part hpart
    · rw [List.map_cons, List.map_append, List.map_append, Part.role, hrole]
      exact .block (firstWord?_of_readHeader hreads) ihInner.2 ihEnds.2 ihMore.2
  | close hcloses =>
    obtain ⟨span, inside, rfl, hrole⟩ := hcloses
    constructor
    · simp [Part.Reads, TagReads, hrole]
    · rw [List.map_singleton, Part.role, hrole]
      exact .close
  | @otherwise name header program inverse span inside body last hrole _ hcloses ihInner =>
    obtain ⟨span', inside', rfl, hrole'⟩ := hcloses
    constructor
    · simp only [List.mem_cons, List.mem_append, List.not_mem_nil, or_false]
      rintro part (rfl | hpart | rfl)
      · simp [Part.Reads, TagReads, hrole]
      · exact ihInner.1 part hpart
      · simp [Part.Reads, TagReads, hrole']
    · rw [List.map_cons, List.map_append, List.map_singleton, Part.role, Part.role, hrole, hrole']
      exact .otherwise ihInner.2
  | @chain name header next program further span inside text body tail s hrole hreads _ _ ihInner
      ihEnds =>
    have htag : TagReads span inside := by
      unfold TagReads
      rw [hrole]
      exact exists_readHeader_iff.mp ⟨next, hreads⟩
    constructor
    · simp only [List.mem_cons, List.mem_append]
      rintro part (rfl | hpart | hpart)
      · exact htag
      · exact ihInner.1 part hpart
      · exact ihEnds.1 part hpart
    · rw [List.map_cons, List.map_append, Part.role, hrole]
      exact .chain ihInner.2 ihEnds.2

/-- A part whose role is not that of text is a tag of this role. -/
theorem Part.eq_tag_of_role {part : Part} {r : Role} (h : part.role = r) (hr : r.isFiller = false) :
    ∃ span inside, part = .tag span inside ∧ Role.ofInside inside = r := by
  cases part with
  | content => subst h; cases hr
  | tag span inside => exact ⟨span, inside, rfl, h⟩

/-- Well-formed tags in the order of the grammar derive a program. -/
theorem IsBody.derives {roles : List Role} (h : IsBody roles) {parts : List Part}
    (hroles : parts.map Part.role = roles) (hreads : ∀ part ∈ parts, part.Reads) :
    ∃ p, Derives parts p := by
  induction h using IsBody.rec
    (motive_2 := fun name tail _ => ∀ parts : List Part, parts.map Part.role = tail →
      (∀ part ∈ parts, part.Reads) → ∀ header program, ∃ s,
        DerivesTail name header program parts s)
    generalizing parts with
  | nil =>
    obtain rfl := List.map_eq_nil_iff.mp hroles
    exact ⟨[], .nil⟩
  | filler _ ih =>
    obtain ⟨part, rest, rfl, hrole, hrest⟩ := List.map_eq_cons_iff.mp hroles
    obtain ⟨p, hp⟩ := ih hrest (List.forall_mem_cons.mp hreads).2
    cases part with
    | content span text => exact ⟨_, .content hp⟩
    | tag span inside =>
      have hfiller := Role.isFiller_ofInside inside
      rw [show Role.ofInside inside = .filler from hrole] at hfiller
      cases hfiller
  | leaf _ ih =>
    obtain ⟨part, rest, rfl, hrole, hrest⟩ := List.map_eq_cons_iff.mp hroles
    obtain ⟨hpart, hothers⟩ := List.forall_mem_cons.mp hreads
    obtain ⟨p, hp⟩ := ih hrest hothers
    obtain ⟨span, inside, rfl, hinside⟩ := Part.eq_tag_of_role hrole rfl
    simp only [Part.Reads, TagReads, hinside] at hpart
    obtain ⟨s, hs⟩ := hpart
    exact ⟨s :: p, .leaf hinside hs hp⟩
  | @block header name body tail rest hword _ _ _ ihInner ihEnds ihMore =>
    obtain ⟨part, others, rfl, hrole, hothers⟩ := List.map_eq_cons_iff.mp hroles
    obtain ⟨hpart, hrest⟩ := List.forall_mem_cons.mp hreads
    obtain ⟨span, inside, rfl, hinside⟩ := Part.eq_tag_of_role hrole rfl
    simp only [Part.Reads, TagReads, hinside] at hpart
    obtain ⟨hallowed, hheader⟩ := hpart
    obtain ⟨h, hread⟩ : ∃ h, readHeader span header = .ok h := exists_readHeader_iff.mpr hheader
    obtain rfl : name = h.kind.name :=
      Option.some.inj (hword.symm.trans (firstWord?_of_readHeader hread))
    obtain ⟨front, more, rfl, hfront, hmore⟩ := List.map_eq_append_iff.mp hothers
    obtain ⟨inner, ends, rfl, hinner, hends⟩ := List.map_eq_append_iff.mp hfront
    obtain ⟨hfrontReads, hmoreReads⟩ := List.forall_mem_append.mp hrest
    obtain ⟨hinnerReads, hendsReads⟩ := List.forall_mem_append.mp hfrontReads
    obtain ⟨program, hprogram⟩ := ihInner hinner hinnerReads
    obtain ⟨s, hs⟩ := ihEnds ends hends hendsReads h program
    obtain ⟨p, hp⟩ := ihMore hmore hmoreReads
    exact ⟨s :: p, .block hinside hallowed hread hprogram hs hp⟩
  | close parts hclose hreads header program =>
    obtain ⟨part, rest, rfl, hrole, hrest⟩ := List.map_eq_cons_iff.mp hclose
    obtain rfl := List.map_eq_nil_iff.mp hrest
    exact ⟨_, .close (Part.eq_tag_of_role hrole rfl)⟩
  | otherwise _ ihInner parts hparts hreads header program =>
    obtain ⟨part, others, rfl, hrole, hothers⟩ := List.map_eq_cons_iff.mp hparts
    obtain ⟨-, hrest⟩ := List.forall_mem_cons.mp hreads
    obtain ⟨span, inside, rfl, hinside⟩ := Part.eq_tag_of_role hrole rfl
    obtain ⟨inner, ends, rfl, hinner, hends⟩ := List.map_eq_append_iff.mp hothers
    obtain ⟨last, none, rfl, hlast, hnone⟩ := List.map_eq_cons_iff.mp hends
    obtain rfl := List.map_eq_nil_iff.mp hnone
    obtain ⟨inverse, hinverse⟩ := ihInner hinner (List.forall_mem_append.mp hrest).1
    exact ⟨_, .otherwise hinside hinverse (Part.eq_tag_of_role hlast rfl)⟩
  | chain _ _ ihInner ihEnds parts hparts hreads header program =>
    obtain ⟨part, others, rfl, hrole, hothers⟩ := List.map_eq_cons_iff.mp hparts
    obtain ⟨hpart, hrest⟩ := List.forall_mem_cons.mp hreads
    obtain ⟨span, inside, rfl, hinside⟩ := Part.eq_tag_of_role hrole rfl
    simp only [Part.Reads, TagReads, hinside] at hpart
    obtain ⟨inner, ends, rfl, hinner, hends⟩ := List.map_eq_append_iff.mp hothers
    obtain ⟨hinnerReads, hendsReads⟩ := List.forall_mem_append.mp hrest
    obtain ⟨next, hnext⟩ := exists_readHeader_iff.mpr hpart
    obtain ⟨further, hfurther⟩ := ihInner hinner hinnerReads
    obtain ⟨s, hs⟩ := ihEnds ends hends hendsReads next further
    exact ⟨_, .chain hinside hnext hfurther hs⟩

/-- **A program derives** just where every tag is well formed and the roles are a body. -/
theorem exists_derives_iff {parts : List Part} :
    (∃ p, Derives parts p) ↔ (∀ part ∈ parts, part.Reads) ∧ IsBody (parts.map Part.role) := by
  constructor
  · rintro ⟨p, hp⟩
    exact hp.isBody
  · rintro ⟨hreads, hbody⟩
    exact hbody.derives rfl hreads

/-! ## Pieces and parts -/

/-- The part is a tag. -/
def Part.isTag : Part → Bool
  | .content _ _ => false
  | .tag _ _ => true

/-- The tag of a piece, where it is one. -/
def LocatedPiece.tag? (l : LocatedPiece) : Option Part :=
  match l.piece with
  | .tag strip braces inner => some (.tag l.span (innerExcerpt l.start strip braces inner))
  | _ => none

/-- What a piece is to the block structure. -/
def LocatedPiece.role (l : LocatedPiece) : Role :=
  match l.piece with
  | .tag strip braces inner => Role.ofInside (innerExcerpt l.start strip braces inner)
  | _ => .filler

/-- A piece that is well formed by itself. -/
def LocatedPiece.Reads (l : LocatedPiece) : Prop :=
  match l.piece with
  | .tag strip braces inner => TagReads l.span (innerExcerpt l.start strip braces inner)
  | _ => True

/-- The tags under way are the settled ones: what is pending is text. -/
theorem Stripping.filter_isTag_parts (s : Stripping) :
    s.parts.filter Part.isTag = s.settled.filter Part.isTag := by
  have hpending : (s.pending.map fun p => Part.content p.1 p.2).filter Part.isTag = [] := by
    rw [List.filter_eq_nil_iff]
    intro part hpart
    obtain ⟨p, -, rfl⟩ := List.mem_map.mp hpart
    simp [Part.isTag]
  unfold Stripping.parts
  rw [List.filter_append, hpending, List.nil_append]

/-- One piece adds its tag, if it is one. -/
theorem Stripping.filter_isTag_step (s : Stripping) (l : LocatedPiece) :
    (s.step l).parts.filter Part.isTag = l.tag?.toList ++ s.parts.filter Part.isTag := by
  rw [filter_isTag_parts, filter_isTag_parts]
  obtain ⟨start, piece⟩ := l
  cases piece with
  | text raw => rfl
  | comment strip long body => rfl
  | tag strip braces inner =>
    have hparts := filter_isTag_parts
      { s with pending := if strip.before then stripLast s.pending else s.pending }
    simp only [step, LocatedPiece.tag?, Option.toList_some]
    rw [List.filter_cons_of_pos rfl, hparts]
    rfl

/-- **Whitespace control keeps the tags**, and their order. -/
theorem filter_isTag_stripPieces (pieces : List LocatedPiece) :
    (stripPieces pieces).filter Part.isTag = pieces.filterMap LocatedPiece.tag? := by
  have hrun : ∀ s : Stripping, ((pieces.foldl Stripping.step s).parts.reverse).filter Part.isTag =
      s.parts.reverse.filter Part.isTag ++ pieces.filterMap LocatedPiece.tag? := by
    induction pieces with
    | nil => simp
    | cons l pieces ih =>
      intro s
      rw [List.foldl_cons, ih (s.step l), List.filter_reverse, s.filter_isTag_step l]
      cases htag : l.tag? with
      | none => simp [htag]
      | some tag => simp [htag]
  exact hrun .start

/-- The significant roles of parts are those of their tags. -/
theorem significant_map_role (parts : List Part) :
    significant (parts.map Part.role) = (parts.filter Part.isTag).map Part.role := by
  induction parts with
  | nil => rfl
  | cons part parts ih =>
    cases part with
    | content span text => exact ih
    | tag span inside =>
      have hnot : (Part.role (.tag span inside)).isFiller = false := Role.isFiller_ofInside inside
      unfold significant at ih ⊢
      rw [List.map_cons, List.filter_cons_of_pos (by simp [hnot]), ih]
      rfl

/-- The significant roles of pieces are those of their tags. -/
theorem significant_map_role_pieces (pieces : List LocatedPiece) :
    significant (pieces.map LocatedPiece.role) =
      (pieces.filterMap LocatedPiece.tag?).map Part.role := by
  induction pieces with
  | nil => rfl
  | cons l pieces ih =>
    obtain ⟨start, piece⟩ := l
    cases piece with
    | text raw => exact ih
    | comment strip long body => exact ih
    | tag strip braces inner =>
      have hnot : (LocatedPiece.role ⟨start, .tag strip braces inner⟩).isFiller = false :=
        Role.isFiller_ofInside _
      unfold significant at ih ⊢
      rw [List.map_cons, List.filter_cons_of_pos (by simp [hnot]), ih]
      rfl

/-- The parts of a template are well formed if its pieces are: text is in any case. -/
theorem forall_reads_stripPieces_iff (pieces : List LocatedPiece) :
    (∀ part ∈ stripPieces pieces, part.Reads) ↔ ∀ l ∈ pieces, l.Reads := by
  have htags := filter_isTag_stripPieces pieces
  constructor
  · intro h l hl
    cases htag : l.tag? with
    | none =>
      obtain ⟨start, piece⟩ := l
      cases piece with
      | text => trivial
      | comment => trivial
      | tag => simp [LocatedPiece.tag?] at htag
    | some tag =>
      have hmem : tag ∈ (stripPieces pieces).filter Part.isTag := by
        rw [htags]
        exact List.mem_filterMap.mpr ⟨l, hl, htag⟩
      have hreads := h tag (List.mem_filter.mp hmem).1
      obtain ⟨start, piece⟩ := l
      cases piece with
      | text => simp [LocatedPiece.tag?] at htag
      | comment => simp [LocatedPiece.tag?] at htag
      | tag strip braces inner =>
        obtain rfl := Option.some.inj htag
        exact hreads
  · intro h part hpart
    cases part with
    | content => trivial
    | tag span inside =>
      have hmem : Part.tag span inside ∈ (stripPieces pieces).filter Part.isTag :=
        List.mem_filter.mpr ⟨hpart, rfl⟩
      rw [htags] at hmem
      obtain ⟨l, hl, htag⟩ := List.mem_filterMap.mp hmem
      have hreads := h l hl
      obtain ⟨start, piece⟩ := l
      cases piece with
      | text => simp [LocatedPiece.tag?] at htag
      | comment => simp [LocatedPiece.tag?] at htag
      | tag strip braces inner =>
        cases htag
        exact hreads

/-! ## Chains -/

/-- A link of a chain: its tag, and the parts of its body. -/
structure ChainLink where
  span : Span
  inside : Excerpt
  text : Excerpt
  header : Header
  body : List Part
  program : Program
  role : Role.ofInside inside = .chain text
  reads : readHeader text.span text = .ok header
  derives : Derives body program

/-- The parts of a link. -/
def ChainLink.parts (l : ChainLink) : List Part := .tag l.span l.inside :: l.body

/-- A block and the links of its chain, each the only statement of the alternative in front. -/
def chainStatement (header : Header) (program : Program) : List ChainLink → Statement
  | [] => header.block program none
  | l :: links => header.block program (some [chainStatement l.header l.program links])

/-- **A chain of any length is closed once**, by the name that it was opened with, and each of its
links is a block inside the alternative of the one in front. -/
theorem derivesTail_chain {name : String} {last : Part} (closes : last.IsClose name)
    (links : List ChainLink) (header : Header) (program : Program) :
    DerivesTail name header program (links.flatMap ChainLink.parts ++ [last])
      (chainStatement header program links) := by
  induction links generalizing header program with
  | nil => exact .close closes
  | cons l links ih =>
    rw [List.flatMap_cons, ChainLink.parts, List.cons_append, List.cons_append, List.append_assoc]
    exact .chain l.role l.reads l.derives (ih l.header l.program)

/-! ## Templates -/

/-- **The reader accepts exactly the grammar of blocks, and returns the derivation.** A template
that is cut into pieces is read just where every leaf and header is well formed by itself and the
pieces are a body; its program is what its parts derive. In particular a chain of any length is
closed once, by the name that it was opened with. -/
theorem readProgram_grammar {text : String} {pieces : List LocatedPiece}
    (h : readPieces text = (pieces, none)) :
    ((∃ p, readProgram text = .ok p) ↔
      (∀ l ∈ pieces, l.Reads) ∧ IsBody (pieces.map LocatedPiece.role)) ∧
    (∀ p, readProgram text = .ok p ↔ Derives (stripPieces pieces) p) ∧
    (∀ (links : List ChainLink) (header : Header) (program : Program) (name : String) (last : Part),
      last.IsClose name → DerivesTail name header program
        (links.flatMap ChainLink.parts ++ [last]) (chainStatement header program links)) := by
  refine ⟨?_, fun p => readProgram_eq_ok_iff h, ?_⟩
  · have hroles : IsBody ((stripPieces pieces).map Part.role) ↔
        IsBody (pieces.map LocatedPiece.role) := by
      rw [← isBody_significant_iff, significant_map_role, filter_isTag_stripPieces,
        ← significant_map_role_pieces, isBody_significant_iff]
    calc (∃ p, readProgram text = .ok p)
        ↔ ∃ p, Derives (stripPieces pieces) p := exists_congr fun p => readProgram_eq_ok_iff h
      _ ↔ (∀ part ∈ stripPieces pieces, part.Reads) ∧
            IsBody ((stripPieces pieces).map Part.role) := exists_derives_iff
      _ ↔ (∀ l ∈ pieces, l.Reads) ∧ IsBody (pieces.map LocatedPiece.role) :=
        and_congr (forall_reads_stripPieces_iff pieces) hroles
  · intro links header program name last hclose
    exact derivesTail_chain hclose links header program

/-- A chain around a block, with a comment behind it. -/
def chainedText : String :=
  "\x7b\x7b#if a\x7d\x7dx{{else if b}}" ++
  "\x7b\x7b#each c\x7d\x7d{{d}}\x7b\x7b/each\x7d\x7d{{else}}y" ++
  "\x7b\x7b/if\x7d\x7d\x7b\x7b! z \x7d\x7d"

theorem chainedText_grammar :
    readPieces chainedText = ((readPieces chainedText).1, none) ∧
      (readPieces chainedText).1.length = 10 ∧
      IsBody ((readPieces chainedText).1.map LocatedPiece.role) ∧
      ∃ p, readProgram chainedText = .ok p ∧
        Derives (stripPieces (readPieces chainedText).1) p := by
  have hpieces : readPieces chainedText = ((readPieces chainedText).1, none) := by
    have hnone : (readPieces chainedText).2 = none := by decide +kernel
    exact Prod.ext rfl hnone
  obtain ⟨p, hread, -⟩ := exists_eq_ok (x := readProgram chainedText) (p := fun p => p.length == 1)
    (by decide +kernel)
  have hgrammar := readProgram_grammar hpieces
  exact ⟨hpieces, by decide +kernel, (hgrammar.1.mp ⟨p, hread⟩).2, p, hread,
    (hgrammar.2.1 p).mp hread⟩

end TypedTemplate
