import TypedTemplate.Proofs.Program.Grammar

/-!
# Programs as derivations

The statements of a program nest as the grammar of blocks derives its parts: a block holds the
program of its first body, and a link of a chain is the only statement of the alternative of the
link in front of it. The reader works with a stack of open blocks instead. This file shows that the
two agree, on every template.

* `Derives`, `DerivesTail`: a program derived from parts.
* `TagStep`: what a tag can do to a program under way.
* **`Derives.run`**: what is derived is read, in any state.
* `Completes`: how the parts that are left complete a program under way.
* **`completes_of_run`**: what is read from any state completes it.
* **`readProgram_eq_ok_iff`**: the program of a template is the one that derives from its parts.
-/

namespace TypedTemplate

/-! ## Derivations -/

/-- What a part is to the block structure. -/
def Part.role : Part → Role
  | .content _ _ => .filler
  | .tag _ inside => Role.ofInside inside

/-- The closing tag of a block of a given name. -/
def Part.IsClose (name : String) (part : Part) : Prop :=
  ∃ span inside, part = .tag span inside ∧ Role.ofInside inside = .close name

mutual

/-- **A program derived from parts**: text as it is, the statement of each leaf, and a block for
each tag that opens one. -/
inductive Derives : List Part → Program → Prop where
  | nil : Derives [] []
  | content {span : Span} {text : List Char} {rest : List Part} {p : Program}
    (more : Derives rest p) :
    Derives (.content span text :: rest) (.content span (String.ofList text) :: p)
  | leaf {span : Span} {inside : Excerpt} {s : Statement} {rest : List Part} {p : Program}
    (role : Role.ofInside inside = .leaf) (reads : LeafReads span inside s)
    (more : Derives rest p) : Derives (.tag span inside :: rest) (s :: p)
  | block {span : Span} {inside text : Excerpt} {header : Header} {body tail rest : List Part}
    {program p : Program} {s : Statement} (role : Role.ofInside inside = .opens text)
    (allowed : MayOpen text) (reads : readHeader span text = .ok header)
    (inner : Derives body program) (ends : DerivesTail header.kind.name header program tail s)
    (more : Derives rest p) : Derives (.tag span inside :: (body ++ tail ++ rest)) (s :: p)

/-- **The statement of a block** whose header and first program are behind, derived from what ends
it. The name is the one that the closing tag has to carry. -/
inductive DerivesTail : String → Header → Program → List Part → Statement → Prop where
  | close {name : String} {header : Header} {program : Program} {last : Part}
    (closes : last.IsClose name) :
    DerivesTail name header program [last] (header.block program none)
  | otherwise {name : String} {header : Header} {program inverse : Program} {span : Span}
    {inside : Excerpt} {body : List Part} {last : Part}
    (role : Role.ofInside inside = .otherwise) (inner : Derives body inverse)
    (closes : last.IsClose name) :
    DerivesTail name header program (.tag span inside :: (body ++ [last]))
      (header.block program (some inverse))
  | chain {name : String} {header next : Header} {program further : Program} {span : Span}
    {inside text : Excerpt} {body tail : List Part} {s : Statement}
    (role : Role.ofInside inside = .chain text) (reads : readHeader text.span text = .ok next)
    (inner : Derives body further) (ends : DerivesTail name next further tail s) :
    DerivesTail name header program (.tag span inside :: (body ++ tail))
      (header.block program (some [s]))

end

/-! ## One tag -/

/-- **What a tag can do** to a program under way, by its role. -/
inductive TagStep (span : Span) (inside : Excerpt) : Assembly → Assembly → Prop where
  | leaf {a : Assembly} {s : Statement} (role : Role.ofInside inside = .leaf)
    (reads : LeafReads span inside s) : TagStep span inside a (a.push s)
  | opens {a : Assembly} {text : Excerpt} {header : Header}
    (role : Role.ofInside inside = .opens text) (allowed : MayOpen text)
    (reads : readHeader span text = .ok header) : TagStep span inside a (a.openBlock header)
  | otherwise {body : List Statement} {b : OpenBlock} {outer : List OpenBlock}
    (role : Role.ofInside inside = .otherwise) (first : b.main = none) :
    TagStep span inside ⟨body, b :: outer⟩ ⟨[], { b with main := some body.reverse } :: outer⟩
  | chain {body : List Statement} {b : OpenBlock} {outer : List OpenBlock} {text : Excerpt}
    {header : Header} (role : Role.ofInside inside = .chain text) (first : b.main = none)
    (reads : readHeader text.span text = .ok header) :
    TagStep span inside ⟨body, b :: outer⟩
      ⟨[], { b with earlier := (b.header, body.reverse) :: b.earlier, header } :: outer⟩
  | close {body : List Statement} {b : OpenBlock} {outer : List OpenBlock}
    (role : Role.ofInside inside = .close b.name) :
    TagStep span inside ⟨body, b :: outer⟩ ⟨b.close body.reverse :: b.before, outer⟩

/-- A tag that is taken does what its role says. -/
theorem tagStep_of_stepTag {a a' : Assembly} {span : Span} {inside : Excerpt}
    (h : a.stepTag span inside = .ok a') : TagStep span inside a a' := by
  have hanswers := answers_ofTag inside
  obtain ⟨body, blocks⟩ := a
  unfold Assembly.stepTag at h
  generalize hrole : Role.ofInside inside = role at hanswers
  generalize Directive.ofTag inside = directive at hanswers h
  cases hanswers with
  | leaf hinner =>
    obtain ⟨s, hs, rfl⟩ := map_eq_ok.mp h
    exact .leaf hrole ⟨_, hinner, hs⟩
  | refusedLeaf => cases h
  | refusedBlock => cases h
  | opens hallowed =>
    obtain ⟨header, hheader, rfl⟩ := map_eq_ok.mp h
    exact .opens hrole hallowed hheader
  | otherwise =>
    cases blocks with
    | nil => cases h
    | cons b outer =>
      cases hmain : b.main with
      | some main => simp [hmain] at h
      | none =>
        simp only [hmain, Except.ok.injEq] at h
        subst h
        exact .otherwise hrole hmain
  | chain text =>
    cases blocks with
    | nil => cases h
    | cons b outer =>
      cases hmain : b.main with
      | some main => simp [hmain] at h
      | none =>
        simp only [hmain] at h
        obtain ⟨header, hheader, rfl⟩ := map_eq_ok.mp h
        have hstep := @TagStep.chain span inside body b outer text header hrole hmain hheader
        rwa [hmain] at hstep
  | close name =>
    cases blocks with
    | nil => cases h
    | cons b outer =>
      by_cases hname : name = b.name
      · subst hname
        simp only [↓reduceIte, Except.ok.injEq] at h
        subst h
        exact .close hrole
      · simp [hname] at h

/-- A tag that can do what its role says is taken. -/
theorem TagStep.stepTag {a a' : Assembly} {span : Span} {inside : Excerpt}
    (h : TagStep span inside a a') : a.stepTag span inside = .ok a' := by
  have hanswers := answers_ofTag inside
  unfold Assembly.stepTag
  generalize Directive.ofTag inside = directive at hanswers
  cases h with
  | leaf hrole hreads =>
    rw [hrole] at hanswers
    obtain ⟨inner, hinner, hs⟩ := hreads
    cases hanswers with
    | leaf hinner' =>
      obtain rfl := Option.some.inj (hinner.symm.trans hinner')
      simp only [hs, Except.map]
    | refusedLeaf hnone => rw [hinner] at hnone; cases hnone
  | opens hrole hallowed hreads =>
    rw [hrole] at hanswers
    cases hanswers with
    | opens => simp only [hreads, Except.map]
    | refusedBlock hrefused => exact absurd hallowed hrefused
  | otherwise hrole hmain =>
    rw [hrole] at hanswers
    cases hanswers
    simp only [hmain]
  | chain hrole hmain hreads =>
    rw [hrole] at hanswers
    cases hanswers
    simp only [hmain, hreads, Except.map]
  | close hrole =>
    rw [hrole] at hanswers
    cases hanswers
    simp only [↓reduceIte]

/-! ## What is derived is read -/

/-- The statement of a chain whose last link is complete: each earlier header takes what follows it
as its alternative. -/
def wrapChain (earlier : List (Header × Program)) (s : Statement) : Statement :=
  earlier.foldl (fun inner link => link.1.block link.2 (some [inner])) s

theorem OpenBlock.close_eq (b : OpenBlock) (body : Program) :
    b.close body = wrapChain b.earlier
      (match b.main with
      | none => b.header.block body none
      | some main => b.header.block main (some body)) := rfl

namespace Assembly

theorem run_cons {a a' : Assembly} {part : Part} {parts : List Part} (h : a.step part = .ok a') :
    a.run (part :: parts) = a'.run parts := by
  unfold run
  rw [List.foldlM_cons, h]
  rfl

theorem run_tag {a a' : Assembly} {span : Span} {inside : Excerpt} {parts : List Part}
    (h : TagStep span inside a a') : a.run (.tag span inside :: parts) = a'.run parts :=
  run_cons h.stepTag

end Assembly

/-- **What is derived is read**: the parts of a body add its program to the body under way, and
what ends a block closes it. -/
theorem Derives.run {parts : List Part} {p : Program} (h : Derives parts p)
    (body : List Statement) (blocks : List OpenBlock) (more : List Part) :
    Assembly.run ⟨body, blocks⟩ (parts ++ more) =
      Assembly.run ⟨p.reverse ++ body, blocks⟩ more := by
  induction h using Derives.rec
    (motive_2 := fun name header program tail s _ => ∀ before earlier blocks more,
      Assembly.run ⟨program.reverse, ⟨before, name, earlier, header, none⟩ :: blocks⟩
        (tail ++ more) = Assembly.run ⟨wrapChain earlier s :: before, blocks⟩ more)
    generalizing body blocks more with
  | nil => rfl
  | @content span text rest p _ ih =>
    have hstep : Assembly.step ⟨body, blocks⟩ (.content span text) =
        .ok ⟨.content span (String.ofList text) :: body, blocks⟩ := rfl
    rw [List.cons_append, Assembly.run_cons hstep, ih]
    simp
  | @leaf span inside s rest p hrole hreads _ ih =>
    have hstep : TagStep span inside ⟨body, blocks⟩ ⟨s :: body, blocks⟩ := .leaf hrole hreads
    rw [List.cons_append, Assembly.run_tag hstep, ih]
    simp
  | @block span inside text header inner tail rest program p s hrole hallowed hreads _ _ _ ihInner
      ihEnds ihMore =>
    have hstep : TagStep span inside ⟨body, blocks⟩
        ⟨[], ⟨body, header.kind.name, [], header, none⟩ :: blocks⟩ :=
      .opens hrole hallowed hreads
    have hsplit : Part.tag span inside :: (inner ++ tail ++ rest) ++ more =
        .tag span inside :: (inner ++ (tail ++ (rest ++ more))) := by simp
    rw [hsplit, Assembly.run_tag hstep, ihInner, List.append_nil, ihEnds, ihMore]
    simp [wrapChain]
  | @close name header program last hcloses before earlier blocks more =>
    obtain ⟨span, inside, rfl, hrole⟩ := hcloses
    have hstep : TagStep span inside
        ⟨program.reverse, ⟨before, name, earlier, header, none⟩ :: blocks⟩ _ := .close hrole
    rw [List.singleton_append, Assembly.run_tag hstep, OpenBlock.close_eq, List.reverse_reverse]
  | @otherwise name header program inverse span inside inner last hrole _ hcloses ihInner before
      earlier blocks more =>
    obtain ⟨span', inside', rfl, hrole'⟩ := hcloses
    have hstep : TagStep span inside
        ⟨program.reverse, ⟨before, name, earlier, header, none⟩ :: blocks⟩ _ :=
      .otherwise hrole rfl
    have hclose : TagStep span' inside' ⟨inverse.reverse,
        ⟨before, name, earlier, header, some program⟩ :: blocks⟩ _ := .close hrole'
    have hsplit : Part.tag span inside :: (inner ++ [.tag span' inside']) ++ more =
        .tag span inside :: (inner ++ (.tag span' inside' :: more)) := by simp
    rw [hsplit, Assembly.run_tag hstep, List.reverse_reverse, ihInner, List.append_nil,
      Assembly.run_tag hclose, OpenBlock.close_eq, List.reverse_reverse]
  | @chain name header next program further span inside text inner tail s hrole hreads _ _ ihInner
      ihEnds before earlier blocks more =>
    have hstep : TagStep span inside
        ⟨program.reverse, ⟨before, name, earlier, header, none⟩ :: blocks⟩ _ :=
      .chain hrole rfl hreads
    have hsplit : Part.tag span inside :: (inner ++ tail) ++ more =
        .tag span inside :: (inner ++ (tail ++ more)) := by simp
    rw [hsplit, Assembly.run_tag hstep, List.reverse_reverse, ihInner, List.append_nil, ihEnds]
    rfl

/-! ## What is read is derived -/

/-- What ends an open block behind its current body, and the statement it comes to. -/
def OpenBlock.Ends (b : OpenBlock) (body : Program) (parts : List Part) (s : Statement) : Prop :=
  match b.main with
  | none => DerivesTail b.name b.header body parts s
  | some main => ∃ last, Part.IsClose b.name last ∧ parts = [last] ∧
    s = b.header.block main (some body)

/-- **The parts that are left complete a program under way**: they complete the current body, end
the innermost open block, and go on behind it with the block around. -/
def Completes (body : List Statement) : List OpenBlock → List Part → Program → Prop
  | [], parts, p => ∃ q, Derives parts q ∧ p = body.reverse ++ q
  | b :: outer, parts, p => ∃ inner tail rest q s, parts = inner ++ tail ++ rest ∧
    Derives inner q ∧ b.Ends (body.reverse ++ q) tail s ∧
    Completes (wrapChain b.earlier s :: b.before) outer rest p

/-- Parts that derive one statement, in front of parts that complete the program with it. -/
theorem Completes.cons {body : List Statement} {blocks : List OpenBlock} {front parts : List Part}
    {s : Statement} {p : Program}
    (hfront : ∀ rest q, Derives rest q → Derives (front ++ rest) (s :: q))
    (h : Completes (s :: body) blocks parts p) : Completes body blocks (front ++ parts) p := by
  cases blocks with
  | nil =>
    obtain ⟨q, hq, rfl⟩ := h
    exact ⟨s :: q, hfront _ _ hq, by simp⟩
  | cons b outer =>
    obtain ⟨inner, tail, rest, q, t, rfl, hinner, hends, hrest⟩ := h
    refine ⟨front ++ inner, tail, rest, s :: q, t, by simp, hfront _ _ hinner, ?_, hrest⟩
    simpa using hends

/-- One step back: what completes the program behind a tag completes it with the tag in front. -/
theorem TagStep.completes {a a' : Assembly} {span : Span} {inside : Excerpt} {parts : List Part}
    {p : Program} (hstep : TagStep span inside a a') (h : Completes a'.body a'.blocks parts p) :
    Completes a.body a.blocks (.tag span inside :: parts) p := by
  cases hstep with
  | leaf hrole hreads =>
    refine @Completes.cons _ _ [.tag span inside] _ _ _ ?_ h
    intro rest q hrest
    exact .leaf hrole hreads hrest
  | @opens a text header hrole hallowed hreads =>
    obtain ⟨inner, tail, rest, q, s, rfl, hinner, hends, hrest⟩ := h
    refine @Completes.cons _ _ (.tag span inside :: (inner ++ tail)) _ _ _ ?_ hrest
    intro more r hmore
    exact .block hrole hallowed hreads hinner hends hmore
  | @otherwise body b outer hrole hmain =>
    obtain ⟨inner, tail, rest, q, s, rfl, hinner, hends, hrest⟩ := h
    obtain ⟨last, hclose, rfl, rfl⟩ := hends
    refine ⟨[], .tag span inside :: (inner ++ [last]), rest, [], _, by simp, .nil, ?_, hrest⟩
    unfold OpenBlock.Ends
    rw [hmain]
    have htail : DerivesTail b.name b.header body.reverse
        (.tag span inside :: (inner ++ [last])) _ := .otherwise hrole hinner hclose
    simpa using htail
  | @chain body b outer text header hrole hmain hreads =>
    obtain ⟨inner, tail, rest, q, s, rfl, hinner, hends, hrest⟩ := h
    unfold OpenBlock.Ends at hends
    simp only [hmain, List.reverse_nil, List.nil_append] at hends
    refine ⟨[], .tag span inside :: (inner ++ tail), rest, [], _, by simp, .nil, ?_, hrest⟩
    unfold OpenBlock.Ends
    rw [hmain]
    have htail : DerivesTail b.name b.header body.reverse
        (.tag span inside :: (inner ++ tail)) _ := .chain hrole hreads hinner hends
    simpa using htail
  | @close body b outer hrole =>
    refine ⟨[], [.tag span inside], parts, [], _, by simp, .nil, ?_, h⟩
    unfold OpenBlock.Ends
    cases hmain : b.main with
    | none =>
      have hclose : Part.IsClose b.name (.tag span inside) := ⟨span, inside, rfl, hrole⟩
      have htail : DerivesTail b.name b.header body.reverse _ _ := .close hclose
      simpa [hmain] using htail
    | some main => exact ⟨_, ⟨span, inside, rfl, hrole⟩, rfl, by simp⟩

/-- **What is read is derived**: from any state that a run starts in, its parts complete the program
it comes to. -/
theorem completes_of_run {parts : List Part} {a a' : Assembly} {p : Program}
    (hrun : a.run parts = .ok a') (hfinish : a'.finish = .ok p) :
    Completes a.body a.blocks parts p := by
  induction parts generalizing a with
  | nil =>
    obtain rfl : a = a' := Except.ok.inj hrun
    obtain ⟨body, blocks⟩ := a
    cases blocks with
    | nil =>
      obtain rfl : body.reverse = p := Except.ok.inj hfinish
      exact ⟨[], .nil, by simp⟩
    | cons b outer => cases hfinish
  | cons part parts ih =>
    cases hstep : a.step part with
    | error e =>
      unfold Assembly.run at hrun
      rw [List.foldlM_cons, hstep] at hrun
      cases hrun
    | ok next =>
      rw [Assembly.run_cons hstep] at hrun
      have hnext := ih hrun
      cases part with
      | content span text =>
        obtain rfl : a.push (.content span (String.ofList text)) = next := Except.ok.inj hstep
        refine @Completes.cons _ _ [.content span text] _ _ _ ?_ hnext
        intro rest q hrest
        exact .content hrest
      | tag span inside => exact (tagStep_of_stepTag hstep).completes hnext

/-- A template that has a program is cut into pieces without a fault. -/
theorem readPieces_of_readProgram {text : String} {p : Program} (h : readProgram text = .ok p) :
    readPieces text = ((readPieces text).1, none) := by
  unfold readProgram at h
  split at h
  · cases h
  · next hpieces => rw [hpieces]

/-- **The program of a template is derived from its parts**, and what is derived from them is the
program. -/
theorem readProgram_eq_ok_iff {text : String} {pieces : List LocatedPiece}
    (h : readPieces text = (pieces, none)) {p : Program} :
    readProgram text = .ok p ↔ Derives (stripPieces pieces) p := by
  unfold readProgram
  rw [h]
  simp only
  constructor
  · intro hread
    cases hrun : Assembly.start.run (stripPieces pieces) with
    | error e => simp [hrun] at hread
    | ok a =>
      simp only [hrun] at hread
      obtain ⟨q, hq, rfl⟩ := completes_of_run hrun hread
      exact hq
  · intro hderives
    have hrun := hderives.run [] [] []
    rw [List.append_nil, List.append_nil] at hrun
    have hstart : Assembly.start.run (stripPieces pieces) = .ok ⟨p.reverse, []⟩ := hrun
    rw [hstart]
    simp [Assembly.finish]

end TypedTemplate
