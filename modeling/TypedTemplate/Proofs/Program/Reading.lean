import TypedTemplate.Program.Assembly
import TypedTemplate.Proofs.Outcome
import TypedTemplate.Proofs.Program.Occurrence
import TypedTemplate.Proofs.Program.Parts

/-!
# What a program that was read is like

Every expression of a program was read from tokens, and every statement from a tag. What holds of
all that tokens and tags read as therefore holds at every level of the program.

* `Expr.ofGroup_eq_ok`, `Expr.arguments_cons_eq_ok`: what a successful reading read.
* `readExpression_eq_ok`, `readHeader_eq_ok`: the same for the tags of statements.
* `Expr.forall_parts_of_ofGroup`: from one token to every part of an expression.
* **`readProgram_forall_of_parts`**, `readProgram_forall`: from one part, and from one tag, to every
  level of a program.
-/

namespace TypedTemplate

/-! ## Expressions -/

namespace Expr

/-- A word stands for a truth value, for null or for what is missing, or for no literal. -/
theorem wordLiteral?_eq_some {word : String} {v : Value} (h : wordLiteral? word = some v) :
    (∃ b, v = .bool b) ∨ v = .null ∨ v = .undefined := by
  unfold wordLiteral? at h
  by_cases htrue : word = "true"
  · simp only [htrue, if_true, Option.some.injEq] at h
    exact .inl ⟨true, h.symm⟩
  · rw [if_neg htrue] at h
    by_cases hfalse : word = "false"
    · simp only [hfalse, if_true, Option.some.injEq] at h
      exact .inl ⟨false, h.symm⟩
    · rw [if_neg hfalse] at h
      by_cases hnull : word = "null"
      · simp only [hnull, if_true, Option.some.injEq] at h
        exact .inr (.inl h.symm)
      · rw [if_neg hnull] at h
        by_cases hundefined : word = "undefined"
        · simp only [hundefined, if_true, Option.some.injEq] at h
          exact .inr (.inr h.symm)
        · simp [hundefined] at h

/-- A token reads as a literal, or as the path of its word. -/
theorem ofToken_eq_ok {t : Token} {e : Expr} (h : ofToken t = .ok e) :
    (∃ v, e = .literal t.span v) ∨ ∃ p, Path.read t.excerpt = .ok p ∧ e = .path p := by
  rw [ofToken] at h
  split at h
  · cases h
    exact .inl ⟨_, rfl⟩
  · split at h
    · cases h
      exact .inl ⟨_, rfl⟩
    · cases h
  · split at h
    · cases h
      exact .inl ⟨_, rfl⟩
    · obtain ⟨p, hp, rfl⟩ := map_eq_ok.mp h
      exact .inr ⟨p, hp, rfl⟩
  · cases h

/-- A group that reads as an expression is one token, or a call that is closed. -/
theorem ofGroup_eq_ok {g : Group} {e : Expr} (h : ofGroup g = .ok e) :
    (∃ t, g = .token t ∧ ofToken t = .ok e) ∨
      ∃ opening name rest closing params hash,
        g = .nested opening (.token name :: rest) closing ∧ name.kind = .word ∧
        arguments closing.position false rest = .ok (params, hash) ∧ closing.closed = true ∧
        e = .call opening.span name.text params hash := by
  cases g with
  | broken x => cases h
  | token t => exact .inl ⟨t, rfl, h⟩
  | nested opening groups closing =>
    match groups with
    | [] => cases h
    | .broken _ :: _ => cases h
    | .nested _ _ _ :: _ => cases h
    | .token name :: rest =>
      rw [ofGroup] at h
      split at h
      · cases h
      · next hword =>
        split at h
        · cases h
        · next params hash hargs =>
          split at h
          · next hclosed =>
            cases h
            exact .inr ⟨opening, name, rest, closing, params, hash, rfl, by simpa using hword,
              hargs, hclosed, rfl⟩
          · cases h

/-- A positional argument stands before every named one. -/
theorem positional_eq_ok {named : Bool} {fault : SyntaxError} {first : Except SyntaxError Expr}
    {further : Except SyntaxError (List Expr × HashArgs)} {params : List Expr} {hash : HashArgs}
    (h : (if named then .error fault
      else
        match first with
        | .error e => .error e
        | .ok value => further.map fun r => (value :: r.1, r.2)) = Except.ok (params, hash)) :
    ∃ value params', named = false ∧ first = .ok value ∧ further = .ok (params', hash) ∧
      params = value :: params' := by
  split at h
  · cases h
  · next hnamed =>
    split at h
    · cases h
    · next value =>
      obtain ⟨r, hr, heq⟩ := map_eq_ok.mp h
      cases heq
      exact ⟨value, r.1, by simpa using hnamed, rfl, hr, rfl⟩

/-- The first of several arguments is a positional one, or a name with the value behind it. -/
theorem arguments_cons_eq_ok {stop : Position} {named : Bool} {g : Group} {rest : List Group}
    {params : List Expr} {hash : HashArgs}
    (h : arguments stop named (g :: rest) = .ok (params, hash)) :
    (∃ value params', named = false ∧ ofGroup g = .ok value ∧
        arguments stop named rest = .ok (params', hash) ∧ params = value :: params') ∨
      ∃ t sign g' rest' value hash', g = .token t ∧ t.kind = .word ∧ sign.isSymbol '=' = true ∧
        rest = .token sign :: g' :: rest' ∧ ofGroup g' = .ok value ∧
        arguments stop true rest' = .ok (params, hash') ∧ hash = (t.text, value) :: hash' := by
  cases g with
  | broken x => cases h
  | nested opening groups closing =>
    rw [arguments] at h
    exact .inl (positional_eq_ok h)
  | token t =>
    rw [arguments.eq_def] at h
    simp only at h
    split at h
    · cases h
    · next sign rest' hkind =>
      split at h
      · next hsign =>
        split at h
        · cases h
        · next g' rest'' =>
          split at h
          · cases h
          · next value hvalue =>
            obtain ⟨r, hr, heq⟩ := map_eq_ok.mp h
            cases heq
            exact .inr ⟨t, sign, g', rest'', value, r.2, rfl, hkind, hsign, rfl, hvalue, hr, rfl⟩
      · exact .inl (positional_eq_ok h)
    · exact .inl (positional_eq_ok h)

end Expr

/-- **Induction over a group**, its parts being members of a list. -/
@[elab_as_elim]
theorem Group.induction {motive : Group → Prop} (token : ∀ t, motive (.token t))
    (nested : ∀ opening groups closing, (∀ g ∈ groups, motive g) →
      motive (.nested opening groups closing))
    (broken : ∀ e, motive (.broken e)) (g : Group) : motive g :=
  Group.rec (motive_1 := motive) (motive_2 := fun gs => ∀ g ∈ gs, motive g) token nested broken
    (fun _ h => absurd h List.not_mem_nil)
    (fun _ _ head tail _ h => (List.mem_cons.mp h).elim (fun heq => heq ▸ head) (tail _)) g

namespace Expr

variable {S : Expr → Prop}

/-- What holds in every expression read from the groups holds in every argument. A named argument
takes three groups, so the induction is on the number of groups that are left. -/
theorem forall_parts_of_arguments {stop : Position} {named : Bool} {gs : List Group}
    (hgs : ∀ g ∈ gs, ∀ e, ofGroup g = .ok e → ∀ x ∈ e.parts, S x) {params : List Expr}
    {hash : HashArgs} (h : arguments stop named gs = .ok (params, hash)) :
    (∀ e ∈ params, ∀ x ∈ e.parts, S x) ∧ ∀ e ∈ hash, ∀ x ∈ e.2.parts, S x := by
  induction hlen : gs.length using Nat.strongRecOn generalizing named gs params hash with
  | ind n ih =>
    subst hlen
    cases gs with
    | nil => cases h; simp
    | cons g rest =>
      rcases arguments_cons_eq_ok h with
        ⟨value, params', -, hvalue, hrest, rfl⟩ |
        ⟨t, sign, g', rest', value, hash', rfl, -, -, rfl, hvalue, hrest, rfl⟩
      · obtain ⟨hp, hh⟩ :=
          ih _ (by simp) (fun g hg => hgs g (List.mem_cons_of_mem _ hg)) hrest rfl
        refine ⟨fun e he => ?_, hh⟩
        rcases List.mem_cons.mp he with rfl | he
        · exact hgs g List.mem_cons_self e hvalue
        · exact hp e he
      · obtain ⟨hp, hh⟩ :=
          ih _ (by simp only [List.length_cons]; omega) (fun g hg => hgs g (by simp [hg])) hrest rfl
        refine ⟨hp, fun e he => ?_⟩
        rcases List.mem_cons.mp he with rfl | he
        · exact hgs g' (by simp) value hvalue
        · exact hh e he

/-- What holds of every token's expression and of every call holds in a whole expression. -/
theorem forall_parts_of_ofGroup (htoken : ∀ t e, ofToken t = .ok e → S e)
    (hcall : ∀ span name params hash, S (.call span name params hash)) (g : Group) :
    ∀ e, ofGroup g = .ok e → ∀ x ∈ e.parts, S x := by
  induction g using Group.induction with
  | broken => intro e h; cases h
  | token t =>
    intro e h x hx
    rcases ofToken_eq_ok h with ⟨v, rfl⟩ | ⟨p, -, rfl⟩
    · rw [parts, List.mem_singleton] at hx
      exact hx ▸ htoken t _ h
    · rw [parts, List.mem_singleton] at hx
      exact hx ▸ htoken t _ h
  | nested opening groups closing ih =>
    intro e h x hx
    rcases ofGroup_eq_ok h with ⟨t, hg, -⟩ | ⟨o, name, rest, c, params, hash, hg, -, hargs, -, rfl⟩
    · cases hg
    · cases hg
      obtain ⟨hp, hh⟩ :=
        forall_parts_of_arguments (fun g hg => ih g (List.mem_cons_of_mem _ hg)) hargs
      simp only [parts, partsIn_eq_flatMap, partsInNamed_eq_flatMap, List.mem_cons, List.mem_append,
        List.mem_flatMap] at hx
      rcases hx with rfl | ⟨e, he, hx⟩ | ⟨e, he, hx⟩
      · exact hcall _ _ _ _
      · exact hp e he x hx
      · exact hh e he x hx

end Expr

/-! ## Tags -/

/-- **A tag that reads as an expression** holds an expression and its arguments, which it has only
where it may name a helper. -/
theorem readExpression_eq_ok_iff {span : Span} {inner : Excerpt} {s : Statement} :
    readExpression span inner = .ok s ↔
      ∃ g rest head params hash, (readTokens inner).groups = g :: rest ∧
        startsWithName? (g :: rest) = none ∧ Expr.ofGroup g = .ok head ∧
        Expr.arguments (readTokens inner).stop false rest = .ok (params, hash) ∧
        (params ≠ [] ∨ hash ≠ [] → mayCall head = true) ∧
        s = .expression span head params hash := by
  have hplain {params : List Expr} {hash : HashArgs} {head : Expr} :
      ((!params.isEmpty || !hash.isEmpty) && !mayCall head) = false ↔
        (params ≠ [] ∨ hash ≠ [] → mayCall head = true) := by
    cases params <;> cases hash <;> simp
  rw [readExpression]
  constructor
  · intro h
    split at h
    · cases h
    · next g rest hgroups =>
      split at h
      · cases h
      · next hname =>
        split at h
        · cases h
        · next head hhead =>
          split at h
          · cases h
          · next params hash hargs =>
            split at h
            · cases h
            · next hcall =>
              cases h
              rw [Bool.not_eq_true] at hcall
              exact ⟨g, rest, head, params, hash, hgroups, hname, hhead, hargs, hplain.mp hcall,
                rfl⟩
  · rintro ⟨g, rest, head, params, hash, hgroups, hname, hhead, hargs, hcall, rfl⟩
    simp only [hgroups, hname, hhead, hargs, hplain.mpr hcall, Bool.false_eq_true, if_false]

/-- What is in a tag that reads as an expression. -/
theorem readExpression_eq_ok {span : Span} {inner : Excerpt} {s : Statement}
    (h : readExpression span inner = .ok s) :
    ∃ g rest head params hash, (readTokens inner).groups = g :: rest ∧
      Expr.ofGroup g = .ok head ∧
      Expr.arguments (readTokens inner).stop false rest = .ok (params, hash) ∧
      (params ≠ [] ∨ hash ≠ [] → mayCall head = true) ∧ s = .expression span head params hash := by
  obtain ⟨g, rest, head, params, hash, hgroups, -, hhead, hargs, hcall, hs⟩ :=
    readExpression_eq_ok_iff.mp h
  exact ⟨g, rest, head, params, hash, hgroups, hhead, hargs, hcall, hs⟩

/-- What is in a tag that reads as the header of a block: a name and its arguments, one and
without a name for every kind that calls no helper. -/
theorem readHeader_eq_ok {span : Span} {text : Excerpt} {h : Header}
    (hread : readHeader span text = .ok h) :
    ∃ name rest params hash, (readTokens text).groups = .token name :: rest ∧ name.kind = .word ∧
      Expr.arguments (readTokens text).stop false rest = .ok (params, hash) ∧
      h = ⟨span, .ofName name.text, params, hash⟩ ∧
      (h.kind.isCustom = false → params.length = 1 ∧ hash = []) := by
  rw [readHeader] at hread
  split at hread
  · cases hread
  · cases hread
  · cases hread
  · next name rest hgroups =>
    split at hread
    · cases hread
    · next hword =>
      split at hread
      · cases hread
      · next params hash hargs =>
        simp only at hread
        split at hread
        · cases hread
        · next hone =>
          cases hread
          refine ⟨name, rest, params, hash, hgroups, by simpa using hword, hargs, rfl, fun hk => ?_⟩
          simpa [hk] using hone

/-! ## Programs -/

/-- Something holds of the statements of a program at every level. -/
def Program.Everywhere (S : Statement → Prop) (p : Program) : Prop := ∀ s ∈ p.statements, S s

section Assembly

variable {S : Statement → Prop}

theorem Program.everywhere_iff {p : Program} :
    p.Everywhere S ↔ ∀ s ∈ p, ∀ t ∈ s.nested, S t := by
  simp only [Everywhere, statements, List.mem_flatMap]
  exact ⟨fun h s hs t ht => h t ⟨s, hs, ht⟩, fun h t ⟨s, hs, ht⟩ => h s hs t ht⟩

theorem Program.Everywhere.of_mem {p : Program} (h : p.Everywhere S) : ∀ s ∈ p, S s :=
  fun s hs => everywhere_iff.mp h s hs s s.self_mem_nested

theorem Program.everywhere_nil : Program.Everywhere S [] := fun _ h => absurd h List.not_mem_nil

theorem Program.everywhere_cons {s : Statement} {p : Program} :
    Program.Everywhere S (s :: p) ↔ (∀ t ∈ s.nested, S t) ∧ p.Everywhere S := by
  simp [everywhere_iff]

theorem Program.everywhere_reverse {p : Program} :
    Program.Everywhere S p.reverse ↔ p.Everywhere S := by
  simp [everywhere_iff]

theorem Statement.forall_nested_block {span : Span} {kind : BlockKind} {params : List Expr}
    {hash : List (String × Expr)} {program : Program} {inverse : Option Program} :
    (∀ t ∈ (Statement.block span kind params hash program inverse).nested, S t) ↔
      S (.block span kind params hash program inverse) ∧ program.Everywhere S ∧
        ∀ body, inverse = some body → Program.Everywhere S body := by
  rw [nested_block, List.forall_mem_cons, List.forall_mem_append]
  cases inverse with
  | none => simp [Program.Everywhere, Program.statements]
  | some body => simp [Program.Everywhere]

/-- A header that makes a statement of which something holds, whatever the bodies. -/
def Header.Makes (S : Statement → Prop) (h : Header) : Prop :=
  ∀ program inverse, S (h.block program inverse)

/-- Something holds at every level of an open block. -/
structure OpenBlock.Everywhere (S : Statement → Prop) (b : OpenBlock) : Prop where
  before : Program.Everywhere S b.before
  earlier : ∀ link ∈ b.earlier, link.1.Makes S ∧ link.2.Everywhere S
  header : b.header.Makes S
  main : ∀ body, b.main = some body → Program.Everywhere S body

/-- A block that is closed keeps what holds in it: every header of its chain takes the block behind
it as its alternative. -/
theorem OpenBlock.Everywhere.close {b : OpenBlock} (hb : b.Everywhere S) {body : Program}
    (hbody : body.Everywhere S) : ∀ t ∈ (b.close body).nested, S t := by
  have chain : ∀ (links : List (Header × Program)) (inner : Statement),
      (∀ link ∈ links, link.1.Makes S ∧ link.2.Everywhere S) → (∀ t ∈ inner.nested, S t) →
      ∀ t ∈ (links.foldl (fun inner link => link.1.block link.2 (some [inner])) inner).nested,
        S t := by
    intro links
    induction links with
    | nil => exact fun inner _ h => h
    | cons link links ih =>
      intro inner hlinks hinner
      obtain ⟨hmakes, hprogram⟩ := hlinks link List.mem_cons_self
      refine ih _ (fun l hl => hlinks l (List.mem_cons_of_mem _ hl)) ?_
      refine Statement.forall_nested_block.mpr ⟨hmakes _ _, hprogram, fun body heq => ?_⟩
      cases heq
      exact Program.everywhere_cons.mpr ⟨hinner, Program.everywhere_nil⟩
  refine chain b.earlier _ hb.earlier ?_
  cases hmain : b.main with
  | none =>
    refine Statement.forall_nested_block.mpr ⟨hb.header _ _, hbody, fun _ heq => ?_⟩
    cases heq
  | some main =>
    refine Statement.forall_nested_block.mpr
      ⟨hb.header _ _, hb.main main hmain, fun _ heq => ?_⟩
    cases heq
    exact hbody

/-- Something holds at every level of a program under way. -/
structure Assembly.Everywhere (S : Statement → Prop) (a : Assembly) : Prop where
  body : Program.Everywhere S a.body
  blocks : ∀ b ∈ a.blocks, b.Everywhere S

/-- What is read from a part has the property in question. -/
def Part.ReadsAs (S : Statement → Prop) : Part → Prop
  | .content span text => S (.content span (String.ofList text))
  | .tag span inside =>
    match Directive.ofTag inside with
    | .leaf inner => ∀ s, readExpression span inner = .ok s → S s
    | .opens text => ∀ h, readHeader span text = .ok h → h.Makes S
    | .otherwiseIf text => ∀ h, readHeader text.span text = .ok h → h.Makes S
    | _ => True

/-- Text that is not empty, expressions and headers that are read have the property in question. -/
structure ReadsAs (S : Statement → Prop) : Prop where
  content : ∀ span text, text ≠ "" → S (.content span text)
  expression : ∀ span inner s, readExpression span inner = .ok s → S s
  header : ∀ span text h, readHeader span text = .ok h → h.Makes S

/-- What all that is read has in common, every part of a template reads as. -/
theorem ReadsAs.of_mem_stripPieces (hS : ReadsAs S) (pieces : List LocatedPiece) :
    ∀ part ∈ stripPieces pieces, part.ReadsAs S := by
  refine forall_mem_stripPieces ?_ ?_
  · intro l _ text hne
    exact hS.content l.span _ (by simpa using hne)
  · intro l _ strip braces inner _
    unfold Part.ReadsAs
    simp only
    split
    · exact hS.expression _ _
    · exact hS.header _ _
    · exact hS.header _ _
    · trivial

theorem Assembly.Everywhere.push {a : Assembly} (ha : a.Everywhere S) {s : Statement}
    (hs : ∀ t ∈ s.nested, S t) : (a.push s).Everywhere S :=
  ⟨Program.everywhere_cons.mpr ⟨hs, ha.body⟩, ha.blocks⟩

theorem Assembly.Everywhere.openBlock {a : Assembly} (ha : a.Everywhere S) {h : Header}
    (hh : h.Makes S) : (a.openBlock h).Everywhere S := by
  refine ⟨Program.everywhere_nil, fun b hb => ?_⟩
  rcases List.mem_cons.mp hb with rfl | hb
  · exact ⟨ha.body, fun _ hl => absurd hl List.not_mem_nil, hh, fun _ h => by cases h⟩
  · exact ha.blocks b hb

/-- One tag keeps what holds at every level. -/
theorem Assembly.Everywhere.stepTag {a a' : Assembly} (ha : a.Everywhere S) {span : Span}
    {inside : Excerpt} (hpart : (Part.tag span inside).ReadsAs S)
    (h : a.stepTag span inside = .ok a') : a'.Everywhere S := by
  have hbody : Program.Everywhere S a.body.reverse := Program.everywhere_reverse.mpr ha.body
  unfold Part.ReadsAs at hpart
  unfold Assembly.stepTag at h
  split at h
  · cases h
  · next inner hinner =>
    simp only [hinner] at hpart
    obtain ⟨s, hs, rfl⟩ := map_eq_ok.mp h
    refine ha.push fun t ht => ?_
    obtain ⟨-, -, head, params, hash, -, -, -, -, rfl⟩ := readExpression_eq_ok hs
    rw [Statement.nested, List.mem_singleton] at ht
    exact ht ▸ hpart _ hs
  · next text htext =>
    simp only [htext] at hpart
    obtain ⟨header, hheader, rfl⟩ := map_eq_ok.mp h
    exact ha.openBlock (hpart _ hheader)
  · split at h
    · cases h
    · next b outer hblocks =>
      have hb := ha.blocks b (hblocks ▸ List.mem_cons_self)
      split at h
      · cases h
      · cases h
        refine ⟨Program.everywhere_nil, List.forall_mem_cons.mpr ⟨⟨hb.before, hb.earlier, hb.header,
          fun _ heq => Option.some.inj heq ▸ hbody⟩, fun c hc => ?_⟩⟩
        exact ha.blocks c (hblocks ▸ List.mem_cons_of_mem _ hc)
  · next text htext =>
    simp only [htext] at hpart
    split at h
    · cases h
    · next b outer hblocks =>
      have hb := ha.blocks b (hblocks ▸ List.mem_cons_self)
      split at h
      · cases h
      · next hmain =>
        obtain ⟨header, hheader, rfl⟩ := map_eq_ok.mp h
        refine ⟨Program.everywhere_nil, List.forall_mem_cons.mpr ⟨⟨hb.before,
          List.forall_mem_cons.mpr ⟨⟨hb.header, hbody⟩, hb.earlier⟩, hpart _ hheader,
          hb.main⟩, fun c hc => ?_⟩⟩
        exact ha.blocks c (hblocks ▸ List.mem_cons_of_mem _ hc)
  · split at h
    · cases h
    · next b outer hblocks =>
      have hb := ha.blocks b (hblocks ▸ List.mem_cons_self)
      split at h
      · cases h
        refine ⟨Program.everywhere_cons.mpr ⟨hb.close hbody, hb.before⟩, fun c hc => ?_⟩
        exact ha.blocks c (hblocks ▸ List.mem_cons_of_mem _ hc)
      · cases h

/-- One part keeps what holds at every level. -/
theorem Assembly.Everywhere.step {a a' : Assembly} (ha : a.Everywhere S) {part : Part}
    (hpart : part.ReadsAs S) (h : a.step part = .ok a') : a'.Everywhere S := by
  cases part with
  | content span text =>
    cases h
    refine ha.push fun t ht => ?_
    rw [Statement.nested, List.mem_singleton] at ht
    exact ht ▸ hpart
  | tag span inner => exact ha.stepTag hpart h

theorem Assembly.everywhere_start : Assembly.start.Everywhere S :=
  ⟨Program.everywhere_nil, fun _ hb => absurd hb List.not_mem_nil⟩

/-- **From one part to every level.** What every part of a template reads as holds of every
statement of its program. -/
theorem readProgram_forall_of_parts {text : String} {p : Program}
    (hparts : ∀ part ∈ stripPieces (readPieces text).1, part.ReadsAs S)
    (h : readProgram text = .ok p) : p.Everywhere S := by
  unfold readProgram at h
  split at h
  · cases h
  · next pieces hpieces =>
    rw [hpieces] at hparts
    split at h
    · cases h
    · next a hrun =>
      have hends : EndsIn (Assembly.Everywhere S) (fun _ => True)
          (Assembly.start.run (stripPieces pieces)) :=
        EndsIn.foldlM (fun part hpart b hb =>
          .intro (fun _ hstep => hb.step (hparts part hpart) hstep) fun _ _ => trivial)
          Assembly.everywhere_start
      have ha := hends.of_ok hrun
      unfold Assembly.finish at h
      split at h
      · cases h
        exact Program.everywhere_reverse.mpr ha.body
      · cases h

/-- **From one tag to every level.** What holds of all texts, expressions and headers that are read
holds of every statement of a program that was read. -/
theorem readProgram_forall (hS : ReadsAs S) {text : String} {p : Program}
    (h : readProgram text = .ok p) : p.Everywhere S :=
  readProgram_forall_of_parts (hS.of_mem_stripPieces _) h

end Assembly

end TypedTemplate
