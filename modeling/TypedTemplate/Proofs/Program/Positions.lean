import TypedTemplate.Proofs.Program.Reading
import TypedTemplate.Proofs.Source.Tokens

/-!
# Positions in a program

Spans are cut again and again on the way from the text to a program: the inside of a tag, what is
left of it behind blanks and marks, the header of a chain, tokens, and what is read from them. All
of them stay true to the text, and so does the place that a fault is blamed on.

* `Tokens.TrueIn`, `Expr.TrueIn`, `Statement.TrueIn`: true tokens, expressions and statements.
* `endsIn_ofGroup`, `endsIn_readExpression`, `endsIn_readHeader`: reading what stands in a text ends
  with true spans or with a true fault.
* `standsIn_of_mem_readPieces`: the pieces of a text stand in it, also those in front of a fault.
* **`positions_trueIn`**: every span and every fault of a template is true.
-/

namespace TypedTemplate

/-! ## True spans -/

/-- The tokens of a tag are true, and so is the place where they end. -/
structure Tokens.TrueIn (text : String) (ts : Tokens) : Prop where
  tokens : ∀ t ∈ ts.tokens, t.TrueIn text
  stop : (Excerpt.mk ts.stop []).span.TrueIn text
  fault : ∀ e, ts.fault = some e → e.TrueIn text

theorem Tokens.StandsIn.trueIn {text : String} {ts : Tokens} (h : ts.StandsIn text) :
    ts.TrueIn text where
  tokens t ht := (h.tokens t ht).trueIn
  stop := by
    have hle : ts.stop.offset ≤ text.utf8ByteSize := h.stop.valid.le_utf8ByteSize
    exact ⟨⟨Nat.le_refl _, hle, h.stop.valid, h.stop.valid⟩, h.stop⟩
  fault := h.fault

/-- The span of an expression is true, or that of a string inside its quotes. -/
def Expr.TrueAt (text : String) : Expr → Prop
  | .literal s (.string _) => s.QuotedIn text
  | e => e.span.TrueIn text

/-- **A true expression**: its span is, and that of every expression inside it. -/
def Expr.TrueIn (text : String) (e : Expr) : Prop := ∀ x ∈ e.parts, x.TrueAt text

/-- **A true statement**: its span is, and so are the expressions in its tag. -/
structure Statement.TrueIn (text : String) (s : Statement) : Prop where
  span : s.span.TrueIn text
  exprs : ∀ e ∈ s.exprs, e.TrueIn text

section Reading

variable {text : String}

/-! ## Expressions -/

/-- Reading ends with what is true of the text, or with a true fault. -/
abbrev EndsTruly {α : Type} (text : String) (good : α → Prop) (x : Except SyntaxError α) : Prop :=
  EndsIn good (SyntaxError.TrueIn text) x

theorem Expr.trueAt_literal {s : Span} {v : Value} (hspan : s.TrueIn text)
    (hv : ∀ cs, v ≠ .string cs) : (Expr.literal s v).TrueAt text := by
  unfold TrueAt
  split
  · next cs heq =>
    cases heq
    exact absurd rfl (hv _)
  · exact hspan

/-- A fault at the start of a true expression is true. -/
theorem Expr.TrueAt.fault {e : Expr} (h : e.TrueAt text) (cause : SyntaxError.Cause) :
    (SyntaxError.on e.span cause).TrueIn text := by
  unfold TrueAt at h
  split at h
  · exact ⟨_, h.begins⟩
  · exact h.fault cause

theorem Expr.TrueIn.trueAt {e : Expr} (h : e.TrueIn text) : e.TrueAt text := by
  refine h e ?_
  cases e <;> simp [parts]

/-- An expression with none inside it is true where its span is. -/
theorem Expr.TrueAt.trueIn {e : Expr} (h : e.TrueAt text) (hparts : e.parts = [e]) :
    e.TrueIn text := by
  intro x hx
  rw [hparts, List.mem_singleton] at hx
  exact hx ▸ h

/-- The path of a word is true, or its fault is. -/
theorem endsTruly_readPath {word : Excerpt} (h : word.StandsIn text) :
    EndsTruly text (fun p => p.span.TrueIn text) (Path.read word) := by
  have hspan := h.span_trueIn
  have hfault := SyntaxError.trueIn_at h.start_trueIn
  unfold Path.read
  simp only
  split
  · exact hfault _
  · split
    · split
      · exact hspan
      · exact hfault _
    · split
      · split
        · exact hspan
        · exact hfault _
      · split
        · exact hspan
        · exact hfault _

/-- The expression of a token is true, or its fault is. -/
theorem endsTruly_ofToken {t : Token} (h : t.StandsIn text) :
    EndsTruly text (Expr.TrueIn text) (Expr.ofToken t) := by
  have htrue := h.trueIn
  unfold Token.TrueIn at htrue
  unfold Expr.ofToken
  split
  · next hkind =>
    rw [if_pos hkind] at htrue
    exact Expr.TrueAt.trueIn htrue rfl
  · next hkind =>
    rw [if_neg (by simp [hkind])] at htrue
    split
    · exact (Expr.trueAt_literal htrue (by simp)).trueIn rfl
    · exact h.fault _
  · next hkind =>
    rw [if_neg (by simp [hkind])] at htrue
    split
    · next v hv =>
      have hscalar : ∀ cs, v ≠ .string cs := by
        intro cs hcs
        simpa [hcs] using Expr.wordLiteral?_eq_some hv
      exact (Expr.trueAt_literal htrue hscalar).trueIn rfl
    · refine (endsTruly_readPath (h.excerpt (by simp [hkind]))).map fun p _ hp => ?_
      exact Expr.TrueAt.trueIn (e := .path p) hp rfl
  · exact h.fault _

/-- The arguments of a call are true. -/
def ArgumentsTrueIn (text : String) (r : List Expr × HashArgs) : Prop :=
  ∀ e ∈ r.1 ++ r.2.map Prod.snd, e.TrueIn text

theorem ArgumentsTrueIn.positional {r : List Expr × HashArgs} {value : Expr}
    (h : ArgumentsTrueIn text r) (hvalue : value.TrueIn text) :
    ArgumentsTrueIn text (value :: r.1, r.2) :=
  List.forall_mem_cons.mpr ⟨hvalue, h⟩

theorem ArgumentsTrueIn.named {r : List Expr × HashArgs} {value : Expr} {name : String}
    (h : ArgumentsTrueIn text r) (hvalue : value.TrueIn text) :
    ArgumentsTrueIn text (r.1, (name, value) :: r.2) := by
  unfold ArgumentsTrueIn at h ⊢
  rw [List.forall_mem_append] at h ⊢
  exact ⟨h.1, List.forall_mem_cons.mpr ⟨hvalue, h.2⟩⟩

/-- A value in front of further arguments. -/
theorem endsTruly_value {value : Except SyntaxError Expr}
    {further : Except SyntaxError (List Expr × HashArgs)}
    {join : Expr → List Expr × HashArgs → List Expr × HashArgs} :
    EndsTruly text (Expr.TrueIn text) value → EndsTruly text (ArgumentsTrueIn text) further →
    (∀ e r, e.TrueIn text → ArgumentsTrueIn text r → ArgumentsTrueIn text (join e r)) →
    EndsTruly text (ArgumentsTrueIn text)
      (match value with
      | .error e => .error e
      | .ok v => further.map (join v)) := by
  intro hvalue hfurther hjoin
  cases value with
  | error e => exact hvalue
  | ok v => exact hfurther.map fun r _ hr => hjoin v r hvalue hr

/-- Behind a named argument there is no positional one. -/
theorem endsTruly_positional {named : Bool} {fault : SyntaxError}
    {value : Except SyntaxError Expr} {further : Except SyntaxError (List Expr × HashArgs)} :
    fault.TrueIn text → EndsTruly text (Expr.TrueIn text) value →
    EndsTruly text (ArgumentsTrueIn text) further →
    EndsTruly text (ArgumentsTrueIn text)
      (if named then .error fault
      else
        match value with
        | .error e => .error e
        | .ok v => further.map fun r => (v :: r.1, r.2)) := by
  intro hfault hvalue hfurther
  split
  · exact hfault
  · exact endsTruly_value hvalue hfurther fun e r he hr => hr.positional he

/-- The arguments of a call are true if the expressions of their groups are. A named argument takes
three groups, so the induction is on the number of groups that are left. -/
theorem endsTruly_arguments {stop : Position} (hstop : stop.TrueIn text) {named : Bool}
    {gs : List Group} (hstands : ∀ g ∈ gs, g.StandsIn text)
    (hgs : ∀ g ∈ gs, EndsTruly text (Expr.TrueIn text) (Expr.ofGroup g)) :
    EndsTruly text (ArgumentsTrueIn text) (Expr.arguments stop named gs) := by
  induction hlength : gs.length using Nat.strongRecOn generalizing named gs with
  | ind n ih =>
    subst hlength
    cases gs with
    | nil => exact fun e he => absurd he List.not_mem_nil
    | cons g rest =>
      have hfurther : ∀ named, EndsTruly text (ArgumentsTrueIn text)
          (Expr.arguments stop named rest) := fun named =>
        ih rest.length (by simp) (List.forall_mem_cons.mp hstands).2
          (List.forall_mem_cons.mp hgs).2 rfl
      have hg := hgs g List.mem_cons_self
      cases hstands g List.mem_cons_self with
      | broken blamed =>
        rw [Expr.arguments]
        exact blamed
      | nested stands =>
        rw [Expr.arguments]
        exact endsTruly_positional (stands.fault _) hg (hfurther named)
      | @token t stands =>
        rw [Expr.ofGroup] at hg
        have hfault : (t.fault .positionalAfterNamed).TrueIn text := stands.fault _
        rw [Expr.arguments.eq_def]
        simp only
        split
        · cases hstands _ (List.mem_cons_of_mem _ List.mem_cons_self) with
          | broken blamed => exact blamed
        · next sign rest' _ =>
          split
          · split
            · exact SyntaxError.trueIn_at hstop _
            · next g' rest'' =>
              refine endsTruly_value (hgs g' (by simp)) (ih rest''.length ?_ ?_ ?_ rfl) ?_
              · simp only [List.length_cons]
                omega
              · exact fun g hg => hstands g (by simp [hg])
              · exact fun g hg => hgs g (by simp [hg])
              · exact fun e r he hr => hr.named he
          · exact endsTruly_positional hfault hg (hfurther named)
        · exact endsTruly_positional hfault hg (hfurther named)

/-- **A group that stands in a text** reads as a true expression, or ends with a true fault. -/
theorem endsTruly_ofGroup (g : Group) (h : g.StandsIn text) :
    EndsTruly text (Expr.TrueIn text) (Expr.ofGroup g) := by
  induction g using Group.induction with
  | token t =>
    cases h with
    | token stands =>
      rw [Expr.ofGroup]
      exact endsTruly_ofToken stands
  | broken e =>
    cases h with
    | broken blamed =>
      rw [Expr.ofGroup]
      exact blamed
  | nested opening groups closing ih =>
    cases h with
    | nested stands symbol inner ends =>
      unfold Expr.ofGroup
      split
      · exact SyntaxError.trueIn_at ends _
      · next e rest =>
        cases inner _ List.mem_cons_self with
        | broken blamed => exact blamed
      · next o groups' closing' rest =>
        cases inner _ List.mem_cons_self with
        | nested stands' => exact stands'.fault _
      · next name rest =>
        cases inner _ List.mem_cons_self with
        | token word =>
          split
          · exact word.fault _
          · have hrest := (List.forall_mem_cons.mp inner).2
            have hargs : EndsTruly text (ArgumentsTrueIn text)
                (Expr.arguments closing.position false rest) :=
              endsTruly_arguments ends hrest fun g hg =>
                ih g (List.mem_cons_of_mem _ hg) (hrest g hg)
            split
            · next e he => exact hargs.of_error he
            · next params hash hread =>
              have hparts := hargs.of_ok hread
              split
              · intro x hx
                simp only [Expr.parts, Expr.partsIn_eq_flatMap, Expr.partsInNamed_eq_flatMap,
                  List.mem_cons, List.mem_append, List.mem_flatMap] at hx
                rcases hx with rfl | ⟨e, he, hx⟩ | ⟨e, he, hx⟩
                · have hopening := stands.trueIn
                  unfold Token.TrueIn at hopening
                  rw [if_neg (by simp [symbol])] at hopening
                  exact hopening
                · exact hparts e (List.mem_append_left _ he) x hx
                · exact hparts e.2 (List.mem_append_right _ (List.mem_map_of_mem he)) x hx
              · exact SyntaxError.trueIn_at ends _

/-- The arguments of groups that stand in a text are true, or the fault is. -/
theorem endsTruly_arguments_of_standsIn {stop : Position} (hstop : stop.TrueIn text)
    {gs : List Group} (hgs : ∀ g ∈ gs, g.StandsIn text) :
    EndsTruly text (ArgumentsTrueIn text) (Expr.arguments stop false gs) :=
  endsTruly_arguments hstop hgs fun g hg => endsTruly_ofGroup g (hgs g hg)

/-! ## Tags -/

theorem startsWithName?_trueIn {gs : List Group} (hstands : ∀ g ∈ gs, g.StandsIn text)
    {e : SyntaxError} (h : startsWithName? gs = some e) : e.TrueIn text := by
  unfold startsWithName? at h
  split at h
  · split at h
    · cases h
      cases hstands _ (List.mem_cons_of_mem _ List.mem_cons_self) with
      | broken blamed => exact blamed
    · cases h
  · split at h
    · cases h
      cases hstands _ List.mem_cons_self with
      | token stands => exact stands.fault _
    · cases h
  · cases h

/-- **A tag that stands in a text** reads as a true statement, or ends with a true fault. -/
theorem endsTruly_readExpression {span : Span} (hspan : span.TrueIn text) {inner : Excerpt}
    (hinner : inner.StandsIn text) :
    EndsTruly text (Statement.TrueIn text) (readExpression span inner) := by
  have htokens := hinner.readTokens
  have hgroups := htokens.groups
  unfold readExpression
  simp only
  split
  · exact hspan.fault _
  · next g rest heq =>
    rw [heq] at hgroups
    have hrest := (List.forall_mem_cons.mp hgroups).2
    split
    · next e he => exact startsWithName?_trueIn hgroups he
    · have hhead := endsTruly_ofGroup g (hgroups g List.mem_cons_self)
      split
      · next e he => exact hhead.of_error he
      · next head hread =>
        have htrue := hhead.of_ok hread
        have hargs := endsTruly_arguments_of_standsIn htokens.stop hrest
        split
        · next e he => exact hargs.of_error he
        · next params hash hparts =>
          split
          · exact htrue.trueAt.fault _
          · exact ⟨hspan, List.forall_mem_cons.mpr ⟨htrue, hargs.of_ok hparts⟩⟩

/-- **A header that stands in a text** makes true blocks, or ends with a true fault. -/
theorem endsTruly_readHeader {span : Span} (hspan : span.TrueIn text) {header : Excerpt}
    (hheader : header.StandsIn text) :
    EndsTruly text (Header.Makes (Statement.TrueIn text)) (readHeader span header) := by
  have htokens := hheader.readTokens
  have hgroups := htokens.groups
  unfold readHeader
  simp only
  split
  · exact SyntaxError.trueIn_at htokens.stop _
  · next e rest heq =>
    rw [heq] at hgroups
    cases hgroups _ List.mem_cons_self with
    | broken blamed => exact blamed
  · next opening groups closing rest heq =>
    rw [heq] at hgroups
    cases hgroups _ List.mem_cons_self with
    | nested stands => exact stands.fault _
  · next name rest heq =>
    rw [heq] at hgroups
    have hrest := (List.forall_mem_cons.mp hgroups).2
    cases hgroups _ List.mem_cons_self with
    | token word =>
      split
      · exact word.fault _
      · have hargs := endsTruly_arguments_of_standsIn htokens.stop hrest
        split
        · next e he => exact hargs.of_error he
        · next params hash hparts =>
          split
          · exact word.fault _
          · exact fun program inverse => ⟨hspan, hargs.of_ok hparts⟩

/-- The part of a tag that is read as tokens, by what the tag asks for. -/
def Directive.excerpt? : Directive → Option Excerpt
  | .leaf inner => some inner
  | .opens header => some header
  | .otherwiseIf header => some header
  | _ => none

theorem standsIn_of_elseHeader? {inner header : Excerpt} (h : inner.StandsIn text)
    (hheader : elseHeader? inner = some header) : header.StandsIn text := by
  unfold elseHeader? at hheader
  split at hheader
  · split at hheader
    · cases hheader
      exact (h.drop 4).trimStart
    · cases hheader
  · cases hheader

/-- **What is read of a tag stands where the tag stands.** -/
theorem standsIn_of_excerpt? {inside e : Excerpt} (h : inside.StandsIn text)
    (he : (Directive.ofTag inside).excerpt? = some e) : e.StandsIn text := by
  have hinner := h.trimStart
  unfold Directive.ofTag at he
  simp only at he
  split at he
  · cases he
  · split at he
    · next header hheader =>
      cases he
      exact standsIn_of_elseHeader? hinner hheader
    · split at he
      all_goals cases he
      · exact hinner.drop 1
      · exact hinner.drop 1
      · exact hinner

/-! ## Parts -/

/-- A part is true: its span is, and the inside of a tag stands in the text. -/
def Part.StandsIn (text : String) : Part → Prop
  | .content span _ => span.TrueIn text
  | .tag span inside => span.TrueIn text ∧ inside.StandsIn text

/-- What is read from a part that stands in a text is true. -/
theorem Part.StandsIn.readsAs {part : Part} (h : part.StandsIn text) :
    part.ReadsAs (Statement.TrueIn text) := by
  cases part with
  | content span cs => exact ⟨h, fun e he => absurd he List.not_mem_nil⟩
  | tag span inside =>
    obtain ⟨hspan, hinside⟩ := h
    have hexcerpt := @standsIn_of_excerpt? text inside
    unfold ReadsAs
    simp only
    generalize Directive.ofTag inside = directive at hexcerpt
    split
    · next inner => exact fun s => (endsTruly_readExpression hspan (hexcerpt hinside rfl)).of_ok
    · next header => exact fun h => (endsTruly_readHeader hspan (hexcerpt hinside rfl)).of_ok
    · next header =>
      have hheader := hexcerpt hinside rfl
      exact fun h => (endsTruly_readHeader hheader.span_trueIn hheader).of_ok
    · trivial

/-- A fault in a tag that stands in a text is true. -/
theorem stepTag_error_trueIn {a : Assembly} {span : Span} {inside : Excerpt}
    (hspan : span.TrueIn text) (hinside : inside.StandsIn text) {e : SyntaxError}
    (h : a.stepTag span inside = .error e) : e.TrueIn text := by
  have hexcerpt := @standsIn_of_excerpt? text inside
  unfold Assembly.stepTag at h
  generalize Directive.ofTag inside = directive at hexcerpt h
  split at h
  · cases h
    exact hspan.fault _
  · exact (endsTruly_readExpression hspan (hexcerpt hinside rfl)).of_error (map_eq_error.mp h)
  · exact (endsTruly_readHeader hspan (hexcerpt hinside rfl)).of_error (map_eq_error.mp h)
  · split at h
    · cases h
      exact hspan.fault _
    · split at h
      · cases h
        exact hspan.fault _
      · cases h
  · next header =>
    have hheader := hexcerpt hinside rfl
    have hfault := hheader.span_trueIn.fault
    split at h
    · cases h
      exact hfault _
    · split at h
      · cases h
        exact hfault _
      · exact (endsTruly_readHeader hheader.span_trueIn hheader).of_error (map_eq_error.mp h)
  · split at h
    · cases h
      exact hspan.fault _
    · split at h
      · cases h
      · cases h
        exact hspan.fault _

/-- **One part** keeps a program under way true, or ends with a true fault. -/
theorem endsTruly_step {a : Assembly} (ha : a.Everywhere (Statement.TrueIn text)) {part : Part}
    (hpart : part.StandsIn text) :
    EndsTruly text (Assembly.Everywhere (Statement.TrueIn text)) (a.step part) := by
  refine .intro (fun a' h => ha.step hpart.readsAs h) fun e h => ?_
  cases part with
  | content => cases h
  | tag span inside => exact stepTag_error_trueIn hpart.1 hpart.2 h

/-- A block that is never closed is blamed on its header. -/
theorem finish_error_trueIn {a : Assembly} (ha : a.Everywhere (Statement.TrueIn text))
    {e : SyntaxError} (h : a.finish = .error e) : e.TrueIn text := by
  unfold Assembly.finish at h
  split at h
  · cases h
  · next b outer hblocks =>
    cases h
    have hb := ha.blocks b (hblocks ▸ List.mem_cons_self)
    have hspan : b.header.span.TrueIn text := (hb.header [] none).span
    exact hspan.fault _

/-! ## Pieces -/

theorem standsIn_of_mem_locatePieces {pieces : List Piece} {before after : List Char}
    (htext : text.toList = before ++ pieces.flatMap Piece.chars ++ after) {l : LocatedPiece}
    (hl : l ∈ locatePieces (Position.start.advance before) pieces) : l.whole.StandsIn text := by
  induction pieces generalizing before with
  | nil => simp [locatePieces] at hl
  | cons piece pieces ih =>
    rw [locatePieces, List.mem_cons, ← Position.advance_append] at hl
    rcases hl with rfl | hl
    · refine ⟨before, pieces.flatMap Piece.chars ++ after, ?_, rfl⟩
      rw [htext]
      simp [LocatedPiece.whole]
    · refine ih ?_ hl
      rw [htext]
      simp

/-- The pieces of a text stand in it, also those in front of a fault. -/
theorem standsIn_of_mem_readPieces {l : LocatedPiece} (h : l ∈ (readPieces text).1) :
    l.whole.StandsIn text := by
  have htext : text.toList = [] ++ (cutPieces text.toList).1.flatMap Piece.chars ++
      PieceFault.unread (cutPieces text.toList).2 := (flatMap_chars_cutPieces text.toList).symm
  exact standsIn_of_mem_locatePieces htext h

/-- The inside of a tag stands where the tag does. -/
theorem standsIn_innerExcerpt {l : LocatedPiece} (h : l.whole.StandsIn text) {strip : Strip}
    {braces : Braces} {inner : List Char} (hl : l.piece = .tag strip braces inner) :
    (innerExcerpt l.start strip braces inner).StandsIn text := by
  obtain ⟨before, after, htext, hstart⟩ := h
  have hchars : l.whole.chars = braces.opening ++ Piece.stripMark strip.before ++ inner ++
      Piece.stripMark strip.after ++ braces.closing := by
    rw [LocatedPiece.whole, hl]
    rfl
  refine ⟨before ++ (braces.opening ++ Piece.stripMark strip.before),
    Piece.stripMark strip.after ++ braces.closing ++ after, ?_, ?_⟩
  · rw [htext, hchars]
    simp [innerExcerpt]
  · rw [Position.advance_append, ← hstart]
    rfl

theorem standsIn_of_mem_stripPieces :
    ∀ part ∈ stripPieces (readPieces text).1, part.StandsIn text := by
  refine forall_mem_stripPieces ?_ ?_
  · intro l hl _ _
    exact (standsIn_of_mem_readPieces hl).span_trueIn
  · intro l hl strip braces inner hpiece
    have hwhole := standsIn_of_mem_readPieces hl
    exact ⟨hwhole.span_trueIn, standsIn_innerExcerpt hwhole hpiece⟩

/-- Where the pieces end early, the fault is true. -/
theorem readPieces_fault_trueIn {e : SyntaxError} (h : (readPieces text).2 = some e) :
    e.TrueIn text := by
  obtain ⟨f, -, rfl⟩ := Option.map_eq_some_iff.mp h
  exact SyntaxError.trueIn_at (Position.trueIn_advance
    (flatMap_chars_cutPieces text.toList).symm) f.cause

/-! ## Programs -/

/-- **The program of a text is true at every level**, and so is the fault of a text that has none. -/
theorem endsTruly_readProgram :
    EndsTruly text (Program.Everywhere (Statement.TrueIn text)) (readProgram text) := by
  refine .intro (fun p h => ?_) fun e h => ?_
  · exact readProgram_forall_of_parts
      (fun part hpart => (standsIn_of_mem_stripPieces part hpart).readsAs) h
  · have hparts := @standsIn_of_mem_stripPieces text
    have hpieces := @readPieces_fault_trueIn text
    unfold readProgram at h
    split at h
    · next heq =>
      cases h
      exact hpieces (congrArg Prod.snd heq)
    · next pieces heq =>
      rw [heq] at hparts
      have hrun : EndsTruly text (Assembly.Everywhere (Statement.TrueIn text))
          (Assembly.start.run (stripPieces pieces)) :=
        EndsIn.foldlM (fun part hpart a ha => endsTruly_step ha (hparts part hpart))
          Assembly.everywhere_start
      split at h
      · next he =>
        cases h
        exact hrun.of_error he
      · next a hread => exact finish_error_trueIn (hrun.of_ok hread) h

end Reading

/-- **A true piece**: its span is true; so are that of the inside of a tag, its tokens, and the tokens
of the excerpt that is read of it. -/
structure LocatedPiece.TrueIn (text : String) (l : LocatedPiece) : Prop where
  span : l.span.TrueIn text
  inside : ∀ strip braces inner, l.piece = .tag strip braces inner →
    (innerExcerpt l.start strip braces inner).span.TrueIn text ∧
      (readTokens (innerExcerpt l.start strip braces inner)).TrueIn text
  read : ∀ strip braces inner, l.piece = .tag strip braces inner → ∀ e,
    (Directive.ofTag (innerExcerpt l.start strip braces inner)).excerpt? = some e →
      e.span.TrueIn text ∧ (readTokens e).TrueIn text

theorem trueIn_of_mem_readPieces {text : String} {l : LocatedPiece}
    (h : l ∈ (readPieces text).1) : l.TrueIn text := by
  have hwhole := standsIn_of_mem_readPieces h
  refine ⟨hwhole.span_trueIn, ?_, ?_⟩
  · intro strip braces inner hpiece
    have hinside := standsIn_innerExcerpt hwhole hpiece
    exact ⟨hinside.span_trueIn, hinside.readTokens.trueIn⟩
  · intro strip braces inner hpiece e he
    have hread := standsIn_of_excerpt? (standsIn_innerExcerpt hwhole hpiece) he
    exact ⟨hread.span_trueIn, hread.readTokens.trueIn⟩

/-- **Positions are true.** On every text, the spans of the pieces, of the insides of tags and of
their tokens are true, and so are those of all statements and expressions of its program, at every
level. Where there is no program, the fault is blamed on the line and column of an offset of the
text: its line is one that the text has, and the remark about it shows this line. -/
theorem positions_trueIn (file text : String) :
    (∀ l ∈ (readPieces text).1, l.TrueIn text) ∧
    (∀ p, readProgram text = .ok p → p.Everywhere (Statement.TrueIn text)) ∧
    (∀ e, readProgram text = .error e → e.TrueIn text ∧
      (1 ≤ e.line ∧ e.line ≤ (Source.mk file text).lines.length) ∧
      ∃ margin gap, e.message ⟨file, text⟩ =
        "\n--> " ++ file ++ ":" ++ toString e.line ++ ":" ++ toString e.col ++ "\n" ++ margin ++
          (Source.mk file text).line (e.line - 1) ++ "\n" ++ gap ++ "^\n" ++ "error" ++ ": " ++
          e.cause.text) := by
  refine ⟨fun l => trueIn_of_mem_readPieces, fun p => endsTruly_readProgram.of_ok, ?_⟩
  intro e he
  have htrue : e.TrueIn text := endsTruly_readProgram.of_error he
  have hline := htrue.line_le file
  exact ⟨htrue, hline, Source.exists_excerpt hline.1 hline.2 e.col "error" e.cause.text⟩

/-- A chain over several lines, with characters of several bytes. -/
def accentedText : String :=
  "é\n\x7b\x7b#if a\x7d\x7dü\n" ++
  "\x7b\x7belse if (f 'ß\n' b)\x7d\x7d\x7b\x7b&\n c\x7d\x7d\x7b\x7b/if\x7d\x7d"

/-- A call that is not closed, behind a string over two lines. -/
def unclosedText : String := "ü\n\x7b\x7b (f 'ß\n' b \x7d\x7d"

theorem accentedText_positions :
    ((readPieces accentedText).1.length = 6 ∧
      ∀ l ∈ (readPieces accentedText).1, l.TrueIn accentedText) ∧
    (∃ p, readProgram accentedText = .ok p ∧
      p.statements.map Statement.span = [⟨1, 1, 0, 3⟩, ⟨2, 1, 3, 12⟩, ⟨2, 10, 12, 15⟩,
        ⟨3, 8, 22, 36⟩, ⟨4, 7, 38, 46⟩] ∧ p.Everywhere (Statement.TrueIn accentedText)) ∧
    (readProgram unclosedText = .error ⟨.unterminatedCall, 3, 5⟩ ∧
      SyntaxError.TrueIn unclosedText ⟨.unterminatedCall, 3, 5⟩ ∧
      3 ≤ (Source.mk "mail" unclosedText).lines.length) := by
  obtain ⟨p, hread, hspans⟩ := exists_eq_ok (x := readProgram accentedText)
    (p := fun p => p.statements.map Statement.span == [⟨1, 1, 0, 3⟩, ⟨2, 1, 3, 12⟩,
      ⟨2, 10, 12, 15⟩, ⟨3, 8, 22, 36⟩, ⟨4, 7, 38, 46⟩]) (by decide +kernel)
  obtain ⟨e, herror, he⟩ := exists_eq_error (x := readProgram unclosedText)
    (p := fun e => e == ⟨.unterminatedCall, 3, 5⟩) (by decide +kernel)
  obtain rfl := beq_iff_eq.mp he
  obtain ⟨hpieces, hprogram, -⟩ := positions_trueIn "mail" accentedText
  obtain ⟨-, -, hfault⟩ := positions_trueIn "mail" unclosedText
  obtain ⟨htrue, ⟨-, hline⟩, -⟩ := hfault _ herror
  exact ⟨⟨by decide +kernel, hpieces⟩, ⟨p, hread, beq_iff_eq.mp hspans, hprogram p hread⟩, herror,
    htrue, hline⟩

end TypedTemplate
