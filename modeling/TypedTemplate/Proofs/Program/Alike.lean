import Mathlib.Data.List.Forall2
import TypedTemplate.Proofs.Program.Reading

/-!
# Expressions that differ in their places

The same words in another place of a template are read as the same expressions, except that the
places are others. Tokens, groups and expressions are alike if nothing but their places tells them
apart.

* `Token.Alike`, `Group.Alike`, `Path.Alike`, `Expr.Alike`: the relations.
* `ofLexemes_alike`, **`gather_alike`**: the same lexemes make alike tokens, and alike tokens make
  alike groups.
* **`Expr.ofGroup_alike`**, **`Expr.arguments_alike`**: alike groups are read as alike expressions.
-/

namespace TypedTemplate

/-! ## Tokens and groups -/

/-- Two tokens that differ in their places only. -/
structure Token.Alike (t u : Token) : Prop where
  kind : t.kind = u.kind
  chars : t.excerpt.chars = u.excerpt.chars

/-- **Two groups that differ in their places only.** Both end the same way. -/
inductive Group.Alike : Group → Group → Prop where
  | token {t u : Token} (alike : t.Alike u) : Alike (.token t) (.token u)
  | nested {opening opening' : Token} {groups groups' : List Group} {closing closing' : Closing}
    (inner : List.Forall₂ Alike groups groups') (closed : closing.closed = closing'.closed) :
    Alike (.nested opening groups closing) (.nested opening' groups' closing')
  | broken {e e' : SyntaxError} : Alike (.broken e) (.broken e')

namespace Token.Alike

variable {t u : Token} (h : t.Alike u)

include h

theorem isSymbol (c : Char) : t.isSymbol c = u.isSymbol c := by
  unfold Token.isSymbol
  rw [h.kind, h.chars]

theorem text : t.text = u.text := by
  unfold Token.text Excerpt.text
  rw [h.chars]

end Token.Alike

/-- The same lexemes make alike tokens wherever they stand. -/
theorem ofLexemes_alike (lexemes : List Lexeme) (p q : Position) :
    List.Forall₂ Token.Alike (Token.ofLexemes p lexemes) (Token.ofLexemes q lexemes) := by
  induction lexemes generalizing p q with
  | nil => exact .nil
  | cons l rest ih =>
    have hrest := ih (p.advance l.chars) (q.advance l.chars)
    cases l with
    | blank cs => exact hrest
    | mark c => exact .cons ⟨rfl, rfl⟩ hrest
    | string quote body => exact .cons ⟨rfl, rfl⟩ hrest
    | word cs => exact .cons ⟨rfl, rfl⟩ hrest

/-- One token: it opens a group, closes the innermost open one, or belongs to it. -/
theorem gather_cons {stop : Position} {fault : Option SyntaxError} {outer : List OpenGroup}
    {current : List Group} {t : Token} {rest : List Token} :
    gather stop fault outer current (t :: rest) =
      if t.isSymbol '(' then gather stop fault (⟨t, current⟩ :: outer) [] rest
      else
        match outer with
        | g :: outer' =>
          if t.isSymbol ')' then
            gather stop fault outer'
              (.nested g.opening current.reverse ⟨t.excerpt.start, true⟩ :: g.before) rest
          else gather stop fault outer (.token t :: current) rest
        | [] => gather stop fault [] (.token t :: current) rest := by
  cases outer <;> rw [gather]

/-- Two open groups with alike groups in front of them. -/
def OpenGroup.Alike (g h : OpenGroup) : Prop := List.Forall₂ Group.Alike g.before h.before

/-- Ending alike groups that are open makes alike groups. -/
theorem closeAll_alike {stop stop' : Position} {outer outer' : List OpenGroup}
    {current current' : List Group} (houter : List.Forall₂ OpenGroup.Alike outer outer')
    (hcurrent : List.Forall₂ Group.Alike current current') :
    List.Forall₂ Group.Alike (closeAll stop current outer) (closeAll stop' current' outer') := by
  induction houter generalizing current current' with
  | nil => exact List.forall₂_reverse_iff.mpr hcurrent
  | cons hfirst _ ih =>
    exact ih (.cons (.nested (List.forall₂_reverse_iff.mpr hcurrent) rfl) hfirst)

/-- **Alike tokens make alike groups.** -/
theorem gather_alike {stop stop' : Position} {tokens tokens' : List Token}
    (htokens : List.Forall₂ Token.Alike tokens tokens') {outer outer' : List OpenGroup}
    {current current' : List Group} (houter : List.Forall₂ OpenGroup.Alike outer outer')
    (hcurrent : List.Forall₂ Group.Alike current current') :
    List.Forall₂ Group.Alike (gather stop none outer current tokens)
      (gather stop' none outer' current' tokens') := by
  induction htokens generalizing outer outer' current current' with
  | nil => exact closeAll_alike houter hcurrent
  | @cons t u tokens tokens' ht _ ih =>
    have hnext := List.Forall₂.cons (Group.Alike.token ht) hcurrent
    have hopened := List.Forall₂.cons (show OpenGroup.Alike ⟨t, _⟩ ⟨u, _⟩ from hcurrent) houter
    rw [gather_cons, gather_cons, ← ht.isSymbol '(', ← ht.isSymbol ')']
    by_cases hopen : t.isSymbol '(' = true
    · rw [if_pos hopen, if_pos hopen]
      exact ih hopened .nil
    · rw [if_neg hopen, if_neg hopen]
      cases houter with
      | nil => exact ih .nil hnext
      | cons hfirst hrest =>
        simp only
        by_cases hclose : t.isSymbol ')' = true
        · rw [if_pos hclose, if_pos hclose]
          exact ih hrest (.cons (.nested (List.forall₂_reverse_iff.mpr hcurrent) rfl) hfirst)
        · rw [if_neg hclose, if_neg hclose]
          exact ih (.cons hfirst hrest) hnext

/-! ## Expressions -/

/-- Two paths that differ in their places only. -/
structure Path.Alike (p q : Path) : Prop where
  written : p.written = q.written
  parts : p.parts = q.parts
  depth : p.depth = q.depth
  data : p.data = q.data
  this : p.this = q.this

mutual

/-- **Two expressions that differ in their places only.** -/
inductive Expr.Alike : Expr → Expr → Prop where
  | path {p q : Path} (alike : p.Alike q) : Expr.Alike (.path p) (.path q)
  | literal {span span' : Span} {v : Value} : Expr.Alike (.literal span v) (.literal span' v)
  | call {span span' : Span} {name : String} {params params' : List Expr} {hash hash' : HashArgs}
    (all : Expr.AllAlike params params') (named : Expr.NamedAlike hash hash') :
    Expr.Alike (.call span name params hash) (.call span' name params' hash')

/-- Lists of expressions that differ in their places only. -/
inductive Expr.AllAlike : List Expr → List Expr → Prop where
  | nil : Expr.AllAlike [] []
  | cons {e e' : Expr} {rest rest' : List Expr} (first : Expr.Alike e e')
    (more : Expr.AllAlike rest rest') : Expr.AllAlike (e :: rest) (e' :: rest')

/-- Named expressions that differ in their places only. -/
inductive Expr.NamedAlike : HashArgs → HashArgs → Prop where
  | empty : Expr.NamedAlike [] []
  | entry {name : String} {e e' : Expr} {rest rest' : HashArgs} (first : Expr.Alike e e')
    (more : Expr.NamedAlike rest rest') : Expr.NamedAlike ((name, e) :: rest) ((name, e') :: rest')

end

/-- A word is read as alike paths wherever it stands. -/
theorem Path.read_alike {p : Position} {cs : List Char} {path : Path}
    (h : Path.read ⟨p, cs⟩ = .ok path) (q : Position) :
    ∃ path', Path.read ⟨q, cs⟩ = .ok path' ∧ path.Alike path' := by
  unfold Path.read at h ⊢
  simp only at h ⊢
  split at h
  · cases h
  · next hbar =>
    rw [if_neg hbar]
    split at h
    · next rest =>
      cases hparts : splitSegments? rest with
      | none => simp [hparts] at h
      | some parts =>
        simp only [hparts, Except.ok.injEq] at h
        subst h
        exact ⟨_, rfl, rfl, rfl, rfl, rfl, rfl⟩
    · split at h
      · next hempty =>
        rw [if_pos hempty]
        split at h
        · next hmarked =>
          cases h
          rw [if_pos hmarked]
          exact ⟨_, rfl, rfl, rfl, rfl, rfl, rfl⟩
        · cases h
      · next hempty =>
        rw [if_neg hempty]
        cases hparts : splitSegments? (splitThis (splitParents cs).2).2 with
        | none => simp [hparts] at h
        | some parts =>
          simp only [hparts, Except.ok.injEq] at h
          subst h
          exact ⟨_, rfl, rfl, rfl, rfl, rfl, rfl⟩

namespace Expr

/-- Alike tokens are read as alike literals or paths. -/
theorem ofToken_alike {t u : Token} (halike : t.Alike u) {e : Expr} (h : ofToken t = .ok e) :
    ∃ e', ofToken u = .ok e' ∧ e.Alike e' := by
  obtain ⟨kind, p, cs⟩ := t
  obtain ⟨kind', q, cs'⟩ := u
  obtain ⟨hkind, hchars⟩ := halike
  simp only at hkind hchars
  subst hkind hchars
  unfold ofToken at h ⊢
  cases kind with
  | symbol => cases h
  | string =>
    cases h
    exact ⟨_, rfl, .literal⟩
  | number =>
    simp only at h ⊢
    cases hnumber : Number.ofText? cs with
    | none => simp [hnumber] at h
    | some n =>
      simp only [hnumber, Except.ok.injEq] at h
      subst h
      exact ⟨_, rfl, .literal⟩
  | word =>
    simp only [Token.text, Excerpt.text] at h ⊢
    cases hliteral : wordLiteral? (String.ofList cs) with
    | some v =>
      simp only [hliteral, Except.ok.injEq] at h
      subst h
      exact ⟨_, rfl, .literal⟩
    | none =>
      simp only [hliteral] at h
      obtain ⟨path, hread, rfl⟩ := map_eq_ok.mp h
      obtain ⟨path', hread', hpath⟩ := Path.read_alike hread q
      exact ⟨.path path', map_eq_ok.mpr ⟨path', hread', rfl⟩, .path hpath⟩

/-- An argument without a name may stand in front of arguments that can be read: they do not begin
with an equals sign. -/
theorem arguments_positional {stop : Position} {g : Group} {rest : List Group} {value : Expr}
    {params : List Expr} {hash : HashArgs} (hvalue : ofGroup g = .ok value)
    (hrest : arguments stop false rest = .ok (params, hash)) :
    arguments stop false (g :: rest) = .ok (value :: params, hash) := by
  cases g with
  | broken e => cases hvalue
  | nested opening groups closing =>
    rw [arguments]
    simp only [hvalue, hrest, Bool.false_eq_true, if_false]
    rfl
  | token t =>
    rw [ofGroup] at hvalue
    rw [arguments.eq_def]
    simp only
    split
    · cases hrest
    · next sign rest' hkind =>
      by_cases hsign : sign.isSymbol '=' = true
      · have hsymbol : sign.kind = .symbol := by
          unfold Token.isSymbol at hsign
          simp only [Bool.and_eq_true, decide_eq_true_eq] at hsign
          exact hsign.1
        rcases arguments_cons_eq_ok hrest with
          ⟨value', params', -, hvalue', -⟩ | ⟨t', -, -, -, -, -, heq, hword, -⟩
        · rw [ofGroup, ofToken, hsymbol] at hvalue'
          cases hvalue'
        · cases heq
          rw [hsymbol] at hword
          cases hword
      · rw [if_neg hsign]
        simp only [hvalue, hrest, Bool.false_eq_true, if_false]
        rfl
    · simp only [hvalue, hrest, Bool.false_eq_true, if_false]
      rfl

/-- An argument with a name may stand in front of more of them. -/
theorem arguments_named {stop : Position} {named : Bool} {t sign : Token} {g : Group}
    {rest : List Group} {value : Expr} {params : List Expr} {hash : HashArgs}
    (hword : t.kind = .word) (hsign : sign.isSymbol '=' = true) (hvalue : ofGroup g = .ok value)
    (hrest : arguments stop true rest = .ok (params, hash)) :
    arguments stop named (.token t :: .token sign :: g :: rest) =
      .ok (params, (t.text, value) :: hash) := by
  rw [arguments, if_pos hsign]
  · simp only [hvalue, hrest]
    rfl
  · exact hword

/-- A word and arguments in parentheses that are closed are a call. -/
theorem ofGroup_call (opening : Token) {name : Token} {rest : List Group} {closing : Closing}
    {params : List Expr} {hash : HashArgs} (hword : name.kind = .word)
    (hargs : arguments closing.position false rest = .ok (params, hash))
    (hclosed : closing.closed = true) :
    ofGroup (.nested opening (.token name :: rest) closing) =
      .ok (.call opening.span name.text params hash) := by
  rw [ofGroup]
  simp only [hword, hargs, hclosed, ne_eq, not_true_eq_false, if_false, if_true]

/-- **Alike arguments** are read from alike groups, if each of these is read alike. A named argument
takes three groups, so the induction is on the number of groups that are left. -/
theorem arguments_alike {groups groups' : List Group}
    (halike : List.Forall₂ Group.Alike groups groups')
    (heach : ∀ g ∈ groups, ∀ g' e, g.Alike g' → ofGroup g = .ok e →
      ∃ e', ofGroup g' = .ok e' ∧ e.Alike e')
    {stop : Position} {named : Bool} {params : List Expr} {hash : HashArgs}
    (h : arguments stop named groups = .ok (params, hash)) (stop' : Position) :
    ∃ params' hash', arguments stop' named groups' = .ok (params', hash') ∧
      AllAlike params params' ∧ NamedAlike hash hash' := by
  induction hlen : groups.length using Nat.strongRecOn
    generalizing groups groups' named params hash with
  | ind n ih =>
    subst hlen
    cases halike with
    | nil =>
      cases h
      exact ⟨[], [], rfl, .nil, .empty⟩
    | @cons g g' rest rest' hfirst hmore =>
      rcases arguments_cons_eq_ok h with
        ⟨value, params, rfl, hvalue, hrest, rfl⟩ |
        ⟨t, sign, g₂, rest₂, value, hash, rfl, hword, hsign, rfl, hvalue, hrest, rfl⟩
      · obtain ⟨value', hvalue', hsame⟩ := heach g List.mem_cons_self g' value hfirst hvalue
        obtain ⟨params', hash', hrest', hall, hnamed⟩ :=
          ih _ (by simp) hmore (fun x hx => heach x (List.mem_cons_of_mem _ hx)) hrest rfl
        exact ⟨_, _, arguments_positional hvalue' hrest', .cons hsame hall, hnamed⟩
      · rcases hfirst with ⟨ht⟩
        rcases hmore with _ | ⟨⟨hs⟩, _ | ⟨hthird, hmore⟩⟩
        obtain ⟨value', hvalue', hsame⟩ := heach g₂ (by simp) _ value hthird hvalue
        obtain ⟨params', hash', hrest', hall, hnamed⟩ :=
          ih _ (by simp only [List.length_cons]; omega) hmore (fun x hx => heach x (by simp [hx]))
            hrest rfl
        refine ⟨params', (t.text, value') :: hash', ?_, hall, .entry hsame hnamed⟩
        rw [ht.text]
        exact arguments_named (ht.kind ▸ hword) (hs.isSymbol '=' ▸ hsign) hvalue' hrest'

/-- **Alike groups are read as alike expressions.** -/
theorem ofGroup_alike (g : Group) : ∀ g' e, g.Alike g' → ofGroup g = .ok e →
    ∃ e', ofGroup g' = .ok e' ∧ e.Alike e' := by
  induction g using Group.induction with
  | broken x =>
    intro g' e _ h
    cases h
  | token t =>
    intro g' e halike h
    cases halike with
    | token ht => exact ofToken_alike ht h
  | nested opening groups closing heach =>
    intro g' e halike h
    rcases ofGroup_eq_ok h with
      ⟨t, heq, -⟩ | ⟨_, name, rest, _, params, hash, heq, hword, hargs, hclosed, rfl⟩
    · cases heq
    · cases heq
      cases halike with
      | @nested _ opening' _ _ _ closing' hinner hends =>
        rcases hinner with _ | ⟨⟨ht⟩, hmore⟩
        have hrest := fun g hg => heach g (List.mem_cons_of_mem _ hg)
        obtain ⟨params', hash', hargs', hall, hnamed⟩ :=
          arguments_alike hmore hrest hargs closing'.position
        refine ⟨.call opening'.span name.text params' hash', ?_, .call hall hnamed⟩
        rw [ht.text]
        exact ofGroup_call opening' (ht.kind ▸ hword) hargs' (hends ▸ hclosed)

end Expr

end TypedTemplate
