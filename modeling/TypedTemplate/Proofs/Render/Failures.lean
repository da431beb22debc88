import TypedTemplate.Execution
import TypedTemplate.Proofs.Outcome
import TypedTemplate.Proofs.Program.Occurrence

/-!
# Where rendering fails

Missing data is no failure, so whatever ends a rendering happened at a call that is written in the
program: its helper is not there, or did not answer.

* `evaluateAll_runsBy`, `evaluateNamed_runsBy`, `renderBodies_runsBy`, `renderProgram_runsBy`: what
  goes through a list stops at the first failure.
* `Accounts`: a call accounts for a failure.
* `exists_call_of_evaluate_error`, `exists_call_of_decider_error`: the call stands in the
  expression, or in the tag of the block.
* **`exists_call_of_renderProgram_error`**: the call is one of the calls of the program, however
  deep it is nested and whatever contexts it was rendered in.
* `exists_call_of_execute_error`: so is the one for which an execution fails.
-/

namespace TypedTemplate

/-- **A call accounts for a failure.** There is no helper of its name, or that helper failed on some
arguments. -/
inductive Accounts (helpers : HelperSet) (site : CallSite) : RenderFailure → Prop where
  | unknown (absent : Dict.get? site.name helpers = none) :
    Accounts helpers site ⟨.unknownHelper site.name, site.span⟩
  | failed (helper : Helper) (args : List Value) (named : Dict Value) (failure : HelperFailure)
    (present : Dict.get? site.name helpers = some helper)
    (answer : helper.call args named = .error failure) :
    Accounts helpers site ⟨.helperFailed site.name failure, site.span⟩

namespace Renderer

/-! ## Lists -/

section Lists

variable (r : Renderer) (frames : List Frame)

theorem evaluateAll_runsBy :
    RunsBy (r.evaluate frames) (fun _ v vs => v :: vs) [] (r.evaluateAll frames) where
  nil := rfl
  cons e _ := by rw [evaluateAll]; cases r.evaluate frames e <;> rfl

theorem evaluateNamed_runsBy :
    RunsBy (fun e => r.evaluate frames e.2) (fun e v vs => (e.1, v) :: vs) []
      (r.evaluateNamed frames) where
  nil := rfl
  cons e _ := by rw [evaluateNamed]; cases r.evaluate frames e.2 <;> rfl

theorem renderBodies_runsBy (render : List Frame → Rendered (List Char)) :
    RunsBy render (fun _ text rest => text ++ rest) [] (renderBodies render) where
  nil := rfl
  cons frames _ := by rw [renderBodies]; cases render frames <;> rfl

theorem renderProgram_runsBy :
    RunsBy (r.renderStatement frames) (fun _ text rest => text ++ rest) []
      (r.renderProgram frames) where
  nil := rfl
  cons s _ := by rw [renderProgram]; cases r.renderStatement frames s <;> rfl

end Lists

variable {r : Renderer} {frames : List Frame} {failure : RenderFailure}

/-! ## Expressions -/

/-- A call fails by itself, or because one of its arguments did. -/
theorem call_eq_error {span : Span} {name : String} {args : Rendered (List Value)}
    {named : Rendered (List (String × Value))} (h : r.call span name args named = .error failure) :
    Accounts r.helpers ⟨span, name⟩ failure ∨ args = .error failure ∨ named = .error failure := by
  rw [call] at h
  split at h
  · next absent => cases h; exact .inl (.unknown absent)
  · next helper present =>
    split at h
    · cases h; exact .inr (.inl rfl)
    · next args =>
      split at h
      · cases h; exact .inr (.inr rfl)
      · next named =>
        split at h
        · next failure answer => cases h; exact .inl (.failed helper args _ failure present answer)
        · cases h

/-- A failing expression holds the call that accounts for it. -/
theorem exists_call_of_evaluate_error {e : Expr} (h : r.evaluate frames e = .error failure) :
    ∃ site ∈ e.calls, Accounts r.helpers site failure := by
  induction e using Expr.induction with
  | path p => cases h
  | literal span v => cases h
  | call span name params hash ihParams ihHash =>
    rw [evaluate] at h
    rw [Expr.calls_call]
    rcases call_eq_error h with haccounts | hargs | hnamed
    · exact ⟨_, List.mem_cons_self, haccounts⟩
    · obtain ⟨e, hmem, he⟩ := (r.evaluateAll_runsBy frames).exists_of_error hargs
      obtain ⟨site, hsite, haccounts⟩ := ihParams e hmem he
      exact ⟨site, List.mem_cons_of_mem _ (List.mem_append_left _
        (List.mem_flatMap.mpr ⟨e, hmem, hsite⟩)), haccounts⟩
    · obtain ⟨e, hmem, he⟩ := (r.evaluateNamed_runsBy frames).exists_of_error hnamed
      obtain ⟨site, hsite, haccounts⟩ := ihHash e hmem he
      exact ⟨site, List.mem_cons_of_mem _ (List.mem_append_right _
        (List.mem_flatMap.mpr ⟨e, hmem, hsite⟩)), haccounts⟩

/-- The call of a helper by name fails by itself, or one of its arguments holds the call that
accounts for it. -/
theorem callOn_eq_error {span : Span} {name : String} {params : List Expr}
    {hash : List (String × Expr)} (h : r.callOn frames span name params hash = .error failure) :
    Accounts r.helpers ⟨span, name⟩ failure ∨
      ∃ e ∈ params ++ hash.map Prod.snd, ∃ site ∈ e.calls, Accounts r.helpers site failure := by
  rcases call_eq_error h with haccounts | hargs | hnamed
  · exact .inl haccounts
  · obtain ⟨e, hmem, he⟩ := (r.evaluateAll_runsBy frames).exists_of_error hargs
    exact .inr ⟨e, List.mem_append_left _ hmem, exists_call_of_evaluate_error he⟩
  · obtain ⟨e, hmem, he⟩ := (r.evaluateNamed_runsBy frames).exists_of_error hnamed
    exact .inr ⟨e.2, List.mem_append_right _ (List.mem_map_of_mem hmem),
      exists_call_of_evaluate_error he⟩

end Renderer

/-! ## Tags -/

namespace Renderer

variable {r : Renderer} {frames : List Frame} {failure : RenderFailure}

/-- A tag that calls a helper fails for one of the calls in it. -/
theorem exists_call_of_callOn_error {s : Statement} {name : String} {params : List Expr}
    {hash : List (String × Expr)} (hcallee : s.callee? = some name)
    (hoperands : s.operands = params ++ hash.map Prod.snd)
    (h : r.callOn frames s.span name params hash = .error failure) :
    ∃ site ∈ s.calls, Accounts r.helpers site failure := by
  rcases callOn_eq_error h with haccounts | ⟨e, he, site, hsite, haccounts⟩
  · exact ⟨_, Statement.mem_calls_of_callee hcallee, haccounts⟩
  · exact ⟨site, Statement.mem_calls_of_operand (hoperands ▸ he) hsite, haccounts⟩

/-- A tag that evaluates an operand fails for one of the calls in it. -/
theorem exists_call_of_operand_error {s : Statement} {e : Expr} (he : e ∈ s.operands)
    (h : r.evaluate frames e = .error failure) :
    ∃ site ∈ s.calls, Accounts r.helpers site failure := by
  obtain ⟨site, hsite, haccounts⟩ := exists_call_of_evaluate_error h
  exact ⟨site, Statement.mem_calls_of_operand he hsite, haccounts⟩

theorem exists_call_of_evaluateStatement_error {span : Span} {head : Expr} {params : List Expr}
    {hash : List (String × Expr)}
    (h : r.evaluateStatement frames span head params hash = .error failure) :
    ∃ site ∈ (Statement.expression span head params hash).calls,
      Accounts r.helpers site failure := by
  rw [evaluateStatement] at h
  split at h
  · next name hname =>
    exact exists_call_of_callOn_error hname (by rw [Statement.operands, hname]; rfl) h
  · next hname =>
    refine exists_call_of_operand_error ?_ h
    rw [Statement.operands, hname]
    exact List.mem_cons_self

theorem exists_call_of_decider_error {span : Span} {kind : BlockKind} {params : List Expr}
    {hash : List (String × Expr)} (program : Program) (inverse : Option Program)
    (h : r.decider frames span kind params hash = .error failure) :
    ∃ site ∈ (Statement.block span kind params hash program inverse).calls,
      Accounts r.helpers site failure := by
  unfold decider at h
  split at h
  · exact exists_call_of_callOn_error rfl rfl h
  · exact exists_call_of_operand_error List.mem_cons_self h
  · cases h

/-! ## Programs -/

/-- A block fails in its tag, in its body, or in its alternative. -/
theorem renderStatement_block_eq_error {span : Span} {kind : BlockKind} {params : List Expr}
    {hash : List (String × Expr)} {program : Program} {inverse : Option Program}
    (h : r.renderStatement frames (.block span kind params hash program inverse) =
      .error failure) :
    r.decider frames span kind params hash = .error failure ∨
      (∃ frames, r.renderProgram frames program = .error failure) ∨
      ∃ body, inverse = some body ∧ r.renderProgram frames body = .error failure := by
  rw [renderStatement] at h
  split at h
  · next hdecider => cases h; exact .inl hdecider
  · split at h
    · cases inverse with
      | none => cases h
      | some body => exact .inr (.inr ⟨body, rfl, h⟩)
    · obtain ⟨frames', -, hframes'⟩ := (renderBodies_runsBy _).exists_of_error h
      exact .inr (.inl ⟨frames', hframes'⟩)

/-- A failing statement holds the call that accounts for it, in its tag or in its bodies. -/
theorem exists_call_of_renderStatement_error {s : Statement}
    (h : r.renderStatement frames s = .error failure) :
    ∃ t ∈ s.nested, ∃ site ∈ t.calls, Accounts r.helpers site failure := by
  induction s using Statement.induction generalizing frames with
  | content span text => cases h
  | expression span head params hash =>
    rw [renderStatement] at h
    exact ⟨_, Statement.self_mem_nested _,
      exists_call_of_evaluateStatement_error (map_eq_error.mp h)⟩
  | block span kind params hash program inverse ihProgram ihInverse =>
    rw [Statement.nested_block]
    rcases renderStatement_block_eq_error h with hdecider | ⟨frames', hbody⟩ | ⟨body, rfl, hbody⟩
    · exact ⟨_, List.mem_cons_self, exists_call_of_decider_error program inverse hdecider⟩
    · obtain ⟨s, hs, hfailed⟩ := (r.renderProgram_runsBy _).exists_of_error hbody
      obtain ⟨t, ht, hcall⟩ := ihProgram s hs hfailed
      exact ⟨t, List.mem_cons_of_mem _ (List.mem_append_left _
        (List.mem_flatMap.mpr ⟨s, hs, ht⟩)), hcall⟩
    · obtain ⟨s, hs, hfailed⟩ := (r.renderProgram_runsBy _).exists_of_error hbody
      obtain ⟨t, ht, hcall⟩ := ihInverse body rfl s hs hfailed
      exact ⟨t, List.mem_cons_of_mem _ (List.mem_append_right _
        (List.mem_flatMap.mpr ⟨s, hs, ht⟩)), hcall⟩

/-- **A failing program holds the call that accounts for it.** -/
theorem exists_call_of_renderProgram_error {p : Program}
    (h : r.renderProgram frames p = .error failure) :
    ∃ site ∈ p.calls, Accounts r.helpers site failure := by
  obtain ⟨s, hs, hfailed⟩ := (r.renderProgram_runsBy _).exists_of_error h
  obtain ⟨t, ht, site, hsite, haccounts⟩ := exists_call_of_renderStatement_error hfailed
  exact ⟨site, List.mem_flatMap.mpr ⟨t, List.mem_flatMap.mpr ⟨s, hs, ht⟩, hsite⟩, haccounts⟩

end Renderer

/-- An execution fails only because rendering does, and so for one of the calls of the program. -/
theorem exists_call_of_execute_error {a : Artifact} {side : SideTable Value} {data : Value}
    {e : TemplateError} (h : a.execute side data = .error e) :
    ∃ failure, e = .failed a.template.source failure ∧
      ∃ site ∈ a.template.program.calls, Accounts a.helpers site failure := by
  rw [Artifact.execute, Program.execute] at h
  split at h
  · cases h
  · rw [Tier.run] at h
    split at h
    · cases h
    · next failure hrender =>
      cases h
      exact ⟨failure, rfl, Renderer.exists_call_of_renderProgram_error (map_eq_error.mp hrender)⟩

end TypedTemplate
