import TypedTemplate.Helper.Basic
import TypedTemplate.Identifier
import TypedTemplate.Proofs.Program.Occurrence

/-!
# What a program mentions

A program mentions helpers by the names of its calls, and side sources by the numbers that its paths
select. A word in a tag without arguments is a path, so it mentions no helper.

* `HelperSet.AgreeOn`: two sets have the same helper at each of some calls, or both have none.
* `Path.selector?`, `SideTable.AgreeOn`: two tables have the same source wherever a path selects one.
* `HelperSet.agreeOn_add`: a helper that is not called may be added.
-/

namespace TypedTemplate

/-! ## Helpers -/

/-- Two sets of helpers have the same helper at each of some calls, or both have none. -/
def HelperSet.AgreeOn (calls : List CallSite) (helpers helpers' : HelperSet) : Prop :=
  ∀ site ∈ calls, Dict.get? site.name helpers = Dict.get? site.name helpers'

namespace HelperSet

variable {helpers helpers' : HelperSet} {calls calls' : List CallSite}

theorem AgreeOn.mono (h : AgreeOn calls helpers helpers') (hsub : ∀ c ∈ calls', c ∈ calls) :
    AgreeOn calls' helpers helpers' := fun c hc => h c (hsub c hc)

/-- **A helper that is not called** may be added, or take the place of another. -/
theorem agreeOn_add {h : Helper} (hunused : ∀ c ∈ calls, c.name ≠ h.name) (helpers : HelperSet) :
    AgreeOn calls (helpers.add h) helpers := by
  intro c hc
  unfold add
  rw [Dict.get?_insert, if_neg (hunused c hc).symm]

end HelperSet

/-! ## Side sources -/

/-- The side source that a path selects. A variable selects none. -/
def Path.selector? (p : Path) : Option UInt64 :=
  if p.data then none else (extractIdentifier p.parts).2

/-- Two tables have the same side source, or both none, wherever one of the paths selects one. -/
def SideTable.AgreeOn {α : Type} (paths : List Path) (table table' : SideTable α) : Prop :=
  ∀ p ∈ paths, ∀ id, p.selector? = some id → table.get? id = table'.get? id

namespace SideTable

variable {α : Type} {table table' : SideTable α} {paths paths' : List Path}

theorem AgreeOn.refl (paths : List Path) (table : SideTable α) : AgreeOn paths table table :=
  fun _ _ _ _ => rfl

theorem AgreeOn.mono (h : AgreeOn paths table table') (hsub : ∀ p ∈ paths', p ∈ paths) :
    AgreeOn paths' table table' := fun p hp => h p (hsub p hp)

/-- The source that a path selects besides variables. -/
theorem AgreeOn.get? {p : Path} (h : AgreeOn [p] table table') (hdata : p.data = false)
    {id : UInt64} (hid : (extractIdentifier p.parts).2 = some id) :
    table.get? id = table'.get? id := by
  refine h p List.mem_cons_self id ?_
  simpa [Path.selector?, hdata] using hid

end SideTable

end TypedTemplate
