import Mathlib.Data.List.Basic
import TypedTemplate.Proofs.Number.Arithmetic
import TypedTemplate.Proofs.Number.Comparison
import TypedTemplate.Proofs.Schema.Types

/-!
# What the helpers demand

The analysis trusts what a helper declares; the helper itself looks at its arguments when it is
called. A helper that is there from the start makes one of five demands, of how many arguments there
are and what they are. It fails where they do not meet it, and nowhere else. What it answers is what
it declares, but for a division by zero.

* `Helper.Demand`: the demands, and `Demand.Refuses` the arguments that do not meet one.
* `Number.zeros`: the numbers that are zero; **`Number.isZero_iff_mem_zeros`** says that a helper
  that divides takes no other for it.
* `Helper.Obeys`: a helper fails exactly where its demand refuses the arguments, and its answer is
  of the schema that it declares.
* `Operation.helper_obeys`, `rounding_obeys`, `extremum_obeys`, `Comparison.helper_obeys`,
  `connective_obeys`, `negation_obeys`: the families of helpers.
* **`builtins_obey`**: every helper that is there from the start.
-/

namespace TypedTemplate

/-! ## Zero -/

/-- The numbers that are zero: one of each integer form, and two in floating point. -/
def Number.zeros : List Number :=
  [.uint 0, .int 0, .float (.zero false), .float (.zero true)]

namespace Binary64

/-- Nothing but the two zeros has no magnitude. -/
theorem eq_zero_of_magnitude {f : Binary64} (h : f.magnitude = 0) :
    f = zero false ∨ f = zero true := by
  have hpow : 0 < Nat.pow 2 f.shift := Nat.pow_pos (by decide)
  have hsignificand : f.significand = 0 := by
    rcases Nat.mul_eq_zero.mp h with hzero | hzero
    · exact hzero
    · exact absurd hzero hpow.ne'
  have hfields : f.exponentField = 0 ∧ f.fraction = 0 := by
    unfold significand at hsignificand
    by_cases hfield : f.exponentField = 0
    · rw [if_pos hfield] at hsignificand
      exact ⟨hfield, hsignificand⟩
    · rw [if_neg hfield] at hsignificand
      have hbit : 0 < Nat.pow 2 52 := by decide
      omega
  have hsize : f.word < 2 ^ 64 := f.bits.toNat_lt
  have hlow : f.word = 0 ∨ f.word = 2 ^ 63 := by
    have hexponent : f.word / 2 ^ 52 % 2 ^ 11 = 0 := hfields.1
    have hfraction : f.word % 2 ^ 52 = 0 := hfields.2
    omega
  rcases hlow with hword | hword
  · exact .inl (congrArg Binary64.mk (UInt64.toNat_inj.mp hword))
  · exact .inr (congrArg Binary64.mk (UInt64.toNat_inj.mp hword))

end Binary64

/-- **A number is zero** just if it is one of the zeros. -/
theorem Number.isZero_iff_mem_zeros {n : Number} : n.isZero = true ↔ n ∈ zeros := by
  constructor
  · intro h
    cases n with
    | uint n =>
      have hzero : (n.toNat : Int) = 0 := (isZero_iff rfl).mp h
      have hnat : n = 0 := UInt64.toNat_inj.mp (by simpa using hzero)
      simp [zeros, hnat]
    | int n =>
      have hzero : n.toInt = 0 := (isZero_iff rfl).mp h
      have hint : n = 0 := Int64.toInt_inj.mp (by simpa using hzero)
      simp [zeros, hint]
    | float f =>
      simp only [isZero, toBinary64, Binary64.equals, Bool.and_eq_true] at h
      have hunits : f.units = (Binary64.zero false).units := of_decide_eq_true h.2
      have hmagnitude : f.magnitude = 0 := by
        rw [← Binary64.natAbs_units, hunits]
        decide +kernel
      rcases Binary64.eq_zero_of_magnitude hmagnitude with rfl | rfl
      · simp [zeros]
      · simp [zeros]
  · intro h
    simp only [zeros, List.mem_cons, List.not_mem_nil, or_false] at h
    rcases h with rfl | rfl | rfl | rfl
    · decide +kernel
    · decide +kernel
    · decide +kernel
    · decide +kernel

/-! ## Demands -/

namespace Value

/-- The value is a number. -/
def IsNumber (v : Value) : Prop := ∃ n, v = .number n

/-- The value is a text. -/
def IsText (v : Value) : Prop := ∃ s, v = .string s

end Value

namespace Helper

/-- What a helper demands of its arguments. -/
inductive Demand where
  /-- So many arguments, all of them numbers. -/
  | numbers (count : Nat)
  /-- At least one argument, and all of them numbers. -/
  | someNumbers
  /-- So many arguments. -/
  | values (count : Nat)
  /-- At least one argument. -/
  | someValues
  /-- Two numbers or two texts. -/
  | ordered

/-- **The arguments do not meet the demand.** -/
def Demand.Refuses : Demand → List Value → Prop
  | .numbers count, args => args.length ≠ count ∨ ∃ v ∈ args, ¬v.IsNumber
  | .someNumbers, args => args = [] ∨ ∃ v ∈ args, ¬v.IsNumber
  | .values count, args => args.length ≠ count
  | .someValues, args => args = []
  | .ordered, args =>
    args.length ≠ 2 ∨ ¬((∀ v ∈ args, v.IsNumber) ∨ ∀ v ∈ args, v.IsText)

/-- **The demands of the helpers** that are there from the start, by their names. -/
def demands : List (String × Demand) :=
  [("add", .numbers 2), ("subtract", .numbers 2), ("multiply", .numbers 2),
    ("divide", .numbers 2), ("mod", .numbers 2),
    ("abs", .numbers 1), ("round", .numbers 1), ("floor", .numbers 1), ("ceil", .numbers 1),
    ("min", .someNumbers), ("max", .someNumbers),
    ("eq", .values 2), ("ne", .values 2),
    ("lt", .ordered), ("lte", .ordered), ("gt", .ordered), ("gte", .ordered),
    ("and", .someValues), ("or", .someValues), ("not", .values 1), ("default", .values 2)]

/-- The arguments ask the helper of a name to divide by zero. -/
def DividesByZero (name : String) (args : List Value) : Prop :=
  (name = "divide" ∨ name = "mod") ∧ ∃ v, ∃ n ∈ Number.zeros, args = [v, .number n]

/-- **A helper that obeys a demand** fails exactly where the demand refuses the arguments. It
answers with nothing exactly where it divides by zero, and otherwise with a number or a truth value,
whichever it declares. -/
structure Obeys (h : Helper) (d : Demand) : Prop where
  fails_iff : ∀ args named, (∃ e, h.call args named = .error e) ↔ d.Refuses args
  undefined_iff : ∀ args named v, h.call args named = .ok v →
    (v = .undefined ↔ DividesByZero h.name args)
  inhabits : ∀ args named v, h.call args named = .ok v → v ≠ .undefined → v.Inhabits h.returns
  returns : h.returns = .ofType .number ∨ h.returns = .ofType .boolean

/-! ## Answers -/

theorem inhabits_number (n : Number) : (Value.number n).Inhabits (.ofType .number) := by
  have htype : (Value.number n).HasType .number := by
    unfold Value.HasType TypeName.ofValue?
    by_cases hinteger : n.isInteger = true
    · simp [hinteger]
    · simp [hinteger]
  rw [Value.inhabits_iff]
  refine ⟨fun tag htag => ?_, nofun, nofun, fun h => absurd rfl h, fun h => absurd rfl h, nofun⟩
  cases htag
  exact ⟨.number, List.mem_singleton_self _, htype⟩

theorem inhabits_bool (b : Bool) : (Value.bool b).Inhabits (.ofType .boolean) := by
  rw [Value.inhabits_iff]
  refine ⟨fun tag htag => ?_, nofun, nofun, fun h => absurd rfl h, fun h => absurd rfl h, nofun⟩
  cases htag
  exact ⟨.boolean, List.mem_singleton_self _, .inl rfl⟩

/-- A helper that never divides by zero obeys a demand, if it answers with numbers. -/
theorem Obeys.of_number {h : Helper} {d : Demand} (hname : h.name ≠ "divide" ∧ h.name ≠ "mod")
    (hreturns : h.returns = .ofType .number)
    (hok : ∀ args named, (∃ v, h.call args named = .ok v) ↔ ¬d.Refuses args)
    (hanswer : ∀ args named v, h.call args named = .ok v → ∃ n, v = .number n) : h.Obeys d where
  fails_iff args named := by rw [exists_error_iff, hok, not_not]
  undefined_iff args named v hv := by
    obtain ⟨n, rfl⟩ := hanswer args named v hv
    exact iff_of_false nofun fun hzero => hzero.1.elim hname.1 hname.2
  inhabits args named v hv _ := by
    obtain ⟨n, rfl⟩ := hanswer args named v hv
    rw [hreturns]
    exact inhabits_number n
  returns := .inl hreturns

/-- A helper that never divides by zero obeys a demand, if it answers with truth values. -/
theorem Obeys.of_bool {h : Helper} {d : Demand} (hname : h.name ≠ "divide" ∧ h.name ≠ "mod")
    (hreturns : h.returns = .ofType .boolean)
    (hok : ∀ args named, (∃ v, h.call args named = .ok v) ↔ ¬d.Refuses args)
    (hanswer : ∀ args named v, h.call args named = .ok v → ∃ b, v = .bool b) : h.Obeys d where
  fails_iff args named := by rw [exists_error_iff, hok, not_not]
  undefined_iff args named v hv := by
    obtain ⟨b, rfl⟩ := hanswer args named v hv
    exact iff_of_false nofun fun hzero => hzero.1.elim hname.1 hname.2
  inhabits args named v hv _ := by
    obtain ⟨b, rfl⟩ := hanswer args named v hv
    rw [hreturns]
    exact inhabits_bool b
  returns := .inr hreturns

/-! ## Numbers -/

/-- An argument gives a number just if it is that number. -/
theorem numeric_eq_ok_iff {name : String} {position : Nat} {v : Value} {n : Number} :
    numeric name position v = .ok n ↔ v = .number n := by
  cases v <;> simp [numeric]

/-- Arguments give numbers just if they are these numbers. -/
theorem numerics_eq_ok_iff {name : String} {position : Nat} {args : List Value}
    {ns : List Number} : numerics name position args = .ok ns ↔ args = ns.map .number := by
  induction args generalizing position ns with
  | nil =>
    rw [numerics]
    constructor
    · intro h
      cases h
      rfl
    · intro h
      rw [List.map_eq_nil_iff.mp h.symm]
  | cons v rest ih =>
    rw [numerics]
    constructor
    · intro h
      split at h
      · cases h
      · next n hn =>
        obtain ⟨ms, hms, rfl⟩ := map_eq_ok.mp h
        rw [numeric_eq_ok_iff.mp hn, ih.mp hms]
        rfl
    · intro h
      obtain ⟨n, ms, rfl, rfl, rfl⟩ := List.map_eq_cons_iff.mp h.symm
      rw [numeric_eq_ok_iff.mpr rfl]
      simp only [ih.mpr rfl, Except.map]

/-- Values that are all numbers. -/
theorem forall_isNumber_iff {args : List Value} :
    (∀ v ∈ args, v.IsNumber) ↔ ∃ ns : List Number, args = ns.map .number := by
  constructor
  · intro h
    induction args with
    | nil => exact ⟨[], rfl⟩
    | cons v rest ih =>
      rw [List.forall_mem_cons] at h
      obtain ⟨⟨n, rfl⟩, hrest⟩ := h
      obtain ⟨ns, rfl⟩ := ih hrest
      exact ⟨n :: ns, rfl⟩
  · rintro ⟨ns, rfl⟩ v hv
    obtain ⟨n, -, rfl⟩ := List.mem_map.mp hv
    exact ⟨n, rfl⟩

namespace Demand

/-- What meets a demand for so many numbers. -/
theorem not_refuses_numbers {count : Nat} {args : List Value} :
    ¬(numbers count).Refuses args ↔
      ∃ ns : List Number, ns.length = count ∧ args = ns.map .number := by
  rw [Refuses, not_or, not_not]
  simp only [not_exists, not_and, not_not, forall_isNumber_iff]
  constructor
  · rintro ⟨hlength, ns, rfl⟩
    exact ⟨ns, by simpa using hlength, rfl⟩
  · rintro ⟨ns, hlength, rfl⟩
    exact ⟨by simpa using hlength, ns, rfl⟩

/-- What meets a demand for some numbers. -/
theorem not_refuses_someNumbers {args : List Value} :
    ¬someNumbers.Refuses args ↔ ∃ n, ∃ ns : List Number, args = .number n :: ns.map .number := by
  rw [Refuses, not_or]
  simp only [not_exists, not_and, not_not, forall_isNumber_iff]
  constructor
  · rintro ⟨hne, ns, rfl⟩
    cases ns with
    | nil => exact absurd rfl hne
    | cons n ns => exact ⟨n, ns, rfl⟩
  · rintro ⟨n, ns, rfl⟩
    exact ⟨List.cons_ne_nil _ _, n :: ns, rfl⟩

end Demand

namespace Operation

variable (op : Operation)

/-- **The helper of an operation** succeeds on two numbers, and on nothing else. -/
theorem call_eq_ok_iff {args : List Value} {named : Dict Value} {v : Value} :
    op.helper.call args named = .ok v ↔
      ∃ x y, args = [.number x, .number y] ∧ v = op.apply x y := by
  constructor
  · intro h
    simp only [helper] at h
    split at h
    · split at h
      · cases h
      · next x hx =>
        split at h
        · cases h
        · next y hy =>
          cases h
          exact ⟨x, y, by rw [numeric_eq_ok_iff.mp hx, numeric_eq_ok_iff.mp hy], rfl⟩
    · cases h
  · rintro ⟨x, y, rfl, rfl⟩
    rfl

/-- An operation divides if its helper is named for it. -/
theorem divides_iff_name : op.divides = true ↔ op.name = "divide" ∨ op.name = "mod" := by
  cases op <;> simp [divides, name]

theorem helper_obeys : op.helper.Obeys (.numbers 2) where
  fails_iff args named := by
    have hok : (∃ v, op.helper.call args named = .ok v) ↔ ¬(Demand.numbers 2).Refuses args := by
      simp only [call_eq_ok_iff, Demand.not_refuses_numbers]
      constructor
      · rintro ⟨-, x, y, rfl, -⟩
        exact ⟨[x, y], rfl, rfl⟩
      · rintro ⟨ns, hlength, rfl⟩
        obtain ⟨x, y, rfl⟩ := List.length_eq_two.mp hlength
        exact ⟨_, x, y, rfl, rfl⟩
    rw [exists_error_iff, hok, not_not]
  undefined_iff args named v hv := by
    obtain ⟨x, y, rfl, rfl⟩ := op.call_eq_ok_iff.mp hv
    have hname : op.helper.name = op.name := rfl
    rw [apply_eq_undefined_iff_isZero, Number.isZero_iff_mem_zeros, divides_iff_name, DividesByZero,
      hname]
    refine and_congr_right fun _ => ⟨fun hzero => ⟨_, y, hzero, rfl⟩, ?_⟩
    rintro ⟨v, n, hzero, heq⟩
    cases heq
    exact hzero
  inhabits args named v hv hdefined := by
    obtain ⟨x, y, rfl, rfl⟩ := op.call_eq_ok_iff.mp hv
    obtain ⟨n, hn⟩ := exists_number_of_apply hdefined
    rw [hn]
    exact inhabits_number n
  returns := .inl rfl

end Operation

/-- **The helper of a function on one number.** -/
theorem rounding_obeys {name : String} (hname : name ≠ "divide" ∧ name ≠ "mod")
    (f : Number → Number) : (rounding name f).Obeys (.numbers 1) := by
  have hcall : ∀ args named v, (rounding name f).call args named = .ok v ↔
      ∃ n, args = [.number n] ∧ v = numberValue (f n) := by
    intro args named v
    constructor
    · intro h
      simp only [rounding] at h
      split at h
      · obtain ⟨n, hn, rfl⟩ := map_eq_ok.mp h
        exact ⟨n, by rw [numeric_eq_ok_iff.mp hn], rfl⟩
      · cases h
    · rintro ⟨n, rfl, rfl⟩
      rfl
  refine .of_number hname rfl (fun args named => ?_) fun args named v hv => ?_
  · simp only [hcall, Demand.not_refuses_numbers]
    constructor
    · rintro ⟨-, n, rfl, -⟩
      exact ⟨[n], rfl, rfl⟩
    · rintro ⟨ns, hlength, rfl⟩
      obtain ⟨n, rfl⟩ := List.length_eq_one_iff.mp hlength
      exact ⟨_, n, rfl, rfl⟩
  · obtain ⟨n, -, rfl⟩ := (hcall args named v).mp hv
    exact ⟨_, rfl⟩

/-- **The helper of an extremum.** That it has numbers to choose from is certain once they have been
taken from its arguments. -/
theorem extremum_obeys {name : String} (hname : name ≠ "divide" ∧ name ≠ "mod")
    (description : String) (direction : Ordering) :
    (extremum name description direction).Obeys .someNumbers := by
  have hcall : ∀ args named v, (extremum name description direction).call args named = .ok v ↔
      ∃ n, ∃ ns : List Number, args = .number n :: ns.map .number ∧
        v = numberValue (foremost direction n ns) := by
    intro args named v
    constructor
    · intro h
      simp only [extremum] at h
      split at h
      · cases h
      · split at h
        · cases h
        · next hnone => cases numerics_eq_ok_iff.mp hnone
        · next n ns hsome =>
          cases h
          exact ⟨n, ns, numerics_eq_ok_iff.mp hsome, rfl⟩
    · rintro ⟨n, ns, rfl, rfl⟩
      have hnumbers : numerics name 1 (.number n :: ns.map .number) = .ok (n :: ns) :=
        numerics_eq_ok_iff.mpr rfl
      simp only [extremum, hnumbers]
  refine .of_number hname rfl (fun args named => ?_) fun args named v hv => ?_
  · simp only [hcall, Demand.not_refuses_someNumbers]
    constructor
    · rintro ⟨-, n, ns, rfl, -⟩
      exact ⟨n, ns, rfl⟩
    · rintro ⟨n, ns, rfl⟩
      exact ⟨_, n, ns, rfl, rfl⟩
  · obtain ⟨n, ns, -, rfl⟩ := (hcall args named v).mp hv
    exact ⟨_, rfl⟩

/-! ## Truth values -/

namespace Comparison

variable (c : Comparison)

/-- Equality takes any two values, an order two numbers or two texts. -/
def demand : Comparison → Demand
  | .eq | .ne => .values 2
  | .lt | .lte | .gt | .gte => .ordered

/-- Two values meet the demand for an order if both are numbers or both are texts. -/
theorem not_refuses_pair {a b : Value} :
    ¬Demand.ordered.Refuses [a, b] ↔ a.IsNumber ∧ b.IsNumber ∨ a.IsText ∧ b.IsText := by
  rw [Demand.Refuses, not_or, not_not, not_not]
  simp only [List.length_cons, List.length_nil, Nat.zero_add, Nat.reduceAdd, true_and,
    List.forall_mem_cons, List.not_mem_nil, false_implies, implies_true, and_true]

/-- An order has an answer for two numbers and for two texts alone. Numbers that are in no order are
answered as well. -/
theorem exists_order_iff (h : c.demand = .ordered) {a b : Value} :
    (∃ r, c.apply a b = .ok r) ↔ a.IsNumber ∧ b.IsNumber ∨ a.IsText ∧ b.IsText := by
  unfold apply
  split
  · cases h
  · cases h
  · split
    · next x y =>
      refine iff_of_true ?_ (.inl ⟨⟨x, rfl⟩, y, rfl⟩)
      cases x.compare? y with
      | some o => exact ⟨_, rfl⟩
      | none => exact ⟨_, rfl⟩
    · next x y => exact iff_of_true ⟨_, rfl⟩ (.inr ⟨⟨x, rfl⟩, y, rfl⟩)
    · next hnumbers htexts =>
      refine iff_of_false nofun ?_
      rintro (⟨⟨x, rfl⟩, y, rfl⟩ | ⟨⟨x, rfl⟩, y, rfl⟩)
      · exact hnumbers x y rfl rfl
      · exact htexts x y rfl rfl

/-- **Two values have an answer** just if the comparison does not refuse them. -/
theorem exists_apply_iff {a b : Value} :
    (∃ r, c.apply a b = .ok r) ↔ ¬c.demand.Refuses [a, b] := by
  cases c with
  | eq => exact iff_of_true ⟨_, rfl⟩ fun h => h rfl
  | ne => exact iff_of_true ⟨_, rfl⟩ fun h => h rfl
  | lt => exact (exists_order_iff .lt rfl).trans not_refuses_pair.symm
  | lte => exact (exists_order_iff .lte rfl).trans not_refuses_pair.symm
  | gt => exact (exists_order_iff .gt rfl).trans not_refuses_pair.symm
  | gte => exact (exists_order_iff .gte rfl).trans not_refuses_pair.symm

theorem helper_obeys : c.helper.Obeys c.demand := by
  have hname : c.name ≠ "divide" ∧ c.name ≠ "mod" := by cases c <;> decide
  have hanswer : ∀ args named v, c.helper.call args named = .ok v ↔
      ∃ a b r, args = [a, b] ∧ c.apply a b = .ok r ∧ v = .bool r := by
    intro args named v
    constructor
    · intro h
      simp only [helper] at h
      split at h
      · next a b =>
        obtain ⟨r, hr, rfl⟩ := map_eq_ok.mp h
        exact ⟨a, b, r, rfl, hr, rfl⟩
      · cases h
    · rintro ⟨a, b, r, rfl, hr, rfl⟩
      exact map_eq_ok.mpr ⟨r, hr, rfl⟩
  refine .of_bool hname rfl (fun args named => ?_) fun args named v hv => ?_
  · by_cases hlength : args.length = 2
    · obtain ⟨a, b, rfl⟩ := List.length_eq_two.mp hlength
      rw [← exists_apply_iff]
      simp only [hanswer]
      constructor
      · rintro ⟨-, a', b', r, heq, hr, -⟩
        cases heq
        exact ⟨r, hr⟩
      · rintro ⟨r, hr⟩
        exact ⟨_, a, b, r, rfl, hr, rfl⟩
    · have hrefuses : c.demand.Refuses args := by
        cases c with
        | eq => exact hlength
        | ne => exact hlength
        | _ => exact .inl hlength
      refine iff_of_false ?_ (not_not.mpr hrefuses)
      rintro ⟨v, hv⟩
      obtain ⟨a, b, r, rfl, -⟩ := (hanswer args named v).mp hv
      exact hlength rfl
  · obtain ⟨a, b, r, -, -, rfl⟩ := (hanswer args named v).mp hv
    exact ⟨r, rfl⟩

end Comparison

/-- **The helper of a connective** takes any values, if there is one. -/
theorem connective_obeys {name : String} (hname : name ≠ "divide" ∧ name ≠ "mod")
    (f : List Value → Bool) : (connective name f).Obeys .someValues := by
  have hcall : ∀ args named v, (connective name f).call args named = .ok v ↔
      args ≠ [] ∧ v = .bool (f args) := by
    intro args named v
    cases args with
    | nil => exact iff_of_false nofun fun h => h.1 rfl
    | cons w rest =>
      constructor
      · intro h
        cases h
        exact ⟨List.cons_ne_nil _ _, rfl⟩
      · rintro ⟨-, rfl⟩
        rfl
  refine .of_bool hname rfl (fun args named => ?_) fun args named v hv => ?_
  · simp only [hcall, Demand.Refuses]
    exact ⟨fun ⟨_, hne, _⟩ => hne, fun hne => ⟨_, hne, rfl⟩⟩
  · exact ⟨_, ((hcall args named v).mp hv).2⟩

/-- **The helper `not`** takes any value. -/
theorem negation_obeys : negation.Obeys (.values 1) := by
  have hcall : ∀ args named v, negation.call args named = .ok v ↔
      ∃ w, args = [w] ∧ v = .bool !w.isTruthy := by
    intro args named v
    constructor
    · intro h
      simp only [negation] at h
      split at h
      · next w =>
        cases h
        exact ⟨w, rfl, rfl⟩
      · cases h
    · rintro ⟨w, rfl, rfl⟩
      rfl
  refine .of_bool ⟨by decide, by decide⟩ rfl (fun args named => ?_) fun args named v hv => ?_
  · simp only [hcall, Demand.Refuses, not_not, List.length_eq_one_iff]
    exact ⟨fun ⟨_, w, hargs, _⟩ => ⟨w, hargs⟩, fun ⟨w, hargs⟩ => ⟨_, w, hargs, rfl⟩⟩
  · obtain ⟨w, -, rfl⟩ := (hcall args named v).mp hv
    exact ⟨_, rfl⟩

/-- **The helper `default`** takes any two values. What it answers is one of them. -/
theorem fallback_fails_iff {args : List Value} {named : Dict Value} :
    (∃ e, fallback.call args named = .error e) ↔ (Demand.values 2).Refuses args := by
  rw [Demand.Refuses]
  by_cases hlength : args.length = 2
  · obtain ⟨v, d, rfl⟩ := List.length_eq_two.mp hlength
    exact iff_of_false nofun fun h => h rfl
  · refine iff_of_true ?_ hlength
    match args with
    | [] => exact ⟨_, rfl⟩
    | [_] => exact ⟨_, rfl⟩
    | [_, _] => exact absurd rfl hlength
    | _ :: _ :: _ :: _ => exact ⟨_, rfl⟩

/-! ## The catalogue -/

/-- A helper that is found among added ones is one of them, under its own name. -/
theorem mem_of_get?_addAll {hs : List Helper} {set : HelperSet} {name : String} {h : Helper}
    (hget : Dict.get? name (set.addAll hs) = some h) :
    (h ∈ hs ∧ h.name = name) ∨ Dict.get? name set = some h := by
  induction hs generalizing set with
  | nil => exact .inr hget
  | cons g rest ih =>
    rcases ih hget with ⟨hmem, hname⟩ | hset
    · exact .inl ⟨List.mem_cons_of_mem g hmem, hname⟩
    · rw [HelperSet.add, Dict.get?_insert] at hset
      by_cases hname : g.name = name
      · rw [if_pos hname] at hset
        cases hset
        exact .inl ⟨List.mem_cons_self, hname⟩
      · rw [if_neg hname] at hset
        exact .inr hset

/-- Each helper for numbers obeys the demand of its name. -/
theorem arithmetic_obey : ∀ h ∈ arithmetic, ∃ d, Dict.get? h.name demands = some d ∧ h.Obeys d := by
  simp only [arithmetic, List.forall_mem_cons, List.not_mem_nil, false_implies, implies_true,
    and_true]
  refine ⟨⟨_, rfl, Operation.helper_obeys .add⟩, ⟨_, rfl, Operation.helper_obeys .subtract⟩,
    ⟨_, rfl, Operation.helper_obeys .multiply⟩, ⟨_, rfl, Operation.helper_obeys .divide⟩,
    ⟨_, rfl, Operation.helper_obeys .mod⟩, ⟨_, rfl, rounding_obeys ?_ _⟩,
    ⟨_, rfl, rounding_obeys ?_ _⟩, ⟨_, rfl, rounding_obeys ?_ _⟩, ⟨_, rfl, rounding_obeys ?_ _⟩,
    ⟨_, rfl, extremum_obeys ?_ _ _⟩, ⟨_, rfl, extremum_obeys ?_ _ _⟩⟩
  all_goals exact ⟨by decide, by decide⟩

/-- Each helper for truth values obeys the demand of its name, except that `default` answers with
any value. -/
theorem logic_obey : ∀ h ∈ logic, ∃ d, Dict.get? h.name demands = some d ∧
    (∀ args named, (∃ e, h.call args named = .error e) ↔ d.Refuses args) ∧
    (h.name ≠ "default" → h.Obeys d) := by
  have hobeys : ∀ h : Helper, (∃ d, Dict.get? h.name demands = some d ∧ h.Obeys d) →
      ∃ d, Dict.get? h.name demands = some d ∧
        (∀ args named, (∃ e, h.call args named = .error e) ↔ d.Refuses args) ∧
        (h.name ≠ "default" → h.Obeys d) := by
    rintro h ⟨d, hd, hobeys⟩
    exact ⟨d, hd, hobeys.fails_iff, fun _ => hobeys⟩
  simp only [logic, List.forall_mem_cons, List.not_mem_nil, false_implies, implies_true,
    and_true]
  refine ⟨hobeys _ ⟨_, rfl, Comparison.helper_obeys .eq⟩,
    hobeys _ ⟨_, rfl, Comparison.helper_obeys .ne⟩, hobeys _ ⟨_, rfl, Comparison.helper_obeys .lt⟩,
    hobeys _ ⟨_, rfl, Comparison.helper_obeys .lte⟩, hobeys _ ⟨_, rfl, Comparison.helper_obeys .gt⟩,
    hobeys _ ⟨_, rfl, Comparison.helper_obeys .gte⟩, hobeys _ ⟨_, rfl, connective_obeys ?_ _⟩,
    hobeys _ ⟨_, rfl, connective_obeys ?_ _⟩, hobeys _ ⟨_, rfl, negation_obeys⟩,
    ⟨_, rfl, fun _ _ => fallback_fails_iff, fun h => absurd rfl h⟩⟩
  all_goals exact ⟨by decide, by decide⟩

end Helper

open Helper in
/-- **What every helper that is there from the start does with its arguments.** Each has a demand,
and it fails on exactly the arguments that the demand refuses. Each but `default` declares a number
or a truth value. It answers with nothing exactly where it divides by zero, and otherwise with a
value of the schema that it declares. -/
theorem builtins_obey :
    (∀ entry ∈ demands, Dict.contains entry.1 HelperSet.builtins = true) ∧
      ∀ name h, Dict.get? name HelperSet.builtins = some h →
        ∃ d, Dict.get? name demands = some d ∧
          (∀ args named, (∃ e, h.call args named = .error e) ↔ d.Refuses args) ∧
          (name ≠ "default" →
            (h.returns = .ofType .number ∨ h.returns = .ofType .boolean) ∧
            ∀ args named v, h.call args named = .ok v →
              (v = .undefined ↔ DividesByZero name args) ∧
              (v ≠ .undefined → v.Inhabits h.returns)) := by
  refine ⟨by decide, fun name h hget => ?_⟩
  have hlisted : h ∈ arithmetic ++ logic ∧ h.name = name :=
    (mem_of_get?_addAll hget).resolve_right nofun
  obtain ⟨hmem, rfl⟩ := hlisted
  have hobeys : ∀ d, h.Obeys d → (h.returns = .ofType .number ∨ h.returns = .ofType .boolean) ∧
      ∀ args named v, h.call args named = .ok v →
        (v = .undefined ↔ DividesByZero h.name args) ∧ (v ≠ .undefined → v.Inhabits h.returns) :=
    fun d hd => ⟨hd.returns, fun args named v hv =>
      ⟨hd.undefined_iff args named v hv, hd.inhabits args named v hv⟩⟩
  rcases List.mem_append.mp hmem with hnumbers | htruth
  · obtain ⟨d, hd, hall⟩ := arithmetic_obey h hnumbers
    exact ⟨d, hd, hall.fails_iff, fun _ => hobeys d hall⟩
  · obtain ⟨d, hd, hfails, hall⟩ := logic_obey h htruth
    exact ⟨d, hd, hfails, fun hname => hobeys d (hall hname)⟩

open Helper in
/-- The remainder by a zero with a sign is nothing, and there is none by a text. -/
theorem builtins_obey_at_zero :
    Dict.get? "mod" HelperSet.builtins = some Operation.mod.helper ∧
      (∃ e, Operation.mod.helper.call [.number (.uint 7), .string "0"] [] = .error e) ∧
      ∃ v, Operation.mod.helper.call
          [.number (.uint 7), .number (.float (.zero true))] [] = .ok v ∧ v = .undefined := by
  have hget : Dict.get? "mod" HelperSet.builtins = some Operation.mod.helper := rfl
  obtain ⟨d, hd, hfails, hanswers⟩ := builtins_obey.2 "mod" Operation.mod.helper hget
  cases hd
  have hcall : Operation.mod.helper.call
      [.number (.uint 7), .number (.float (.zero true))] [] =
        .ok (Operation.mod.apply (.uint 7) (.float (.zero true))) := rfl
  have hzero : Number.float (.zero true) ∈ Number.zeros := by simp [Number.zeros]
  refine ⟨hget, (hfails _ []).mpr ?_, _, hcall, ?_⟩
  · refine .inr ⟨.string "0", by simp, ?_⟩
    rintro ⟨n, hn⟩
    cases hn
  · exact ((hanswers (by decide)).2 _ [] _ hcall).1.mpr ⟨.inr rfl, _, _, hzero, rfl⟩

end TypedTemplate
