import TypedTemplate.Proofs.Number.Display
import TypedTemplate.Value.Reader

/-!
# Values survive JSON

A value is written as a JSON tree and read from it. JSON has no form for what is missing, and a
floating point number may be written as an integer. A value without either comes back as it was,
but for the form of its integers: JSON does not tell whether an integer is kept with a sign.

* `Dict.ofList_of_sorted`: entries in key order are collected as they stand.
* `Number.reread`: the form in which an integer comes back; `Number.exists_jsonLiteral?`.
* `Value.Exact`: the values that JSON says exactly.
* **`Value.Exact.ofJson?_toJson`**: such a value comes back as `Value.reread`, which
  `Value.Exact.equals_reread` says is the same.
-/

namespace TypedTemplate

/-! ## Dictionaries -/

namespace Dict

variable {α : Type}

/-- The keys strictly increase. -/
def Sorted (d : Dict α) : Prop := d.keys.Pairwise fun a b => Text.precedes a b = true

instance (d : Dict α) : Decidable d.Sorted := inferInstanceAs (Decidable (List.Pairwise _ _))

/-- An entry whose key comes behind all others takes the last place. -/
theorem insert_last {d : Dict α} {key : String} (value : α)
    (h : ∀ k ∈ d.keys, Text.precedes k key = true) : insert key value d = d ++ [(key, value)] := by
  induction d with
  | nil => rfl
  | cons e rest ih =>
    obtain ⟨k, v⟩ := e
    have hbefore : Text.precedes k key = true := h k List.mem_cons_self
    have hne : k ≠ key := by
      rintro rfl
      rw [Text.precedes_irrefl] at hbefore
      cases hbefore
    have hnot : ¬Text.precedes key k = true := by
      intro hbehind
      have hself := Text.precedes_trans hbefore hbehind
      rw [Text.precedes_irrefl] at hself
      cases hself
    unfold insert
    rw [if_neg hne, if_neg hnot, ih fun k' hk' => h k' (List.mem_cons_of_mem _ hk')]
    rfl

theorem foldl_insert (front : Dict α) {entries : List (String × α)}
    (h : Sorted (front ++ entries)) :
    entries.foldl (fun d e => insert e.1 e.2 d) front = front ++ entries := by
  induction entries generalizing front with
  | nil => rw [List.append_nil, List.foldl_nil]
  | cons e rest ih =>
    have hlast : ∀ k ∈ keys front, Text.precedes k e.1 = true := by
      intro k hk
      have hparts : (keys front ++ keys (e :: rest)).Pairwise
          fun a b => Text.precedes a b = true := by
        have hkeys : keys (front ++ e :: rest) = keys front ++ keys (e :: rest) := List.map_append
        rw [← hkeys]
        exact h
      exact (List.pairwise_append.mp hparts).2.2 k hk e.1 List.mem_cons_self
    have hmove : front ++ e :: rest = (front ++ [e]) ++ rest := by simp
    rw [List.foldl_cons, insert_last e.2 hlast, hmove]
    rw [hmove] at h
    exact ih _ h

/-- **Entries in key order are collected as they stand.** -/
theorem ofList_of_sorted {entries : List (String × α)} (h : Sorted entries) :
    ofList entries = entries := by
  exact foldl_insert [] h

end Dict

/-! ## Integers -/

namespace Number

/-- **The form in which an integer comes back**: without a sign where it needs none. -/
def reread : Number → Number
  | .int n => .ofInt64 n
  | n => n

variable {n : Number} {z : Int}

theorem integer?_reread (n : Number) : n.reread.integer? = n.integer? := by
  cases n with
  | uint m => rfl
  | int m => exact integer?_ofInt64 m
  | float f => rfl

/-- The integer of a number is of 64 bits. -/
theorem ofInt?_of_integer? (h : n.integer? = some z) : ofInt? z = some n.reread := by
  cases n with
  | uint m =>
    cases h
    exact ofInt?_toNat m
  | int m =>
    cases h
    exact ofInt?_toInt m
  | float f => cases h

/-- The rendered form of a number with an integer value is that of the integer. -/
theorem chars_of_integer? (h : n.integer? = some z) : n.chars = intChars z := by
  cases n with
  | uint m =>
    cases h
    exact natChars_eq_intChars m.toNat
  | int m =>
    cases h
    rfl
  | float f => cases h

/-- **An integer of 64 bits is read back from JSON as itself.** -/
theorem ofJsonLiteral?_intChars {m : Number} (h : ofInt? z = some m) :
    ofJsonLiteral? (String.ofList (intChars z)) = some m := by
  have hdigits : Digits (natChars z.natAbs) := Digits.toDigits z.natAbs
  have hvalue : Nat.ofDigitChars 10 (natChars z.natAbs) 0 = z.natAbs :=
    Nat.ofDigitChars_ten_toDigits
  have hinteger :
      integerOfNumeral? ⟨decide (z < 0), natChars z.natAbs, none, none⟩ = some m := by
    unfold integerOfNumeral? Decimal.Numeral.isInteger Decimal.Numeral.wholeValue
    simp only [hvalue]
    by_cases hsign : z < 0
    · have hsize : -(z.natAbs : Int) = z := by omega
      have hzero : z.natAbs ≠ 0 := by omega
      generalize z.natAbs = size at hsize hzero ⊢
      simp [hsign, hsize, hzero, h]
    · have hsize : (z.natAbs : Int) = z := by omega
      generalize z.natAbs = size at hsize ⊢
      simp [hsign, hsize, h]
  unfold ofJsonLiteral?
  rw [String.toList_ofList, intChars_eq, Decimal.Numeral.ofText?_whole _ hdigits]
  simp only [hinteger]

/-- The JSON form of an integer is its text. -/
theorem jsonLiteral?_of_integer? (h : n.integer? = some z) : n.jsonLiteral? = some n.text := by
  cases n with
  | uint m => rfl
  | int m => rfl
  | float f => cases h

/-- **An integer has a JSON form, and comes back from it.** -/
theorem exists_jsonLiteral? (h : n.integer? = some z) :
    ∃ literal, n.jsonLiteral? = some literal ∧ ofJsonLiteral? literal = some n.reread := by
  refine ⟨n.text, jsonLiteral?_of_integer? h, ?_⟩
  unfold text
  rw [chars_of_integer? h]
  exact ofJsonLiteral?_intChars (ofInt?_of_integer? h)

theorem equals_reread (h : n.integer? = some z) : n.equals n.reread = true := by
  unfold equals
  rw [integer?_reread, h]
  simp

end Number

/-! ## Values -/

namespace Value

/-- **The values that JSON says exactly**: nothing is missing in them, their numbers are integers,
and the members of their objects are in key order. -/
inductive Exact : Value → Prop where
  | null : Exact .null
  | bool (b : Bool) : Exact (.bool b)
  | number {n : Number} {z : Int} (integer : n.integer? = some z) : Exact (.number n)
  | string (s : String) : Exact (.string s)
  | array {items : List Value} (exact : ∀ v ∈ items, v.Exact) : Exact (.array items)
  | object {members : List (String × Value)} (sorted : Dict.Sorted members)
    (exact : ∀ e ∈ members, e.2.Exact) : Exact (.object members)

mutual

/-- **The form in which a value comes back**, its integers without a sign where they need none. -/
def reread : Value → Value
  | .number n => .number n.reread
  | .array items => .array (rereadItems items)
  | .object members => .object (rereadMembers members)
  | v => v
termination_by structural v => v

/-- The form in which elements come back. -/
def rereadItems : List Value → List Value
  | [] => []
  | v :: rest => reread v :: rereadItems rest
termination_by structural items => items

/-- The form in which members come back. -/
def rereadMembers : List (String × Value) → List (String × Value)
  | [] => []
  | (k, v) :: rest => (k, reread v) :: rereadMembers rest
termination_by structural members => members

end

theorem keys_rereadMembers (members : List (String × Value)) :
    Dict.keys (rereadMembers members) = Dict.keys members := by
  induction members with
  | nil => rfl
  | cons e rest ih => exact congrArg (e.1 :: ·) ih

theorem toJsonItems_eq (items : List Value) : toJsonItems items = items.map toJson := by
  induction items with
  | nil => rfl
  | cons v rest ih => exact congrArg (v.toJson :: ·) ih

variable {v : Value}

theorem ofJsonItems?_toJsonItems {items : List Value}
    (h : ∀ v ∈ items, ofJson? Number.ofJsonLiteral? v.toJson = some v.reread) :
    ofJsonItems? Number.ofJsonLiteral? (toJsonItems items) = some (rereadItems items) := by
  induction items with
  | nil => rfl
  | cons v rest ih =>
    have hhead := h v List.mem_cons_self
    have htail := ih fun w hw => h w (List.mem_cons_of_mem v hw)
    simp only [toJsonItems, ofJsonItems?, hhead, htail, rereadItems]

theorem ofJsonMembers?_toJsonMembers {members : List (String × Value)}
    (h : ∀ e ∈ members, ofJson? Number.ofJsonLiteral? e.2.toJson = some e.2.reread) :
    ofJsonMembers? Number.ofJsonLiteral? (toJsonMembers members) =
      some (rereadMembers members) := by
  induction members with
  | nil => rfl
  | cons e rest ih =>
    have hhead := h e List.mem_cons_self
    have htail := ih fun w hw => h w (List.mem_cons_of_mem e hw)
    simp only [toJsonMembers, ofJsonMembers?, hhead, htail, rereadMembers]

/-- **A value that JSON says exactly is read back**, integers without a sign where they need
none. -/
theorem Exact.ofJson?_toJson (h : v.Exact) :
    ofJson? Number.ofJsonLiteral? v.toJson = some v.reread := by
  induction h with
  | null => rfl
  | bool b => rfl
  | string s => rfl
  | @number n z integer =>
    obtain ⟨literal, hliteral, hread⟩ := Number.exists_jsonLiteral? integer
    simp only [toJson, hliteral, ofJson?, hread, Option.map_some, reread]
  | array _ ih =>
    simp only [toJson, ofJson?, ofJsonItems?_toJsonItems ih, Option.map_some, reread]
  | @object members sorted _ ih =>
    have hsorted : Dict.Sorted (rereadMembers members) := by
      unfold Dict.Sorted
      rw [keys_rereadMembers]
      exact sorted
    simp only [toJson, ofJson?, ofJsonMembers?_toJsonMembers ih, Option.map_some, reread,
      Dict.ofList_of_sorted hsorted]

/-- Null alone is written as null. -/
theorem Exact.toJson_ne_null (h : v.Exact) (hv : v ≠ .null) : v.toJson ≠ .null := by
  cases h with
  | null => exact absurd rfl hv
  | number integer =>
    obtain ⟨literal, hliteral, -⟩ := Number.exists_jsonLiteral? integer
    simp [toJson, hliteral]
  | bool b => simp [toJson]
  | string s => simp [toJson]
  | array _ => simp [toJson]
  | object _ _ => simp [toJson]

theorem equalsItems_rereadItems {items : List Value}
    (h : ∀ v ∈ items, v.equals v.reread = true) : equalsItems items (rereadItems items) = true := by
  induction items with
  | nil => rfl
  | cons v rest ih =>
    have htail := ih fun w hw => h w (List.mem_cons_of_mem v hw)
    simp only [rereadItems, equalsItems, h v List.mem_cons_self, htail, Bool.and_self]

theorem equalsMembers_rereadMembers {members : List (String × Value)}
    (h : ∀ e ∈ members, e.2.equals e.2.reread = true) :
    equalsMembers members (rereadMembers members) = true := by
  induction members with
  | nil => rfl
  | cons e rest ih =>
    have htail := ih fun w hw => h w (List.mem_cons_of_mem e hw)
    simp only [rereadMembers, equalsMembers, h e List.mem_cons_self, htail, decide_true,
      Bool.and_self]

/-- **What comes back is the same value.** -/
theorem Exact.equals_reread (h : v.Exact) : v.equals v.reread = true := by
  induction h with
  | null => rfl
  | bool b => simp only [reread, equals, decide_true]
  | string s => simp only [reread, equals, decide_true]
  | number integer => exact Number.equals_reread integer
  | array _ ih => exact equalsItems_rereadItems ih
  | object _ _ ih => exact equalsMembers_rereadMembers ih

end Value

end TypedTemplate
