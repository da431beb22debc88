import TypedTemplate.Proofs.Json.RoundTrip
import TypedTemplate.Proofs.Number.Comparison
import TypedTemplate.Proofs.Render.Lone
import TypedTemplate.Proofs.Value.RoundTrip

/-!
# The JSON text of a value is read back

An object becomes its JSON text in rendered output. The text of a value that JSON says exactly is
read back as the value, unless it nests deeper than is read; and two such values have the same text
just when they are the same.

* `Number.isNumeral_intChars`: an integer in decimal is a numeral of JSON.
* `Value.Exact.wellSpelled`, `Value.Exact.depth_toJson`: the tree of such a value.
* `Value.Exact.equals_iff`: it is the same as another when both come back in the same form.
* **`Value.Exact.ofJsonText?_jsonText`**: what comes back from its text.
* `Renderer.renderProgram_interpolated`: the text of a tag stands between the texts around it.
* **`jsonText_reads_back`**: the text of a value, in rendered output and out of it.
-/

namespace TypedTemplate

/-! ## Integers -/

/-- A text that is one numeral is scanned to its end. -/
theorem Decimal.Numeral.scan?_of_ofText? {cs : List Char} {n : Numeral} (h : ofText? cs = some n) :
    scan? cs = some (n, []) := by
  unfold ofText? at h
  split at h
  · next m hscan =>
    split at h
    · cases h
    · cases h
      exact hscan
  · cases h

namespace Number

/-- Only zero starts with the digit zero. -/
theorem head?_natChars {n : Nat} (h : n ≠ 0) : (natChars n).head? ≠ some '0' := by
  unfold natChars
  induction n using Nat.strongRecOn with
  | _ n ih =>
    by_cases hsmall : n < 10
    · have hall : ∀ n < 10, n ≠ 0 → [Nat.digitChar n].head? ≠ some '0' := by decide
      rw [Nat.toDigits_of_lt_base hsmall]
      exact hall n hsmall h
    · have hle : 10 ≤ n := Nat.not_lt.mp hsmall
      have hfront := ih (n / 10) (by omega) (by omega)
      obtain ⟨c, rest, hdigits⟩ := List.exists_cons_of_ne_nil
        (Nat.toDigits_ne_nil (n := n / 10) (b := 10))
      rw [Nat.toDigits_of_base_le (by decide) hle, hdigits]
      rw [hdigits] at hfront
      exact hfront

/-- **An integer in decimal is a numeral of JSON.** -/
theorem isNumeral_intChars (z : Int) : Json.IsNumeral (intChars z) := by
  have hdigits : Digits (natChars z.natAbs) := Digits.toDigits z.natAbs
  refine ⟨?_, ⟨decide (z < 0), natChars z.natAbs, none, none⟩, ?_, ?_⟩
  · unfold intChars
    by_cases hsign : z < 0
    · rw [if_pos hsign]
      exact ⟨'-', rfl, .inl rfl⟩
    · obtain ⟨c, rest, hchars⟩ := List.exists_cons_of_ne_nil hdigits.nonempty
      rw [if_neg hsign, hchars]
      exact ⟨c, rfl, .inr (hdigits.digits c (by rw [hchars]; exact List.mem_cons_self))⟩
  · rw [intChars_eq]
    exact Decimal.Numeral.scan?_of_ofText? (Decimal.Numeral.ofText?_whole _ hdigits)
  · have hnonempty : (natChars z.natAbs).isEmpty = false :=
      List.isEmpty_eq_false_iff.mpr hdigits.nonempty
    have hzero : (natChars z.natAbs).head? ≠ some '0' ∨ (natChars z.natAbs).length = 1 := by
      by_cases hz : z.natAbs = 0
      · rw [hz]
        exact .inr rfl
      · exact .inl (head?_natChars hz)
    simpa [Json.isJsonNumeral, hnonempty] using hzero

/-- **Integers are the same when they come back in the same form.** -/
theorem equals_iff_reread {m n : Number} {x y : Int} (hx : m.integer? = some x)
    (hy : n.integer? = some y) : m.equals n = true ↔ m.reread = n.reread := by
  rw [equals_iff_of_integers hx hy]
  constructor
  · rintro rfl
    exact Option.some.inj ((ofInt?_of_integer? hx).symm.trans (ofInt?_of_integer? hy))
  · intro h
    have hvalue := congrArg integer? h
    rw [integer?_reread, integer?_reread, hx, hy] at hvalue
    exact Option.some.inj hvalue

end Number

/-! ## Trees -/

namespace Value

mutual

/-- The number of arrays and objects around the innermost leaf. -/
def depth : Value → Nat
  | .array items => depthItems items + 1
  | .object members => depthMembers members + 1
  | _ => 0
termination_by structural v => v

/-- The greatest depth among array elements. -/
def depthItems : List Value → Nat
  | [] => 0
  | v :: rest => max (depth v) (depthItems rest)
termination_by structural items => items

/-- The greatest depth among object members. -/
def depthMembers : List (String × Value) → Nat
  | [] => 0
  | (_, v) :: rest => max (depth v) (depthMembers rest)
termination_by structural members => members

end

theorem toJsonMembers_eq (members : List (String × Value)) :
    toJsonMembers members = members.map fun m => (m.1, m.2.toJson) := by
  induction members with
  | nil => rfl
  | cons m rest ih => exact congrArg ((m.1, m.2.toJson) :: ·) ih

variable {v w : Value}

/-- The literal of an integer is its text in decimal. -/
theorem toJson_number {n : Number} {z : Int} (h : n.integer? = some z) :
    toJson (.number n) = .number (String.ofList (Number.intChars z)) := by
  rw [toJson, Number.jsonLiteral?_of_integer? h, Number.text, Number.chars_of_integer? h]

/-- **The tree of a value that JSON says exactly** has numerals as its numbers. -/
theorem Exact.wellSpelled (h : v.Exact) : v.toJson.WellSpelled := by
  induction h with
  | null => exact .null
  | bool b => exact .bool b
  | @number n z integer =>
    have hnumeral := Number.isNumeral_intChars z
    rw [toJson_number integer]
    rw [← String.toList_ofList (l := Number.intChars z)] at hnumeral
    exact .number hnumeral
  | string s => exact .string s
  | @array items _ ih =>
    rw [toJson, toJsonItems_eq]
    exact .array (List.forall_mem_map.mpr ih)
  | @object members _ _ ih =>
    rw [toJson, toJsonMembers_eq]
    exact .object (List.forall_mem_map.mpr ih)

theorem depthItems_toJsonItems {items : List Value}
    (h : ∀ v ∈ items, v.toJson.depth = v.depth) :
    Json.depthItems (toJsonItems items) = depthItems items := by
  induction items with
  | nil => rfl
  | cons v rest ih =>
    rw [List.forall_mem_cons] at h
    rw [toJsonItems, Json.depthItems, depthItems, h.1, ih h.2]

theorem depthMembers_toJsonMembers {members : List (String × Value)}
    (h : ∀ m ∈ members, m.2.toJson.depth = m.2.depth) :
    Json.depthMembers (toJsonMembers members) = depthMembers members := by
  induction members with
  | nil => rfl
  | cons m rest ih =>
    rw [List.forall_mem_cons] at h
    rw [toJsonMembers, Json.depthMembers, depthMembers, h.1, ih h.2]

/-- **The tree nests as deeply as the value.** -/
theorem Exact.depth_toJson (h : v.Exact) : v.toJson.depth = v.depth := by
  induction h with
  | null => rfl
  | bool b => rfl
  | number integer =>
    rw [toJson_number integer]
    rfl
  | string s => rfl
  | array _ ih => rw [toJson, Json.depth, depth, depthItems_toJsonItems ih]
  | object _ _ ih => rw [toJson, Json.depth, depth, depthMembers_toJsonMembers ih]

/-! ## The same value -/

theorem equalsItems_iff {items others : List Value}
    (h : ∀ v ∈ items, ∀ w : Value, w.Exact → (v.equals w = true ↔ v.reread = w.reread))
    (hothers : ∀ w ∈ others, w.Exact) :
    equalsItems items others = true ↔ rereadItems items = rereadItems others := by
  induction items generalizing others with
  | nil => cases others <;> simp [equalsItems, rereadItems]
  | cons v rest ih =>
    cases others with
    | nil => simp [equalsItems, rereadItems]
    | cons w others =>
      rw [List.forall_mem_cons] at h hothers
      simp only [equalsItems, rereadItems, Bool.and_eq_true, List.cons.injEq, h.1 w hothers.1,
        ih h.2 hothers.2]

theorem equalsMembers_iff {members others : List (String × Value)}
    (h : ∀ m ∈ members, ∀ w : Value, w.Exact → (m.2.equals w = true ↔ m.2.reread = w.reread))
    (hothers : ∀ m ∈ others, m.2.Exact) :
    equalsMembers members others = true ↔ rereadMembers members = rereadMembers others := by
  induction members generalizing others with
  | nil => cases others <;> simp [equalsMembers, rereadMembers]
  | cons m rest ih =>
    obtain ⟨k, v⟩ := m
    cases others with
    | nil => simp [equalsMembers, rereadMembers]
    | cons o others =>
      obtain ⟨l, w⟩ := o
      rw [List.forall_mem_cons] at h hothers
      simp only [equalsMembers, rereadMembers, Bool.and_eq_true, decide_eq_true_eq, List.cons.injEq,
        Prod.mk.injEq, h.1 w hothers.1, ih h.2 hothers.2]

/-- **Values are the same when they come back in the same form.** -/
theorem Exact.equals_iff (hv : v.Exact) (hw : w.Exact) :
    v.equals w = true ↔ v.reread = w.reread := by
  induction hv generalizing w with
  | null => cases hw <;> simp [equals, reread]
  | bool b => cases hw <;> simp [equals, reread]
  | string s => cases hw <;> simp [equals, reread]
  | number integer =>
    cases hw with
    | number integer' =>
      simp only [equals, reread, number.injEq, Number.equals_iff_reread integer integer']
    | _ => simp [equals, reread]
  | array _ ih =>
    cases hw with
    | array exact => simp only [equals, reread, array.injEq, equalsItems_iff ih exact]
    | _ => simp [equals, reread]
  | object _ _ ih =>
    cases hw with
    | object _ exact => simp only [equals, reread, object.injEq, equalsMembers_iff ih exact]
    | _ => simp [equals, reread]

theorem toJsonItems_rereadItems {items : List Value}
    (h : ∀ v ∈ items, v.reread.toJson = v.toJson) :
    toJsonItems (rereadItems items) = toJsonItems items := by
  induction items with
  | nil => rfl
  | cons v rest ih =>
    rw [List.forall_mem_cons] at h
    rw [rereadItems, toJsonItems, toJsonItems, h.1, ih h.2]

theorem toJsonMembers_rereadMembers {members : List (String × Value)}
    (h : ∀ m ∈ members, m.2.reread.toJson = m.2.toJson) :
    toJsonMembers (rereadMembers members) = toJsonMembers members := by
  induction members with
  | nil => rfl
  | cons m rest ih =>
    rw [List.forall_mem_cons] at h
    rw [rereadMembers, toJsonMembers, toJsonMembers, h.1, ih h.2]

/-- The form in which a value comes back has the same tree. -/
theorem Exact.toJson_reread (h : v.Exact) : v.reread.toJson = v.toJson := by
  induction h with
  | null => rfl
  | bool b => rfl
  | string s => rfl
  | @number n z integer =>
    have hreread : n.reread.integer? = some z := (Number.integer?_reread n).trans integer
    rw [reread, toJson_number integer, toJson_number hreread]
  | array _ ih => rw [reread, toJson, toJson, toJsonItems_rereadItems ih]
  | object _ _ ih => rw [reread, toJson, toJson, toJsonMembers_rereadMembers ih]

/-! ## Texts -/

/-- **What comes back from the text of a value**: the value, with its integers in the form in which
they come back, as long as it nests within the limit, and nothing where it nests deeper. -/
theorem Exact.ofJsonText?_jsonText (h : v.Exact) :
    ofJsonText? v.jsonText = if v.depth < nestingLimit then some v.reread else none := by
  have hread : Json.read? v.jsonText.toList = some v.toJson := by
    unfold jsonText Json.print
    rw [String.toList_ofList]
    exact h.wellSpelled.read?_chars
  unfold ofJsonText?
  rw [hread]
  simp only [h.depth_toJson, h.ofJson?_toJson]

/-- **Two values have the same text when they are the same**, and only then. -/
theorem Exact.jsonText_inj (hv : v.Exact) (hw : w.Exact) :
    v.jsonText = w.jsonText ↔ v.equals w = true := by
  rw [hv.equals_iff hw]
  constructor
  · intro h
    have hchars : v.toJson.chars = w.toJson.chars := String.ofList_injective h
    have htree := hv.wellSpelled.chars_injective hw.wellSpelled hchars
    have hback : some v.reread = some w.reread := by
      rw [← hv.ofJson?_toJson, ← hw.ofJson?_toJson, htree]
    exact Option.some.inj hback
  · intro h
    unfold jsonText
    rw [← hv.toJson_reread, ← hw.toJson_reread, h]

end Value

/-! ## Rendered output -/

/-- The text of a tag stands between the texts of what is around it. -/
theorem Renderer.renderProgram_interpolated (r : Renderer) {frames : List Frame}
    {before after : Program} {front back : List Char} {span : Span} {head : Expr}
    {params : List Expr} {hash : List (String × Expr)} {v : Value}
    (hbefore : r.renderProgram frames before = .ok front)
    (hvalue : r.evaluateStatement frames span head params hash = .ok v)
    (hafter : r.renderProgram frames after = .ok back) :
    r.renderProgram frames (before ++ .expression span head params hash :: after) =
      .ok (front ++ v.renderChars ++ back) := by
  rw [renderProgram_append, hbefore, renderProgram, renderStatement, hvalue, hafter]
  simp [Except.map]

/-- **The JSON text of a value that JSON says exactly.** It is read back as the same value where the
value nests within the limit, and not at all where it nests deeper; it is what a tag puts between the
texts around it where the value is an object; and another such value has the same text just when it
is the same. -/
theorem jsonText_reads_back {v w : Value} (hv : v.Exact) (hw : w.Exact) :
    (v.depth < Value.nestingLimit →
      ∃ read, Value.ofJsonText? v.jsonText = some read ∧ v.equals read = true) ∧
    (Value.nestingLimit ≤ v.depth → Value.ofJsonText? v.jsonText = none) ∧
    (∀ members, v = .object members → ∀ (r : Renderer) (frames : List Frame)
      (before after : Program) (front back : List Char) (span : Span) (head : Expr)
      (params : List Expr) (hash : List (String × Expr)),
      r.renderProgram frames before = .ok front →
      r.evaluateStatement frames span head params hash = .ok v →
      r.renderProgram frames after = .ok back →
      r.renderProgram frames (before ++ .expression span head params hash :: after) =
        .ok (front ++ v.jsonText.toList ++ back)) ∧
    (v.jsonText = w.jsonText ↔ v.equals w = true) := by
  have hread := hv.ofJsonText?_jsonText
  refine ⟨?_, ?_, ?_, hv.jsonText_inj hw⟩
  · intro hdepth
    rw [if_pos hdepth] at hread
    exact ⟨v.reread, hread, hv.equals_reread⟩
  · intro hdepth
    rw [if_neg (Nat.not_lt.mpr hdepth)] at hread
    exact hread
  · rintro members rfl r frames before after front back span head params hash hbefore hvalue hafter
    have htext : (Value.object members).jsonText.toList = (Value.object members).renderChars := by
      unfold Value.jsonText Json.print
      rw [String.toList_ofList]
      rfl
    rw [htext]
    exact r.renderProgram_interpolated hbefore hvalue hafter

/-- A key that is escaped, the least integer, and a count in either form. -/
def noteValue (count : Number) : Value :=
  .object [("\"\\\x01", .array [.number (.int Int64.minValue), .null]), ("count", .number count)]

/-- What a note says. -/
def noteText : String :=
  "\x7b\"\\\"\\\\\\u0001\":[-9223372036854775808,null],\"count\":5\x7d"

theorem noteValue_reads_back :
    (noteValue (.int 5)).Exact ∧ (noteValue (.uint 5)).Exact ∧
    (noteValue (.int 5)).depth < Value.nestingLimit ∧
    (noteValue (.int 5)).jsonText = noteText ∧
    (∃ read, Value.ofJsonText? noteText = some read ∧ (noteValue (.int 5)).equals read = true) ∧
    (Renderer.mk ⟨[], noteValue (.int 5)⟩ []).renderProgram [⟨noteValue (.int 5), none⟩]
      [.content ⟨1, 1, 0, 6⟩ "note: ", .expression ⟨1, 7, 6, 14⟩
        (.path ⟨⟨1, 9, 8, 12⟩, "this", [], 0, false, true⟩) [] []] =
      .ok ("note: ".toList ++ noteText.toList) ∧
    (noteValue (.int 5)).jsonText = (noteValue (.uint 5)).jsonText := by
  have hexact (count : Number) (h : count.integer? = some 5) : (noteValue count).Exact := by
    have hkeys : ["\"\\\x01", "count"].Pairwise fun a b => Text.precedes a b = true := by decide
    refine .object hkeys (List.forall_mem_cons.mpr ⟨.array ?_, ?_⟩)
    · exact List.forall_mem_cons.mpr ⟨.number rfl, List.forall_mem_singleton.mpr .null⟩
    · exact List.forall_mem_singleton.mpr (.number h)
  have htext : (noteValue (.int 5)).jsonText = noteText := by decide +kernel
  obtain ⟨hread, -, hrender, hsame⟩ :=
    jsonText_reads_back (hexact (.int 5) rfl) (hexact (.uint 5) rfl)
  have htag := hrender _ rfl ⟨⟨[], noteValue (.int 5)⟩, []⟩ [⟨noteValue (.int 5), none⟩]
    [.content ⟨1, 1, 0, 6⟩ "note: "] [] "note: ".toList [] ⟨1, 7, 6, 14⟩
    (.path ⟨⟨1, 9, 8, 12⟩, "this", [], 0, false, true⟩) [] [] rfl rfl rfl
  rw [htext] at hread htag
  rw [List.append_nil] at htag
  exact ⟨hexact _ rfl, hexact _ rfl, by decide, htext, hread (by decide), htag,
    hsame.mpr (by decide)⟩

end TypedTemplate
