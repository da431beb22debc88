import TypedTemplate.Json.Reader
import TypedTemplate.Proofs.Json.Tokens

/-!
# Printed trees are read back

The machine that reads a text keeps the containers that are open. A value is read in the same way
wherever the machine waits for one, so the tokens of a tree take it from there to what is behind the
tree, inside the same containers.

* `Json.induction`: induction over trees.
* `Reader.Reads`: what a sequence of tokens makes of a state.
* `Reader.Awaits`: the states in which a value may start.
* **`Reader.reads_tokens`**: the tokens of a tree are read as the tree, at every level.
* **`Json.read?_chars`**: the compact text of a tree whose numbers are numerals is read as the tree;
  `Json.chars_injective`: so no two of them have the same text.
-/

namespace TypedTemplate.Json

/-- Induction over a tree, its elements and the values of its members. -/
theorem induction {motive : Json → Prop} (null : motive .null) (bool : ∀ b, motive (.bool b))
    (number : ∀ literal, motive (.number literal)) (string : ∀ s, motive (.string s))
    (unpaired : motive .unpaired)
    (array : ∀ items, (∀ j ∈ items, motive j) → motive (.array items))
    (object : ∀ members, (∀ m ∈ members, motive m.2) → motive (.object members)) (j : Json) :
    motive j := by
  refine Json.rec (motive_1 := motive) (motive_2 := fun items => ∀ j ∈ items, motive j)
    (motive_3 := fun members => ∀ m ∈ members, motive m.2) (motive_4 := fun m => motive m.2)
    null bool number string unpaired array object ?_ ?_ ?_ ?_ ?_ j
  · exact fun _ h => absurd h List.not_mem_nil
  · exact fun _ _ hhead htail => List.forall_mem_cons.mpr ⟨hhead, htail⟩
  · exact fun _ h => absurd h List.not_mem_nil
  · exact fun _ _ hhead htail => List.forall_mem_cons.mpr ⟨hhead, htail⟩
  · exact fun _ _ h => h

namespace Reader

/-! ## Reading a sequence of tokens -/

/-- **A sequence of tokens takes the machine from one state to another.** -/
def Reads (r : Reader) (ts : List Token) (r' : Reader) : Prop := run r ts = some r'

variable {r r' r'' : Reader} {t : Token} {ts us : List Token} {outer : List Open}

theorem Reads.append (h : r.Reads ts r') (h' : r'.Reads us r'') : r.Reads (ts ++ us) r'' := by
  unfold Reads run at h h' ⊢
  rw [List.foldlM_append, h]
  exact h'

theorem Reads.of_step (h : r.step t = some r') : r.Reads [t] r' := by
  unfold Reads run
  rw [List.foldlM_cons, h]
  rfl

/-! ## Values -/

/-- **The machine waits for a value** inside the containers that are open. Where an array has just
been opened it may be closed as well. -/
def Awaits (r : Reader) (outer : List Open) : Prop :=
  ∀ t, t ≠ .closeArray → r.step t = start outer t

theorem awaits_value (outer : List Open) : (value outer).Awaits outer := fun _ _ => rfl

theorem awaits_firstElement (outer : List Open) :
    (firstElement outer).Awaits (.element [] :: outer) := by
  intro t ht
  cases t with
  | closeArray => exact absurd rfl ht
  | _ => rfl

theorem Awaits.reads (h : r.Awaits outer) (ht : t ≠ .closeArray) (hstart : start outer t = some r') :
    r.Reads [t] r' := .of_step ((h t ht).trans hstart)

/-- Members whose keys all name texts make an object. -/
theorem object_named (members : List (String × Json)) :
    object (members.map fun m => (some m.1, m.2)) = .object members := by
  have hkeys : (members.map fun m => (some m.1, m.2)).mapM
      (fun m : Option String × Json => m.1.map (·, m.2)) = some members := by
    induction members with
    | nil => rfl
    | cons m members ih =>
      rw [List.map_cons, List.mapM_cons, ih]
      rfl
  unfold object
  rw [hkeys]

/-- Further elements of an array, and its end. -/
theorem reads_tokensItems {items : List Json}
    (h : ∀ j ∈ items, ∀ r outer, Awaits r outer → r.Reads j.tokens (.after outer j))
    (before : List Json) (v : Json) :
    (after (.element before :: outer) v).Reads (tokensItems items ++ [.closeArray])
      (.after outer (.array ((v :: before).reverse ++ items))) := by
  induction items generalizing before v with
  | nil =>
    rw [List.append_nil]
    exact .of_step rfl
  | cons w items ih =>
    rw [List.forall_mem_cons] at h
    have hcomma : (after (.element before :: outer) v).Reads [.comma]
        (value (.element (v :: before) :: outer)) := .of_step rfl
    have hvalue := h.1 _ _ (awaits_value (.element (v :: before) :: outer))
    have hfurther := ih h.2 (v :: before) w
    rw [List.reverse_cons, List.append_assoc] at hfurther
    have hreads := (hcomma.append hvalue).append hfurther
    rw [← List.append_assoc] at hreads
    exact hreads

/-- Further members of an object, and its end. -/
theorem reads_tokensMembers {members : List (String × Json)}
    (h : ∀ m ∈ members, ∀ r outer, Awaits r outer → r.Reads m.2.tokens (.after outer m.2))
    (before : List (String × Json)) (k : String) (v : Json) :
    (after (.member (before.map fun m => (some m.1, m.2)) (some k) :: outer) v).Reads
      (tokensMembers members ++ [.closeObject])
      (.after outer (.object (((k, v) :: before).reverse ++ members))) := by
  induction members generalizing before k v with
  | nil =>
    have hobject := object_named ((k, v) :: before).reverse
    rw [List.map_reverse, List.map_cons] at hobject
    rw [List.append_nil, ← hobject]
    exact .of_step rfl
  | cons m members ih =>
    obtain ⟨l, w⟩ := m
    rw [List.forall_mem_cons] at h
    have hcomma : (after (.member (before.map fun m => (some m.1, m.2)) (some k) :: outer) v).Reads
        [.comma] (key outer (((k, v) :: before).map fun m => (some m.1, m.2))) := .of_step rfl
    have hkey : (key outer (((k, v) :: before).map fun m => (some m.1, m.2))).Reads
        [.string (some l)] (colon outer _ (some l)) := .of_step rfl
    have hcolon : (colon outer (((k, v) :: before).map fun m => (some m.1, m.2)) (some l)).Reads
        [.colon] (value _) := .of_step rfl
    have hvalue := h.1 _ _ (awaits_value
      (.member (((k, v) :: before).map fun m => (some m.1, m.2)) (some l) :: outer))
    have hfurther := ih h.2 ((k, v) :: before) l w
    rw [List.reverse_cons, List.append_assoc] at hfurther
    have hreads := ((hcomma.append hkey).append (hcolon.append hvalue)).append hfurther
    rw [← List.append_assoc] at hreads
    exact hreads

/-- **The tokens of a tree are read as the tree**, wherever the machine waits for a value. -/
theorem reads_tokens (j : Json) (h : r.Awaits outer) : r.Reads j.tokens (.after outer j) := by
  induction j using Json.induction generalizing r outer with
  | null => exact h.reads (by decide) rfl
  | bool b => exact h.reads (by simp) rfl
  | number literal => exact h.reads (by simp) rfl
  | string s => exact h.reads (by simp) rfl
  | unpaired => exact h.reads (by decide) rfl
  | array items ih =>
    have hopen : r.Reads [.openArray] (firstElement outer) := h.reads (by decide) rfl
    cases items with
    | nil =>
      have hclose : (firstElement outer).Reads [.closeArray] (.after outer (.array [])) := .of_step rfl
      exact hopen.append hclose
    | cons v items =>
      rw [List.forall_mem_cons] at ih
      have hvalue := ih.1 (awaits_firstElement outer)
      have hfurther : (after (.element [] :: outer) v).Reads (tokensItems items ++ [.closeArray]) _ :=
        reads_tokensItems (fun j hj r outer => ih.2 j hj) [] v
      have hreads := (hopen.append hvalue).append hfurther
      rw [← List.append_assoc] at hreads
      exact hreads
  | object members ih =>
    have hopen : r.Reads [.openObject] (firstKey outer) := h.reads (by decide) rfl
    cases members with
    | nil =>
      have hclose : (firstKey outer).Reads [.closeObject] (.after outer (.object [])) := .of_step rfl
      exact hopen.append hclose
    | cons m members =>
      obtain ⟨k, v⟩ := m
      rw [List.forall_mem_cons] at ih
      have hkey : (firstKey outer).Reads [.string (some k)] (colon outer [] (some k)) := .of_step rfl
      have hcolon : (colon outer [] (some k)).Reads [.colon] (value (.member [] (some k) :: outer)) :=
        .of_step rfl
      have hvalue := ih.1 (awaits_value (.member [] (some k) :: outer))
      have hfurther : (after (.member [] (some k) :: outer) v).Reads
          (tokensMembers members ++ [.closeObject]) _ :=
        reads_tokensMembers (fun m hm r outer => ih.2 m hm) [] k v
      have hreads := ((hopen.append hkey).append (hcolon.append hvalue)).append hfurther
      rw [← List.append_assoc] at hreads
      exact hreads

end Reader

/-! ## Texts -/

/-- **The compact text of a tree is read as the tree**, when its numbers are numerals. -/
theorem WellSpelled.read?_chars {j : Json} (h : j.WellSpelled) : read? j.chars = some j := by
  have hall : Token.all? j.chars = some j.tokens := by
    have hlexed := h.lexed Decimal.Numeral.ends_nil
    unfold Lexed at hlexed
    rw [List.append_nil] at hlexed
    rw [hlexed, Token.all?, Option.map_some, List.append_nil]
  have hrun : Reader.run (.value []) j.tokens = some (.after [] j) :=
    Reader.reads_tokens j (Reader.awaits_value [])
  unfold read?
  simp only [hall, hrun, Reader.result?]

/-- **Trees with the same compact text are the same.** -/
theorem WellSpelled.chars_injective {j k : Json} (hj : j.WellSpelled) (hk : k.WellSpelled)
    (h : j.chars = k.chars) : j = k := by
  have hread := hj.read?_chars
  rw [h, hk.read?_chars] at hread
  exact (Option.some.inj hread).symm

end TypedTemplate.Json
