import TypedTemplate.Cache

/-!
# What a cache holds

What is true of every entry of a cache stays true: a lookup moves an entry to the front, a new entry
is checked when it comes in, and whatever is dropped takes nothing away.

* `Cache.Holds`: something is true of every entry.
* `Holds.put`, `Holds.get`, `Holds.clear`: the operations.
-/

namespace TypedTemplate.Cache

variable {α : Type} {P : String → α → Prop} {c : Cache α}

/-- Something is true of every entry. -/
def Holds (P : String → α → Prop) (c : Cache α) : Prop := ∀ entry ∈ c.entries, P entry.1 entry.2

theorem holds_empty (capacity : Nat) (h : 0 < capacity) : (empty capacity h).Holds P :=
  fun _ hentry => absurd hentry List.not_mem_nil

theorem holds_clear (c : Cache α) : c.clear.Holds P := holds_empty c.capacity c.capacity_pos

/-- An entry of a cache after a `put` is the new one, or an old one. -/
theorem mem_put {key : String} {value : α} {entry : String × α}
    (h : entry ∈ (c.put key value).entries) : entry = (key, value) ∨ entry ∈ c.entries := by
  rcases List.mem_cons.mp (List.mem_of_mem_take h) with heq | hold
  · exact .inl heq
  · exact .inr (List.mem_filter.mp hold).1

theorem Holds.put (h : c.Holds P) {key : String} {value : α} (hnew : P key value) :
    (c.put key value).Holds P := by
  intro entry hentry
  rcases mem_put hentry with rfl | hold
  · exact hnew
  · exact h entry hold

/-- What is looked up is an entry. -/
theorem mem_of_get {key : String} {value : α} {c' : Cache α} (h : c.get key = (some value, c')) :
    (key, value) ∈ c.entries ∧ c' = c.put key value := by
  rw [get] at h
  split at h
  · next v hlookup =>
    cases h
    obtain ⟨before, after, hsplit, -⟩ := List.lookup_eq_some_iff.mp hlookup
    rw [hsplit]
    exact ⟨List.mem_append_right _ List.mem_cons_self, rfl⟩
  · cases h

/-- What is looked up is true of its key, and the cache holds what it held. -/
theorem Holds.get (h : c.Holds P) {key : String} {value : α} {c' : Cache α}
    (hget : c.get key = (some value, c')) : P key value ∧ c'.Holds P := by
  obtain ⟨hmem, rfl⟩ := mem_of_get hget
  exact ⟨h _ hmem, h.put (h _ hmem)⟩

end TypedTemplate.Cache
