import TypedTemplate.Error

/-!
# Caches

A cache holds so many entries that were used last. Looking an entry up uses it, asking whether it is
there does not; putting an entry into a full cache drops the one whose last use is the longest ago.

* `Cache`: the entries, most recently used first.
* `Cache.create`: an empty cache; it has room for at least one entry.
* `get`, `put`, `contains`, `delete`, `clear`: the operations.
-/

namespace TypedTemplate

/-- Entries by key, as many as there is room for. -/
structure Cache (α : Type) where
  /-- The greatest number of entries. -/
  capacity : Nat
  /-- The entries, most recently used first. -/
  entries : List (String × α)
  capacity_pos : 0 < capacity
  length_le : entries.length ≤ capacity
  nodup : (entries.map Prod.fst).Nodup

namespace Cache

variable {α : Type}

/-- The entries without that of a key. -/
def without (key : String) (entries : List (String × α)) : List (String × α) :=
  entries.filter fun e => e.1 ≠ key

/-- No entry of a key is left without it. -/
theorem not_mem_without (key : String) (entries : List (String × α)) :
    key ∉ (without key entries).map Prod.fst := by
  simp [without]

/-- An empty cache. -/
def empty (capacity : Nat) (h : 0 < capacity) : Cache α := ⟨capacity, [], h, Nat.zero_le _, by simp⟩

/-- An empty cache, if it has room for anything. -/
def create (capacity : Nat) : Except TemplateError (Cache α) :=
  if h : 0 < capacity then .ok (empty capacity h) else .error (.invalidCapacity capacity)

/-- The entry of a key becomes the one used last, and the oldest one makes room where need be. -/
def put (key : String) (value : α) (c : Cache α) : Cache α where
  capacity := c.capacity
  entries := ((key, value) :: without key c.entries).take c.capacity
  capacity_pos := c.capacity_pos
  length_le := List.length_take_le _ _
  nodup := by
    have h : (((key, value) :: without key c.entries).map Prod.fst).Nodup := by
      rw [List.map_cons, List.nodup_cons]
      exact ⟨not_mem_without key c.entries, c.nodup.sublist (List.filter_sublist.map _)⟩
    exact h.sublist ((List.take_sublist _ _).map _)

/-- The value of a key, whose entry becomes the one used last. -/
def get (key : String) (c : Cache α) : Option α × Cache α :=
  match c.entries.lookup key with
  | some v => (some v, c.put key v)
  | none => (none, c)

/-- There is an entry of a key. -/
def contains (key : String) (c : Cache α) : Bool := (c.entries.lookup key).isSome

/-- The cache without the entry of a key. -/
def delete (key : String) (c : Cache α) : Cache α where
  capacity := c.capacity
  entries := without key c.entries
  capacity_pos := c.capacity_pos
  length_le := Nat.le_trans (List.length_filter_le _ _) c.length_le
  nodup := c.nodup.sublist (List.filter_sublist.map _)

/-- The cache without any entry. -/
def clear (c : Cache α) : Cache α := empty c.capacity c.capacity_pos

/-- The number of entries. -/
def size (c : Cache α) : Nat := c.entries.length

/-- The cache on one line. -/
def shown (c : Cache α) : String :=
  "TemplateCache \x7b size: " ++ toString c.size ++ ", capacity: " ++ toString c.capacity ++ " \x7d"

end Cache

end TypedTemplate
