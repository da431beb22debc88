import TypedTemplate.Text.Order

/-!
# Dictionaries in key order

A dictionary is a list of entries whose keys strictly increase. Every operation keeps the order, so
listing the entries lists the keys as they sort.

* `insert`: the entry takes its place, or replaces the one with its key.
* `erase`: the entry with the key is dropped.
* `ofList`: the entries inserted one after the other, a later one replacing an earlier one.
* `get?_insert`: what an insertion changes.
-/

namespace TypedTemplate

/-- Entries in the order of their keys. -/
abbrev Dict (α : Type) := List (String × α)

namespace Dict

variable {α : Type}

/-- The value at a key. -/
def get? (key : String) : Dict α → Option α
  | [] => none
  | (k, v) :: rest => if k = key then some v else get? key rest

/-- The key has a value. -/
def contains (key : String) (d : Dict α) : Bool := (get? key d).isSome

/-- Put a value at a key, at the place where the key sorts. -/
def insert (key : String) (value : α) : Dict α → Dict α
  | [] => [(key, value)]
  | (k, v) :: rest =>
    if k = key then (key, value) :: rest
    else if Text.precedes key k then (key, value) :: (k, v) :: rest
    else (k, v) :: insert key value rest

/-- Drop the value at a key. -/
def erase (key : String) (d : Dict α) : Dict α := d.filter fun e => e.1 ≠ key

/-- The entries of a list, the last one of each key. -/
def ofList (entries : List (String × α)) : Dict α :=
  entries.foldl (fun d e => insert e.1 e.2 d) []

/-- The keys, in order. -/
def keys (d : Dict α) : List String := d.map (·.1)

/-- An insertion changes the value at its key alone. -/
theorem get?_insert (key : String) (value : α) (d : Dict α) (k : String) :
    get? k (insert key value d) = if key = k then some value else get? k d := by
  induction d with
  | nil => simp [insert, get?]
  | cons e rest ih =>
    obtain ⟨k', v'⟩ := e
    simp only [insert]
    split
    · next h => subst h; by_cases h' : k' = k <;> simp [get?, h']
    · split
      · by_cases h' : key = k <;> simp [get?, h']
      · next h _ =>
        by_cases h' : k' = k
        · subst h'; simp [get?, Ne.symm h]
        · simp [get?, h', ih]

end Dict

end TypedTemplate
