import Mathlib.Data.List.Dedup
import Mathlib.Data.List.Perm.Subperm
import TypedTemplate.Proofs.Cache

/-!
# Histories of a cache

A client looks keys up, puts values in, asks, deletes and clears, in any order. A key is *touched*
when a value is put in under it, and when a lookup finds it. What a cache still holds after such a
history is told by the touches alone: its entries stand in the order in which they were last
touched, so what a full cache drops is the key whose last touch is the oldest.

* `Action`, `Answer`, `Event`: what a client does, what it is told, and both together.
* `Cache.act`, `Cache.run`: one action, and a history of actions.
* **`act_cases`**: all that an action can do to a cache.
* `Latest`, `Older`, `others`: the value put in last, the order of last touches, and the other keys
  touched meanwhile.
* `Records`, `Held`: what the entries of a cache say about its history, by `Records.run` and
  `Held.run` after every history.
* `KeepsRecent`: what a cache promises.
* **`keepsRecent_run`**: a cache that was created keeps its promises after every history.
-/

namespace TypedTemplate.Cache

variable {α : Type}

/-! ## Actions -/

/-- What a client of a cache does. -/
inductive Action (α : Type) where
  | get (key : String)
  | set (key : String) (value : α)
  | has (key : String)
  | delete (key : String)
  | clear
  | size
  | capacity

/-- What a client is told. -/
inductive Answer (α : Type) where
  | found (value : Option α)
  /-- There is, or there was, an entry. -/
  | there (yes : Bool)
  | number (n : Nat)
  | done

/-- An action and its answer. -/
structure Event (α : Type) where
  action : Action α
  answer : Answer α

/-- One action. -/
def act (c : Cache α) : Action α → Answer α × Cache α
  | .get key => (.found (c.get key).1, (c.get key).2)
  | .set key value => (.done, c.put key value)
  | .has key => (.there (c.contains key), c)
  | .delete key => (.there (c.contains key), c.delete key)
  | .clear => (.done, c.clear)
  | .size => (.number c.size, c)
  | .capacity => (.number c.capacity, c)

/-- The event of an action. -/
def event (c : Cache α) (a : Action α) : Event α := ⟨a, (c.act a).1⟩

/-- Actions in order: the events, and the cache at the end. -/
def run (c : Cache α) : List (Action α) → List (Event α) × Cache α
  | [] => ([], c)
  | a :: actions =>
    let out := (c.act a).2.run actions
    (c.event a :: out.1, out.2)

namespace Action

/-- The action asks about the cache only. -/
def asks : Action α → Bool
  | .has _ => true
  | .size => true
  | .capacity => true
  | _ => false

/-- The action takes a key out of the cache. -/
def discards : Action α → String → Bool
  | .delete key, other => key = other
  | .clear, _ => true
  | _, _ => false

/-- The action puts a value in under a key. -/
def sets : Action α → String → Bool
  | .set key _, other => key = other
  | _, _ => false

end Action

/-- The key that an event touches: one that is put in, or found. -/
def Event.touched? : Event α → Option String
  | ⟨.set key _, _⟩ => some key
  | ⟨.get key, .found (some _)⟩ => some key
  | _ => none

/-! ## Histories -/

/-- **The value put in last** under a key: since then nothing was put in under it, and it was
neither deleted nor cleared away. -/
def Latest (actions : List (Action α)) (key : String) (value : α) : Prop :=
  ∃ before after, actions = before ++ .set key value :: after ∧
    ∀ a ∈ after, a.sets key = false ∧ a.discards key = false

/-- **The last touch of one key is older** than that of another: the other one was touched, and the
first one not any more since. -/
def Older (events : List (Event α)) (key other : String) : Prop :=
  ∃ before e after, events = before ++ e :: after ∧ e.touched? = some other ∧
    ∀ later ∈ after, later.touched? ≠ some key

/-- The distinct keys other than a given one that events touch. -/
def others (key : String) (events : List (Event α)) : List String :=
  ((events.filterMap Event.touched?).filter (· ≠ key)).dedup

theorem Latest.append {actions : List (Action α)} {key : String} {value : α}
    (h : Latest actions key value) {a : Action α} (hsets : a.sets key = false)
    (hdiscards : a.discards key = false) : Latest (actions ++ [a]) key value := by
  obtain ⟨before, after, rfl, hafter⟩ := h
  refine ⟨before, after ++ [a], by simp, ?_⟩
  intro b hb
  rcases List.mem_append.mp hb with hb | hb
  · exact hafter b hb
  · rw [List.mem_singleton.mp hb]
    exact ⟨hsets, hdiscards⟩

theorem latest_append_set (actions : List (Action α)) (key : String) (value : α) :
    Latest (actions ++ [.set key value]) key value :=
  ⟨actions, [], rfl, fun _ h => absurd h List.not_mem_nil⟩

theorem Older.append {events : List (Event α)} {key other : String} (h : Older events key other)
    {e : Event α} (he : e.touched? ≠ some key) : Older (events ++ [e]) key other := by
  obtain ⟨before, touch, after, rfl, htouch, hafter⟩ := h
  refine ⟨before, touch, after ++ [e], by simp, htouch, ?_⟩
  intro later hlater
  rcases List.mem_append.mp hlater with hlater | hlater
  · exact hafter later hlater
  · rw [List.mem_singleton.mp hlater]
    exact he

/-- A key that has just been touched is touched later than any other. -/
theorem older_append (events : List (Event α)) (key : String) {e : Event α} {other : String}
    (he : e.touched? = some other) : Older (events ++ [e]) key other :=
  ⟨events, e, [], rfl, he, fun _ h => absurd h List.not_mem_nil⟩

theorem mem_others {key other : String} {events : List (Event α)} :
    other ∈ others key events ↔ other ≠ key ∧ ∃ e ∈ events, e.touched? = some other := by
  unfold others
  simp only [List.mem_dedup, List.mem_filter, List.mem_filterMap, decide_eq_true_eq]
  exact and_comm

theorem others_append_subset (key : String) (events more : List (Event α)) :
    others key events ⊆ others key (events ++ more) := by
  intro other h
  obtain ⟨hne, e, he, htouch⟩ := mem_others.mp h
  exact mem_others.mpr ⟨hne, e, List.mem_append_left more he, htouch⟩

/-- More events touch no fewer keys. -/
theorem length_others_le (key : String) (events more : List (Event α)) :
    (others key events).length ≤ (others key (events ++ more)).length :=
  (List.subperm_of_subset (List.nodup_dedup _) (others_append_subset key events more)).length_le

/-! ## Entries -/

/-- The value under a key, without using its entry. -/
def peek? (c : Cache α) (key : String) : Option α := c.entries.lookup key

/-- A key is there with the value of its entry. -/
theorem peek?_eq_some_iff {c : Cache α} {key : String} {value : α} :
    c.peek? key = some value ↔ (key, value) ∈ c.entries := by
  unfold peek?
  rw [List.lookup_eq_some_iff]
  constructor
  · rintro ⟨before, after, hentries, -⟩
    rw [hentries]
    exact List.mem_append_right before List.mem_cons_self
  · intro h
    obtain ⟨before, after, hentries⟩ := List.append_of_mem h
    refine ⟨before, after, hentries, ?_⟩
    -- A key in front of the entry would stand in the cache twice.
    have hnodup := c.nodup
    rw [hentries, List.map_append, List.map_cons] at hnodup
    intro entry hentry
    have hne := (List.nodup_append.mp hnodup).2.2 entry.1 (List.mem_map_of_mem hentry) key
      List.mem_cons_self
    simpa using fun heq : key = entry.1 => hne heq.symm

theorem peek?_ne_none_iff {c : Cache α} {key : String} :
    c.peek? key ≠ none ↔ key ∈ c.entries.map Prod.fst := by
  rw [Option.ne_none_iff_exists', List.mem_map]
  constructor
  · rintro ⟨value, h⟩
    exact ⟨(key, value), peek?_eq_some_iff.mp h, rfl⟩
  · rintro ⟨⟨_, value⟩, hentry, rfl⟩
    exact ⟨value, peek?_eq_some_iff.mpr hentry⟩

theorem mem_without {key : String} {entries : List (String × α)} {entry : String × α} :
    entry ∈ without key entries ↔ entry ∈ entries ∧ entry.1 ≠ key := by
  unfold without
  rw [List.mem_filter, decide_eq_true_eq]

/-- Entries of other keys stay as they are. -/
theorem without_eq_self {c : Cache α} {key : String} (h : c.peek? key = none) :
    without key c.entries = c.entries := by
  refine List.filter_eq_self.mpr ?_
  intro entry hentry
  have hne : entry.1 ≠ key := by
    rintro rfl
    exact peek?_ne_none_iff.mpr (List.mem_map_of_mem hentry) h
  simpa using hne

/-- A key that is there makes room for itself. -/
theorem length_without_lt {c : Cache α} {key : String} (h : c.peek? key ≠ none) :
    (without key c.entries).length < c.entries.length := by
  obtain ⟨entry, hentry, hkey⟩ := List.mem_map.mp (peek?_ne_none_iff.mp h)
  exact List.length_filter_lt_length_iff_exists.mpr ⟨entry, hentry, by simpa using hkey⟩

/-- With room for it, an entry comes in front of the others. -/
theorem entries_put_of_room {c : Cache α} {key : String} {value : α}
    (h : c.peek? key ≠ none ∨ c.size < c.capacity) :
    (c.put key value).entries = (key, value) :: without key c.entries := by
  refine List.take_of_length_le ?_
  rw [List.length_cons]
  rcases h with hthere | hroom
  · have hlt := length_without_lt hthere
    have hle := c.length_le
    omega
  · have hle : (without key c.entries).length ≤ c.entries.length := List.length_filter_le _ _
    unfold size at hroom
    omega

/-- A new entry in a full cache takes the place of the last one. -/
theorem entries_put_of_full {c : Cache α} {key : String} {value : α} (h : c.peek? key = none)
    (hfull : c.size = c.capacity) :
    (c.put key value).entries = (key, value) :: c.entries.dropLast := by
  have hpos := c.capacity_pos
  show ((key, value) :: without key c.entries).take c.capacity = _
  rw [without_eq_self h, ← hfull, List.dropLast_eq_take]
  unfold size
  obtain ⟨n, hn⟩ : ∃ n, c.entries.length = n + 1 :=
    Nat.exists_eq_add_one.mpr (by unfold size at hfull; omega)
  rw [hn, List.take_succ_cons, Nat.add_sub_cancel]

/-! ## One action -/

/-- A lookup that finds a key puts its entry in again. -/
theorem act_get_of_some {c : Cache α} {key : String} {value : α}
    (h : c.peek? key = some value) : c.act (.get key) = (.found (some value), c.put key value) := by
  show (Answer.found (c.get key).1, (c.get key).2) = _
  unfold get
  unfold peek? at h
  rw [h]

/-- A lookup that finds nothing leaves the cache as it is. -/
theorem act_get_of_none {c : Cache α} {key : String} (h : c.peek? key = none) :
    c.act (.get key) = (.found none, c) := by
  show (Answer.found (c.get key).1, (c.get key).2) = _
  unfold get
  unfold peek? at h
  rw [h]

/-- **All that an action can do**: it touches a key, whose entry comes to the front; or it touches
none, and takes out what it discards. -/
theorem act_cases (c : Cache α) (a : Action α) :
    (∃ key value, (c.event a).touched? = some key ∧ (c.act a).2 = c.put key value ∧
      (a = .set key value ∨ a = .get key ∧ c.peek? key = some value)) ∨
    ((c.event a).touched? = none ∧ (c.act a).2.capacity = c.capacity ∧
      (c.act a).2.entries = c.entries.filter fun entry => !a.discards entry.1) := by
  cases a with
  | get key =>
    unfold event
    cases hpeek : c.peek? key with
    | some value =>
      rw [act_get_of_some hpeek]
      exact .inl ⟨key, value, rfl, rfl, .inr ⟨rfl, hpeek⟩⟩
    | none =>
      rw [act_get_of_none hpeek]
      exact .inr ⟨rfl, rfl, by simp [Action.discards]⟩
  | set key value => exact .inl ⟨key, value, rfl, rfl, .inl rfl⟩
  | has key => exact .inr ⟨rfl, rfl, by simp [act, Action.discards]⟩
  | delete key =>
    refine .inr ⟨rfl, rfl, List.filter_congr ?_⟩
    intro entry _
    simp [Action.discards, eq_comm]
  | clear => exact .inr ⟨rfl, rfl, by simp [act, clear, empty, Action.discards]⟩
  | size => exact .inr ⟨rfl, rfl, by simp [act, Action.discards]⟩
  | capacity => exact .inr ⟨rfl, rfl, by simp [act, Action.discards]⟩

theorem capacity_act (c : Cache α) (a : Action α) : (c.act a).2.capacity = c.capacity := by
  rcases act_cases c a with ⟨key, value, -, hact, -⟩ | ⟨-, hcapacity, -⟩
  · rw [hact]
    rfl
  · exact hcapacity

/-- Asking leaves the cache as it is. -/
theorem act_of_asks {c : Cache α} {a : Action α} (h : a.asks = true) : (c.act a).2 = c := by
  cases a with
  | has key => rfl
  | size => rfl
  | capacity => rfl
  | get key => cases h
  | set key value => cases h
  | delete key => cases h
  | clear => cases h

/-- What puts a value in touches its key. -/
theorem sets_of_untouched {c : Cache α} {a : Action α} (h : (c.event a).touched? = none)
    (key : String) : a.sets key = false := by
  cases a with
  | set => cases h
  | get => rfl
  | has => rfl
  | delete => rfl
  | clear => rfl
  | size => rfl
  | capacity => rfl

/-- An entry of a cache after a `put` is the new one, or an old one that has another key. -/
theorem mem_put_cases {c : Cache α} {key : String} {value : α} {entry : String × α}
    (h : entry ∈ (c.put key value).entries) :
    entry = (key, value) ∨ entry ∈ c.entries ∧ entry.1 ≠ key := by
  rcases List.mem_cons.mp (List.mem_of_mem_take h) with heq | hold
  · exact .inl heq
  · exact .inr (mem_without.mp hold)

/-! ## The order of entries -/

/-- **What the entries of a cache say about its history.** -/
structure Records (events : List (Event α)) (c : Cache α) : Prop where
  /-- Entries stand in the order in which they were last touched. -/
  ordered : c.entries.Pairwise fun newer older => Older events older.1 newer.1
  /-- The value of an entry is the one that was put in last under its key. -/
  latest : c.Holds (Latest (events.map Event.action))

theorem records_empty (capacity : Nat) (h : 0 < capacity) :
    Records [] (empty capacity h : Cache α) :=
  ⟨.nil, holds_empty capacity h⟩

/-- One action keeps the order of the entries: what it touches comes to the front, and is touched
later than anything else. -/
theorem Records.ordered_act {events : List (Event α)} {c : Cache α} (h : Records events c)
    (a : Action α) : (c.act a).2.entries.Pairwise fun newer older =>
      Older (events ++ [c.event a]) older.1 newer.1 := by
  rcases act_cases c a with ⟨key, value, htouch, hact, -⟩ | ⟨htouch, -, hentries⟩
  · rw [hact]
    refine List.Pairwise.sublist (List.take_sublist _ _) (List.pairwise_cons.mpr ⟨?_, ?_⟩)
    · intro entry _
      exact older_append events entry.1 htouch
    · refine (h.ordered.sublist List.filter_sublist).imp_of_mem ?_
      intro newer older _ holder hold
      have hne := (mem_without.mp holder).2
      refine hold.append ?_
      rw [htouch]
      simpa using hne.symm
  · rw [hentries]
    refine (h.ordered.sublist List.filter_sublist).imp ?_
    intro newer older hold
    refine hold.append ?_
    rw [htouch]
    simp

/-- One action keeps the values of the entries the latest: what it puts in is, and what it finds
was already. -/
theorem Records.latest_act {events : List (Event α)} {c : Cache α} (h : Records events c)
    (a : Action α) :
    (c.act a).2.Holds (Latest ((events ++ [c.event a]).map Event.action)) := by
  have hactions : (events ++ [c.event a]).map Event.action = events.map Event.action ++ [a] := by
    simp [event]
  rw [hactions]
  intro entry hentry
  rcases act_cases c a with ⟨key, value, -, hact, hcause⟩ | ⟨htouch, -, hentries⟩
  · rw [hact] at hentry
    rcases mem_put_cases hentry with rfl | ⟨hold, hne⟩
    · rcases hcause with rfl | ⟨rfl, hpeek⟩
      · exact latest_append_set _ key value
      · exact (h.latest _ (peek?_eq_some_iff.mp hpeek)).append rfl rfl
    · rcases hcause with rfl | ⟨rfl, -⟩
      · exact (h.latest entry hold).append (by simpa [Action.sets] using hne.symm) rfl
      · exact (h.latest entry hold).append rfl rfl
  · rw [hentries, List.mem_filter] at hentry
    refine (h.latest entry hentry.1).append (sets_of_untouched htouch entry.1) ?_
    simpa using hentry.2

/-- **One action** keeps the order of the entries, and their values the latest. -/
theorem Records.act {events : List (Event α)} {c : Cache α} (h : Records events c)
    (a : Action α) : Records (events ++ [c.event a]) (c.act a).2 :=
  ⟨h.ordered_act a, h.latest_act a⟩

/-- **A history of any length** leaves a cache whose entries record it. -/
theorem Records.run {events : List (Event α)} {c : Cache α} (h : Records events c)
    (actions : List (Action α)) : Records (events ++ (c.run actions).1) (c.run actions).2 := by
  induction actions generalizing events c with
  | nil =>
    rw [Cache.run, List.append_nil]
    exact h
  | cons a actions ih =>
    have hrest := ih (h.act a)
    rw [List.append_assoc, List.singleton_append] at hrest
    exact hrest

theorem capacity_run (c : Cache α) (actions : List (Action α)) :
    (c.run actions).2.capacity = c.capacity := by
  induction actions generalizing c with
  | nil => rfl
  | cons a actions ih =>
    show ((c.act a).2.run actions).2.capacity = c.capacity
    rw [ih, capacity_act]

/-! ## What is dropped -/

/-- In a full cache a new key takes the place of the one at the back, and of no other. -/
theorem peek?_put_of_full {c : Cache α} {key : String} (value : α) (h : c.peek? key = none)
    (hfull : c.size = c.capacity) {front : List (String × α)} {last : String} {old : α}
    (hentries : c.entries = front ++ [(last, old)]) (other : String) :
    (c.put key value).peek? other =
      if other = key then some value else if other = last then none else c.peek? other := by
  have hput : (c.put key value).entries = (key, value) :: front := by
    rw [entries_put_of_full h hfull, hentries, List.dropLast_concat]
  unfold peek?
  rw [hput, List.lookup_cons]
  by_cases hkey : other = key
  · rw [if_pos hkey, hkey]
    simp
  · have hnot : (other == key) = false := by simpa using hkey
    rw [if_neg hkey, hnot]
    simp only
    by_cases hlast : other = last
    · rw [if_pos hlast, hlast]
      -- The key at the back stands in the cache once.
      have hnodup := c.nodup
      rw [hentries, List.map_append] at hnodup
      rw [List.lookup_eq_none_iff]
      intro entry hentry
      have hne := (List.nodup_append.mp hnodup).2.2 entry.1 (List.mem_map_of_mem hentry) last
        List.mem_cons_self
      simpa using fun heq : last = entry.1 => hne heq.symm
    · have hmiss : (other == last) = false := by simpa using hlast
      rw [if_neg hlast, hentries, List.lookup_append, List.lookup_cons, hmiss]
      simp

/-- **A full cache drops the key whose last touch is the oldest**, and that key alone. -/
theorem Records.evicts {events : List (Event α)} {c : Cache α} (h : Records events c)
    {key : String} (value : α) (habsent : c.peek? key = none) (hfull : c.size = c.capacity) :
    ∃ oldest, c.peek? oldest ≠ none ∧
      (∀ other, c.peek? other ≠ none → other ≠ oldest → Older events oldest other) ∧
      ∀ other, (c.act (.set key value)).2.peek? other =
        if other = key then some value else if other = oldest then none else c.peek? other := by
  have hne : c.entries ≠ [] := by
    rintro hnil
    have hpos := c.capacity_pos
    unfold size at hfull
    rw [hnil, List.length_nil] at hfull
    omega
  obtain ⟨front, last, hentries⟩ : ∃ front last, c.entries = front ++ [last] :=
    ⟨c.entries.dropLast, c.entries.getLast hne, (List.dropLast_append_getLast hne).symm⟩
  have hordered := h.ordered
  rw [hentries] at hordered
  refine ⟨last.1, ?_, ?_, peek?_put_of_full value habsent hfull hentries⟩
  · rw [peek?_ne_none_iff, hentries]
    simp
  · intro other hother hdiffers
    obtain ⟨entry, hentry, rfl⟩ := List.mem_map.mp (peek?_ne_none_iff.mp hother)
    rw [hentries] at hentry
    rcases List.mem_append.mp hentry with hfront | hback
    · exact (List.pairwise_append.mp hordered).2.2 entry hfront last List.mem_cons_self
    · rw [List.mem_singleton.mp hback] at hdiffers
      exact absurd rfl hdiffers

/-- **Nothing else is dropped**: a key stays unless it is discarded, or a new one comes into a full
cache. -/
theorem peek?_act_ne_none {c : Cache α} {a : Action α}
    (hroom : ∀ key value, a = .set key value → c.peek? key ≠ none ∨ c.size < c.capacity)
    {key : String} (hkept : a.discards key = false) (h : c.peek? key ≠ none) :
    (c.act a).2.peek? key ≠ none := by
  rw [peek?_ne_none_iff] at h ⊢
  rcases act_cases c a with ⟨touched, value, -, hact, hcause⟩ | ⟨-, -, hentries⟩
  · have hfits : c.peek? touched ≠ none ∨ c.size < c.capacity := by
      rcases hcause with rfl | ⟨-, hpeek⟩
      · exact hroom touched value rfl
      · exact .inl (by simp [hpeek])
    rw [hact, entries_put_of_room hfits, List.map_cons, List.mem_cons]
    by_cases heq : key = touched
    · exact .inl heq
    · obtain ⟨entry, hentry, rfl⟩ := List.mem_map.mp h
      exact .inr (List.mem_map_of_mem (mem_without.mpr ⟨hentry, heq⟩))
  · obtain ⟨entry, hentry, rfl⟩ := List.mem_map.mp h
    rw [hentries]
    exact List.mem_map_of_mem (List.mem_filter.mpr ⟨hentry, by simp [hkept]⟩)

/-! ## What stays -/

/-- **A key is held**: it is there, and only keys that were touched meanwhile stand in front of
it. -/
def Held (key : String) (events : List (Event α)) (c : Cache α) : Prop :=
  ∃ ahead value behind, c.entries = ahead ++ (key, value) :: behind ∧
    ∀ entry ∈ ahead, entry.1 ∈ others key events

theorem Held.peek?_ne_none {key : String} {events : List (Event α)} {c : Cache α}
    (h : Held key events c) : c.peek? key ≠ none := by
  obtain ⟨ahead, value, behind, hentries, -⟩ := h
  rw [peek?_ne_none_iff, hentries]
  simp

/-- A key is held from the moment on when it is touched. -/
theorem held_put (events : List (Event α)) (c : Cache α) (key : String) (value : α) :
    Held key events (c.put key value) := by
  obtain ⟨n, hn⟩ : ∃ n, c.capacity = n + 1 := Nat.exists_eq_add_one.mpr c.capacity_pos
  refine ⟨[], value, (without key c.entries).take n, ?_, fun _ h => absurd h List.not_mem_nil⟩
  show ((key, value) :: without key c.entries).take c.capacity = _
  rw [hn, List.take_succ_cons]
  rfl

theorem held_of_touched {c : Cache α} {a : Action α} {key : String}
    (h : (c.event a).touched? = some key) (events : List (Event α)) :
    Held key events (c.act a).2 := by
  rcases act_cases c a with ⟨touched, value, htouch, hact, -⟩ | ⟨htouch, -, -⟩
  · rw [h] at htouch
    cases htouch
    rw [hact]
    exact held_put events c key value
  · rw [h] at htouch
    cases htouch

/-- Entries of distinct keys, all of them touched, are no more than the keys that were touched. -/
theorem length_le_others {key : String} {events : List (Event α)} {entries : List (String × α)}
    (hdistinct : (entries.map Prod.fst).Nodup)
    (hmembers : ∀ entry ∈ entries, entry.1 ∈ others key events) :
    entries.length ≤ (others key events).length := by
  have hsubset : entries.map Prod.fst ⊆ others key events := by
    intro other hother
    obtain ⟨entry, hentry, rfl⟩ := List.mem_map.mp hother
    exact hmembers entry hentry
  have hle := (List.subperm_of_subset hdistinct hsubset).length_le
  rwa [List.length_map] at hle

/-- Where another key is touched, a held key moves back by at most one place. While few other keys
are touched, that place is there. -/
theorem Held.put {key : String} {events : List (Event α)} {c : Cache α} (h : Held key events c)
    {e : Event α} {touched : String} (value : α) (htouch : e.touched? = some touched)
    (hne : touched ≠ key) (hfew : (others key (events ++ [e])).length < c.capacity) :
    Held key (events ++ [e]) (c.put touched value) := by
  obtain ⟨ahead, kept, behind, hentries, hahead⟩ := h
  have hnew : touched ∈ others key (events ++ [e]) :=
    mem_others.mpr ⟨hne, e, List.mem_append_right events List.mem_cons_self, htouch⟩
  have hwithout : without touched c.entries =
      without touched ahead ++ (key, kept) :: without touched behind := by
    rw [hentries]
    unfold without
    rw [List.filter_append, List.filter_cons_of_pos (by simpa using hne.symm)]
  have hmembers : ∀ entry ∈ (touched, value) :: without touched ahead,
      entry.1 ∈ others key (events ++ [e]) := by
    intro entry hentry
    rcases List.mem_cons.mp hentry with rfl | hold
    · exact hnew
    · exact others_append_subset key events [e] (hahead entry (mem_without.mp hold).1)
  -- The keys in front are distinct, so there are no more of them than other keys were touched.
  have hdistinct : (((touched, value) :: without touched ahead).map Prod.fst).Nodup := by
    have hnodup := c.nodup
    rw [hentries, List.map_append] at hnodup
    rw [List.map_cons, List.nodup_cons]
    exact ⟨not_mem_without touched ahead,
      (List.nodup_append.mp hnodup).1.sublist (List.filter_sublist.map _)⟩
  have hlength := length_le_others hdistinct hmembers
  obtain ⟨n, hn⟩ : ∃ n, c.capacity - ((touched, value) :: without touched ahead).length = n + 1 :=
    Nat.exists_eq_add_one.mpr (by omega)
  refine ⟨(touched, value) :: without touched ahead, kept, (without touched behind).take n, ?_,
    hmembers⟩
  show ((touched, value) :: without touched c.entries).take c.capacity = _
  rw [hwithout, ← List.cons_append, List.take_append, List.take_of_length_le (by omega), hn,
    List.take_succ_cons]

/-- **One action** does not lose a held key, unless it discards it or touches one key too many. -/
theorem Held.act {key : String} {events : List (Event α)} {c : Cache α} (h : Held key events c)
    {a : Action α} (hkept : a.discards key = false)
    (hfew : (others key (events ++ [c.event a])).length < c.capacity) :
    Held key (events ++ [c.event a]) (c.act a).2 := by
  rcases act_cases c a with ⟨touched, value, htouch, hact, -⟩ | ⟨-, -, hentries⟩
  · rw [hact]
    by_cases heq : touched = key
    · rw [heq]
      exact held_put _ c key value
    · exact h.put value htouch heq hfew
  · obtain ⟨ahead, value, behind, hsplit, hahead⟩ := h
    refine ⟨ahead.filter fun entry => !a.discards entry.1, value,
      behind.filter fun entry => !a.discards entry.1, ?_, ?_⟩
    · rw [hentries, hsplit, List.filter_append, List.filter_cons_of_pos (by simp [hkept])]
    · intro entry hentry
      exact others_append_subset key events _ (hahead entry (List.mem_filter.mp hentry).1)

/-- **A history that touches few other keys** does not lose a held key. -/
theorem Held.run {key : String} {events : List (Event α)} {c : Cache α} (h : Held key events c)
    {actions : List (Action α)} (hkept : ∀ a ∈ actions, a.discards key = false)
    (hfew : (others key (events ++ (c.run actions).1)).length < c.capacity) :
    Held key (events ++ (c.run actions).1) (c.run actions).2 := by
  induction actions generalizing events c with
  | nil =>
    rw [Cache.run, List.append_nil]
    exact h
  | cons a actions ih =>
    rw [List.forall_mem_cons] at hkept
    have hsplit : events ++ (c.run (a :: actions)).1 =
        events ++ [c.event a] ++ ((c.act a).2.run actions).1 := by
      rw [List.append_assoc]
      rfl
    rw [hsplit] at hfew ⊢
    have hfirst := length_others_le key (events ++ [c.event a]) ((c.act a).2.run actions).1
    refine ih (h.act hkept.1 (by omega)) hkept.2 ?_
    rw [capacity_act]
    exact hfew

/-- An event of a history, and what led to it and followed it. -/
theorem exists_split_run {c : Cache α} {actions : List (Action α)} {before after : List (Event α)}
    {e : Event α} (h : (c.run actions).1 = before ++ e :: after) :
    ∃ c' a later, e = Cache.event c' a ∧ c'.capacity = c.capacity ∧
      after = ((c'.act a).2.run later).1 ∧ (c.run actions).2 = ((c'.act a).2.run later).2 := by
  induction before generalizing c actions with
  | nil =>
    cases actions with
    | nil => cases h
    | cons a actions =>
      obtain ⟨he, hafter⟩ := List.cons.inj h
      exact ⟨c, a, actions, he.symm, rfl, hafter.symm, rfl⟩
  | cons first before ih =>
    cases actions with
    | nil => cases h
    | cons a actions =>
      obtain ⟨c', b, later, he, hcapacity, hafter, hlast⟩ := ih (List.cons.inj h).2
      exact ⟨c', b, later, he, hcapacity.trans (capacity_act c a), hafter, hlast⟩

theorem map_action_run (c : Cache α) (actions : List (Action α)) :
    (c.run actions).1.map Event.action = actions := by
  induction actions generalizing c with
  | nil => rfl
  | cons a actions ih =>
    show a :: ((c.act a).2.run actions).1.map Event.action = a :: actions
    rw [ih]

/-- **A key that was touched stays** while fewer other keys are touched than there is room for. -/
theorem retains_run {c : Cache α} {actions : List (Action α)} {before after : List (Event α)}
    {e : Event α} (h : (c.run actions).1 = before ++ e :: after) {key : String}
    (htouch : e.touched? = some key) (hkept : ∀ later ∈ after, later.action.discards key = false)
    (hfew : (others key after).length < c.capacity) : (c.run actions).2.peek? key ≠ none := by
  obtain ⟨c', a, later, rfl, hcapacity, rfl, hlast⟩ := exists_split_run h
  have hactions : ∀ b ∈ later, b.discards key = false := by
    intro b hb
    rw [← map_action_run (c'.act a).2 later] at hb
    obtain ⟨e, he, rfl⟩ := List.mem_map.mp hb
    exact hkept e he
  have hheld : Held key [] (c'.act a).2 := held_of_touched htouch []
  have hend := hheld.run hactions (by rw [List.nil_append, capacity_act, hcapacity]; exact hfew)
  rw [hlast]
  exact hend.peek?_ne_none

/-! ## Promises -/

/-- **What a cache of a given capacity promises** after events that led to it. -/
structure KeepsRecent (capacity : Nat) (events : List (Event α)) (c : Cache α) : Prop where
  /-- There are never more entries than there is room for. -/
  size_le : c.size ≤ capacity
  /-- What is found is what was put in last. -/
  latest : ∀ key value, (c.act (.get key)).1 = .found (some value) →
    Latest (events.map Event.action) key value
  /-- A new key in a full cache costs the key whose last touch is the oldest, and no other. -/
  evicts : ∀ key value, c.peek? key = none → c.size = capacity → ∃ oldest,
    c.peek? oldest ≠ none ∧
    (∀ other, c.peek? other ≠ none → other ≠ oldest → Older events oldest other) ∧
    ∀ other, (c.act (.set key value)).2.peek? other =
      if other = key then some value else if other = oldest then none else c.peek? other
  /-- Anything else costs only what it discards. -/
  keeps : ∀ a, (∀ key value, a = .set key value → c.peek? key ≠ none ∨ c.size < capacity) →
    ∀ key, a.discards key = false → c.peek? key ≠ none → (c.act a).2.peek? key ≠ none
  /-- A key that was touched stays while few other keys are touched. -/
  retains : ∀ before e after key, events = before ++ e :: after → e.touched? = some key →
    (∀ later ∈ after, later.action.discards key = false) →
    (others key after).length < capacity → c.peek? key ≠ none
  /-- Asking about the cache changes no later answer. -/
  silent : ∀ a, a.asks = true → ∀ later, ((c.act a).2.run later).1 = (c.run later).1

/-- **A cache holds what was touched last.** With room for at least one entry a cache is created,
and after every history of lookups, puts, questions, deletions and clearings it keeps its
promises. -/
theorem keepsRecent_run {capacity : Nat} (h : 0 < capacity) :
    ∃ c : Cache α, create capacity = .ok c ∧
      ∀ actions, KeepsRecent capacity (c.run actions).1 (c.run actions).2 := by
  have hcreate : create capacity = .ok (empty capacity h : Cache α) := by
    unfold create
    rw [dif_pos h]
  refine ⟨empty capacity h, hcreate, fun actions => ?_⟩
  have hcapacity : ((empty capacity h : Cache α).run actions).2.capacity = capacity :=
    capacity_run _ actions
  have hempty : Records [] (empty capacity h : Cache α) := records_empty capacity h
  have hrecords := hempty.run actions
  rw [List.nil_append] at hrecords
  generalize hrun : (empty capacity h : Cache α).run actions = out at hcapacity hrecords ⊢
  refine ⟨?_, ?_, ?_, ?_, ?_, ?_⟩
  · have hle := out.2.length_le
    rwa [hcapacity] at hle
  · intro key value hfound
    cases hpeek : out.2.peek? key with
    | none =>
      rw [act_get_of_none hpeek] at hfound
      cases hfound
    | some found =>
      rw [act_get_of_some hpeek] at hfound
      cases hfound
      exact hrecords.latest _ (peek?_eq_some_iff.mp hpeek)
  · intro key value habsent hfull
    exact hrecords.evicts value habsent (hfull.trans hcapacity.symm)
  · intro a hroom key hkept hpeek
    exact peek?_act_ne_none (by rwa [hcapacity]) hkept hpeek
  · intro before e after key hevents htouch hkept hfew
    rw [← hrun] at hevents ⊢
    exact retains_run hevents htouch hkept hfew
  · intro a hasks later
    rw [act_of_asks hasks]

/-- In a cache for two, a third key costs the one that was not looked up. -/
theorem keepsRecent_run_two : 0 < 2 ∧ ∃ c : Cache Nat, create 2 = .ok c ∧
    let out := c.run [.set "a" 1, .set "b" 2, .get "a", .set "c" 3]
    KeepsRecent 2 out.1 out.2 ∧ out.2.entries = [("c", 3), ("a", 1)] := by
  have hpos : 0 < 2 := by decide
  obtain ⟨c, hcreate, hkeeps⟩ := keepsRecent_run hpos
  have hempty : create 2 = .ok (empty 2 hpos : Cache Nat) := rfl
  obtain rfl : empty 2 hpos = c := Except.ok.inj (hempty.symm.trans hcreate)
  exact ⟨hpos, _, hcreate, hkeeps _, rfl⟩

end TypedTemplate.Cache
