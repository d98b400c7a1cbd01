import FilterPlan.Text.Basic

/-!
# Dictionaries in insertion order

`Dict α` maps texts to values and remembers the order in which the keys first came. Putting a key
again replaces its value where it stands. That the keys are distinct is part of the type.
-/

namespace FilterPlan

/-- Puts a value under a key: in the place of the key if it is there, at the end otherwise. -/
def putEntry {α : Type} (key : Text) (value : α) : List (Text × α) → List (Text × α)
  | [] => [(key, value)]
  | e :: rest => if e.1 = key then (key, value) :: rest else e :: putEntry key value rest

theorem mem_keys_putEntry {α : Type} {key k : Text} {value : α} {l : List (Text × α)} :
    k ∈ (putEntry key value l).map Prod.fst ↔ k = key ∨ k ∈ l.map Prod.fst := by
  induction l with
  | nil => simp [putEntry]
  | cons e rest ih =>
    unfold putEntry
    split
    · next h => simp [h]
    · simp only [List.map_cons, List.mem_cons, ih]
      exact or_left_comm

theorem nodup_keys_putEntry {α : Type} {key : Text} {value : α} {l : List (Text × α)}
    (h : (l.map Prod.fst).Nodup) : ((putEntry key value l).map Prod.fst).Nodup := by
  induction l with
  | nil => simp [putEntry]
  | cons e rest ih =>
    simp only [List.map_cons, List.nodup_cons] at h
    unfold putEntry
    split
    · next he => subst he; simpa using h
    · next he =>
      simp only [List.map_cons, List.nodup_cons, mem_keys_putEntry, not_or]
      exact ⟨⟨he, h.1⟩, ih h.2⟩

theorem lookup_cons_self {α : Type} (e : Text × α) (l : List (Text × α)) :
    (e :: l).lookup e.1 = some e.2 := by
  obtain ⟨k, a⟩ := e
  simp

theorem lookup_cons_of_ne {α : Type} {k : Text} {e : Text × α} {l : List (Text × α)} (h : k ≠ e.1) :
    (e :: l).lookup k = l.lookup k := by
  obtain ⟨k', a⟩ := e
  simp [List.lookup_cons, beq_eq_false_iff_ne.mpr h]

theorem lookup_putEntry {α : Type} (key k : Text) (value : α) (l : List (Text × α)) :
    (putEntry key value l).lookup k = if k = key then some value else l.lookup k := by
  induction l with
  | nil =>
    by_cases h : k = key
    · simp [putEntry, h]
    · rw [if_neg h, putEntry]
      exact lookup_cons_of_ne h
  | cons e rest ih =>
    unfold putEntry
    by_cases he : e.1 = key
    · by_cases h : k = key
      · simp [he, h]
      · rw [if_pos he, if_neg h, lookup_cons_of_ne h, lookup_cons_of_ne (fun hk => h (hk.trans he))]
    · by_cases h : k = e.1
      · subst h
        simp [he, lookup_cons_self]
      · rw [if_neg he, lookup_cons_of_ne h, lookup_cons_of_ne h, ih]

theorem keys_putEntry {α : Type} (key : Text) (value : α) (l : List (Text × α)) :
    (putEntry key value l).map Prod.fst =
      if key ∈ l.map Prod.fst then l.map Prod.fst else l.map Prod.fst ++ [key] := by
  induction l with
  | nil => simp [putEntry]
  | cons e rest ih =>
    unfold putEntry
    by_cases he : e.1 = key
    · simp [he]
    · rw [if_neg he, List.map_cons, ih, List.map_cons]
      by_cases h : key ∈ rest.map Prod.fst
      · simp [h]
      · simp [h, Ne.symm he]

/-- A map from texts to values that keeps the order in which its keys first came. -/
@[ext] structure Dict (α : Type) where
  /-- The keys with their values, in order. -/
  entries : List (Text × α) := []
  /-- No key stands twice. -/
  nodup_keys : (entries.map Prod.fst).Nodup := by simp

namespace Dict

variable {α : Type}

instance : Inhabited (Dict α) := ⟨{}⟩

/-- The keys, in order. -/
def keys (d : Dict α) : List Text :=
  d.entries.map Prod.fst

/-- The number of keys. -/
def size (d : Dict α) : Nat :=
  d.entries.length

/-- The value of a key. -/
def get? (d : Dict α) (key : Text) : Option α :=
  d.entries.lookup key

/-- Whether the key is there. -/
def contains (d : Dict α) (key : Text) : Bool :=
  (d.get? key).isSome

/-- Puts a value under a key; a key that is there already keeps its place. -/
def insert (d : Dict α) (key : Text) (value : α) : Dict α where
  entries := putEntry key value d.entries
  nodup_keys := nodup_keys_putEntry d.nodup_keys

/-- Putting a value changes the value of its key and of no other. -/
@[simp] theorem get?_insert (d : Dict α) (key k : Text) (value : α) :
    (d.insert key value).get? k = if k = key then some value else d.get? k :=
  lookup_putEntry key k value d.entries

/-- A new key stands last, and a key that is there keeps its place. -/
@[simp] theorem keys_insert (d : Dict α) (key : Text) (value : α) :
    (d.insert key value).keys = if key ∈ d.keys then d.keys else d.keys ++ [key] :=
  keys_putEntry key value d.entries

theorem get?_eq_none_iff {d : Dict α} {key : Text} : d.get? key = none ↔ key ∉ d.keys := by
  simp only [get?, keys, List.lookup_eq_none_iff, List.mem_map, bne_iff_ne, ne_eq, not_exists, not_and]
  exact ⟨fun h p hp e => h p hp e.symm, fun h p hp e => h p hp e.symm⟩

/-- Puts the entries one after the other: the last value of a key counts, at the key's first place. -/
def ofList (l : List (Text × α)) : Dict α :=
  l.foldl (fun d e => d.insert e.1 e.2) {}

/-- The entries in text order of their keys. -/
def sortedEntries (d : Dict α) : List (Text × α) :=
  d.entries.mergeSort fun a b => Text.precedes a.1 b.1

end Dict

end FilterPlan
