import FilterPlan.Param
import Mathlib.Data.List.Nodup

/-!
# Parameter tables

A table that has more values bound is an extension of the old one: `bind` and `bindAll` give consecutive names
(`namesFrom`) and an extension (`bind_eq`, `bindAll_eq`). What binding one value adds (`entries_bind`) determines what an
extension has (`entries_extend`). A name leads to the value in its place (`get?_nameAt`), and an extension answers every
name of the old table as before (`get?_extend`).
-/

namespace FilterPlan.ParamTable

/-! ## Consecutive names -/

/-- The names of `count` parameters in consecutive places, the first of which is `start`. -/
def namesFrom (start count : Nat) : List Text :=
  (List.range' start count).map nameAt

theorem namesFrom_succ (start count : Nat) :
    namesFrom start (count + 1) = nameAt start :: namesFrom (start + 1) count := by
  simp only [namesFrom, List.range'_succ, List.map_cons]

theorem namesFrom_add (start m n : Nat) : namesFrom start (m + n) = namesFrom start m ++ namesFrom (start + m) n := by
  simp only [namesFrom, ← List.map_append, List.range'_append_1]

theorem mem_namesFrom {name : Text} {start count : Nat} :
    name ∈ namesFrom start count ↔ ∃ i, start ≤ i ∧ i < start + count ∧ nameAt i = name := by
  simp only [namesFrom, List.mem_map, List.mem_range'_1, and_assoc]

theorem nodup_namesFrom (start count : Nat) : (namesFrom start count).Nodup :=
  List.Nodup.map (fun _ _ h => nameAt_injective h) List.nodup_range'

theorem namesFrom_zero_eq (count : Nat) : namesFrom 0 count = (List.range count).map nameAt := by
  rw [namesFrom, List.range_eq_range']

theorem nameAt_ne_nil (i : Nat) : nameAt i ≠ [] := List.cons_ne_nil _ _

/-! ## Extensions -/

/-- The values of a table, in binding order. -/
def values (table : ParamTable) : List ParamValue :=
  table.entries.map Prod.snd

/-- The table with more values bound behind its own. -/
def extend (table : ParamTable) (values : List ParamValue) : ParamTable :=
  values.foldl (fun table value => (table.bind value).2) table

section Extensions

variable (table : ParamTable)

@[simp] theorem extend_nil : table.extend [] = table := rfl

theorem extend_cons (value : ParamValue) (values : List ParamValue) :
    table.extend (value :: values) = (table.bind value).2.extend values := rfl

theorem extend_extend (values values' : List ParamValue) :
    (table.extend values).extend values' = table.extend (values ++ values') :=
  List.foldl_append.symm

theorem bind_eq (value : ParamValue) : table.bind value = (nameAt table.size, table.extend [value]) := rfl

@[simp] theorem size_extend (values : List ParamValue) : (table.extend values).size = table.size + values.length := by
  induction values generalizing table with
  | nil => rfl
  | cons value values ih => rw [extend_cons, ih, size_bind, List.length_cons, Nat.add_assoc, Nat.add_comm 1]

theorem bindAll_eq (values : List ParamValue) :
    table.bindAll values = (namesFrom table.size values.length, table.extend values) := by
  induction values generalizing table with
  | nil => rfl
  | cons value values ih =>
    simp only [bindAll, bind_eq, ih, size_extend, extend_extend, List.length_cons, List.length_nil, Nat.zero_add,
      namesFrom_succ, List.singleton_append]

theorem entries_extend (values : List ParamValue) : (table.extend values).entries =
    table.entries ++ (values.zipIdx table.size).map fun (value, i) => (nameAt i, value) := by
  induction values generalizing table with
  | nil => exact (List.append_nil _).symm
  | cons value values ih =>
    rw [extend_cons, ih, entries_bind, size_bind, List.append_assoc, List.zipIdx_cons]
    rfl

@[simp] theorem values_extend (values : List ParamValue) : (table.extend values).values = table.values ++ values := by
  have h : Prod.snd ∘ (fun p : ParamValue × Nat => (nameAt p.2, p.1)) = Prod.fst := rfl
  rw [ParamTable.values, entries_extend, List.map_append, List.map_map, h, List.zipIdx_map_fst]
  rfl

@[simp] theorem length_values : table.values.length = table.size := List.length_map _

end Extensions

/-! ## Names and places -/

/-- The names of a table, in order: no two entries share one. -/
theorem map_fst_entries (table : ParamTable) : table.entries.map Prod.fst = namesFrom 0 table.size := by
  rw [namesFrom_zero_eq]
  exact table.names_places

/-- Where names are consecutive, a name leads to the value in its place, counted from `start`. -/
theorem lookup_nameAt (i : Nat) : ∀ {entries : List (Text × ParamValue)} {start : Nat},
    entries.map Prod.fst = namesFrom start entries.length →
      entries.lookup (nameAt i) = if start ≤ i then (entries.map Prod.snd)[i - start]? else none
  | [], start, _ => by simp
  | (name, value) :: entries, start, h => by
    rw [List.length_cons, namesFrom_succ] at h
    obtain ⟨rfl, hrest⟩ := List.cons.inj h
    rw [List.map_cons]
    by_cases he : i = start
    · subst he
      simp
    · have hn : nameAt i ≠ nameAt start := fun e => he (nameAt_injective e)
      rw [List.lookup_cons, beq_eq_false_iff_ne.mpr hn]
      refine (lookup_nameAt i hrest).trans ?_
      by_cases hs : start + 1 ≤ i
      · rw [if_pos hs, if_pos (by omega), show i - start = i - (start + 1) + 1 by omega, List.getElem?_cons_succ]
      · rw [if_neg hs, if_neg (by omega)]

/-- A name leads to the value in its place. -/
theorem get?_nameAt (table : ParamTable) (i : Nat) : table.get? (nameAt i) = table.values[i]? := by
  rw [get?, lookup_nameAt i (map_fst_entries table), if_pos (Nat.zero_le i), Nat.sub_zero]
  rfl

theorem contains_iff {table : ParamTable} {name : Text} : table.contains name ↔ name ∈ namesFrom 0 table.size := by
  rw [contains, get?, List.lookup_isSome_iff, ← map_fst_entries, List.mem_map]
  constructor
  · rintro ⟨e, he, hn⟩
    exact ⟨e, he, (eq_of_beq hn).symm⟩
  · rintro ⟨e, he, rfl⟩
    exact ⟨e, he, beq_self_eq_true _⟩

/-- An extension answers the names of the table as the table does. -/
theorem get?_extend {table : ParamTable} {name : Text} {value : ParamValue} (values : List ParamValue)
    (h : table.get? name = some value) : (table.extend values).get? name = some value := by
  refine List.IsPrefix.lookup_eq_some ?_ h
  rw [entries_extend]
  exact List.prefix_append _ _

end FilterPlan.ParamTable
