import FilterPlan.Request
import Mathlib.Data.List.Basic
import Mathlib.Data.List.Induction

/-!
# Requests and dictionaries in insertion order

A dictionary is determined by its keys in order and by their values (`Dict.entries_eq`). When entries are put one after
the other, the keys stand in the order in which they first came (`Dict.keys_ofList`), and each has the value that was
put last (`Dict.get?_ofList`). So it comes to the same to put each key once, at its first place and with its last value
(`Dict.ofList_gathered`). Requests are such dictionaries of trimmed values (`Request.ofList_ordered`).
-/

namespace FilterPlan

namespace Dict

variable {α β : Type}

/-! ## A dictionary from its keys and values -/

/-- Looking up each of different keys gives the list of entries back. -/
theorem filterMap_lookup {l : List (Text × α)} (h : (l.map Prod.fst).Nodup) :
    (l.map Prod.fst).filterMap (fun key => (l.lookup key).map fun value => (key, value)) = l := by
  induction l with
  | nil => rfl
  | cons e l ih =>
    rw [List.map_cons, List.nodup_cons] at h
    obtain ⟨hnew, hnodup⟩ := h
    have hsame : ∀ key ∈ l.map Prod.fst, ((e :: l).lookup key).map (fun value => (key, value)) =
        (l.lookup key).map fun value => (key, value) := by
      intro key hkey
      rw [lookup_cons_of_ne]
      rintro rfl
      exact hnew hkey
    rw [List.map_cons, List.filterMap_cons, lookup_cons_self, List.filterMap_congr hsame, ih hnodup]
    rfl

/-- The entries are the keys in order, each with its value. -/
theorem entries_eq (d : Dict α) : d.entries = d.keys.filterMap fun key => (d.get? key).map fun value => (key, value) :=
  (filterMap_lookup d.nodup_keys).symm

/-- Each key stands with its value. -/
theorem mem_entries_iff {d : Dict α} {key : Text} {value : α} : (key, value) ∈ d.entries ↔ d.get? key = some value := by
  rw [entries_eq, List.mem_filterMap]
  constructor
  · rintro ⟨key', -, h⟩
    obtain ⟨value', hvalue, he⟩ := Option.map_eq_some_iff.mp h
    cases he
    exact hvalue
  · intro h
    have hkey : key ∈ d.keys := by
      apply Classical.byContradiction
      intro hkey
      rw [get?_eq_none_iff.mpr hkey] at h
      cases h
    exact ⟨key, hkey, by rw [h, Option.map_some]⟩

/-! ## Entries put one after the other -/

/-- The value that comes last under the key. -/
def last? (l : List (Text × α)) (key : Text) : Option α :=
  (l.filter fun e => e.1 = key).getLast?.map Prod.snd

/-- Each key once, at its first place and with its last value. -/
def gathered (l : List (Text × α)) : List (Text × α) :=
  (l.map Prod.fst).eraseDups.filterMap fun key => (last? l key).map fun value => (key, value)

theorem last?_concat (l : List (Text × α)) (e : Text × α) (key : Text) :
    last? (l ++ [e]) key = if key = e.1 then some e.2 else last? l key := by
  unfold last?
  rw [List.filter_append]
  by_cases h : key = e.1
  · rw [if_pos h, List.filter_cons_of_pos (by simp [h]), List.filter_nil, List.getLast?_concat, Option.map_some]
  · rw [if_neg h, List.filter_cons_of_neg (by simpa using Ne.symm h), List.filter_nil, List.append_nil]

theorem last?_eq_none_iff {l : List (Text × α)} {key : Text} : last? l key = none ↔ key ∉ l.map Prod.fst := by
  rw [last?, Option.map_eq_none_iff, List.getLast?_eq_none_iff, List.filter_eq_nil_iff, List.mem_map, not_exists]
  refine forall_congr' fun e => ?_
  rw [decide_eq_true_eq, not_and]

theorem last?_map (f : α → β) (l : List (Text × α)) (key : Text) :
    last? (l.map fun e => (e.1, f e.2)) key = (last? l key).map f := by
  rw [last?, List.filter_map, List.getLast?_map, last?, Option.map_map, Option.map_map]
  rfl

theorem gathered_map (f : α → β) (l : List (Text × α)) :
    gathered (l.map fun e => (e.1, f e.2)) = (gathered l).map fun e => (e.1, f e.2) := by
  have hkeys : (l.map fun e => (e.1, f e.2)).map Prod.fst = l.map Prod.fst := List.map_map
  rw [gathered, gathered, hkeys, List.map_filterMap]
  refine congrArg (List.filterMap · _) (funext fun key => ?_)
  rw [last?_map, Option.map_map, Option.map_map]
  rfl

theorem ofList_concat (l : List (Text × α)) (e : Text × α) : ofList (l ++ [e]) = (ofList l).insert e.1 e.2 := by
  rw [ofList, List.foldl_append]
  rfl

/-- **The keys stand in the order in which they first came.** -/
theorem keys_ofList (l : List (Text × α)) : (ofList l).keys = (l.map Prod.fst).eraseDups := by
  induction l using List.reverseRecOn with
  | nil => rfl
  | append_singleton l e ih =>
    rw [ofList_concat, keys_insert, ih, List.map_append, List.eraseDups_append]
    by_cases h : e.1 ∈ l.map Prod.fst
    · rw [if_pos (List.mem_eraseDups.mpr h)]
      simp [List.removeAll, h]
    · rw [if_neg fun hmem => h (List.mem_eraseDups.mp hmem)]
      simp [List.removeAll, h, List.eraseDups_cons]

/-- **Each key has the value that was put last.** -/
theorem get?_ofList (l : List (Text × α)) (key : Text) : (ofList l).get? key = last? l key := by
  induction l using List.reverseRecOn with
  | nil => rfl
  | append_singleton l e ih => rw [ofList_concat, get?_insert, last?_concat, ih]

/-- What is there after all entries are put. -/
theorem entries_ofList (l : List (Text × α)) : (ofList l).entries = gathered l := by
  rw [entries_eq, keys_ofList]
  simp only [get?_ofList, gathered]

theorem putEntry_of_not_mem {key : Text} (value : α) {l : List (Text × α)} (h : key ∉ l.map Prod.fst) :
    putEntry key value l = l ++ [(key, value)] := by
  induction l with
  | nil => rfl
  | cons e l ih =>
    rw [List.map_cons, List.mem_cons, not_or] at h
    rw [putEntry, if_neg (Ne.symm h.1), ih h.2, List.cons_append]

/-- New keys are appended with their values. -/
theorem entries_foldl_insert : ∀ {l : List (Text × α)} {d : Dict α}, (d.keys ++ l.map Prod.fst).Nodup →
    (l.foldl (fun d e => d.insert e.1 e.2) d).entries = d.entries ++ l
  | [], d, _ => (List.append_nil d.entries).symm
  | e :: l, d, h => by
    have hnew : e.1 ∉ d.keys := by
      intro hmem
      exact (List.nodup_append.mp h).2.2 e.1 hmem e.1 List.mem_cons_self rfl
    have hentries : (d.insert e.1 e.2).entries = d.entries ++ [e] := putEntry_of_not_mem e.2 hnew
    rw [List.foldl_cons, entries_foldl_insert, hentries, List.append_assoc, List.singleton_append]
    rw [keys_insert, if_neg hnew, List.append_assoc]
    exact h

/-- A dictionary is what its entries give when they are put one after the other. -/
theorem ofList_entries (d : Dict α) : ofList d.entries = d := by
  apply Dict.ext
  exact entries_foldl_insert d.nodup_keys

/-- **Values that are put again later make no difference.** -/
theorem ofList_gathered (l : List (Text × α)) : ofList (gathered l) = ofList l := by
  rw [← entries_ofList, ofList_entries]

end Dict

namespace Request

/-! ## Parameters put one after the other -/

/-- The values are trimmed when they are put. -/
theorem params_ofList (l : List (Text × Text)) : (ofList l).params = Dict.ofList (l.map fun e => (e.1, e.2.trim)) := by
  induction l using List.reverseRecOn with
  | nil => rfl
  | append_singleton l e ih =>
    rw [List.map_append, List.map_singleton, Dict.ofList_concat, ← ih, ofList, List.foldl_append]
    rfl

/-- **A request is a map in insertion order.** The keys differ from each other and stand in the order in which they
first came. The value of a key is the trimmed one that was put last, and there is none only if the key was never put.
The entries are the keys with these values. It comes to the same to put each key once, at its first place and with its
last value. And a key is the one that was put only if it is the same text. -/
theorem ofList_ordered (l : List (Text × Text)) :
    ((ofList l).entries.map Prod.fst).Nodup ∧
    (ofList l).entries.map Prod.fst = (l.map Prod.fst).eraseDups ∧
    (∀ key, (ofList l).get? key = (Dict.last? l key).map Text.trim) ∧
    (∀ key, (ofList l).get? key = none ↔ key ∉ l.map Prod.fst) ∧
    (∀ key value, (key, value) ∈ (ofList l).entries ↔ (ofList l).get? key = some value) ∧
    ofList (Dict.gathered l) = ofList l ∧
    ∀ key value other, (ofList (l ++ [(key, value)])).get? other =
      if other = key then some value.trim else (ofList l).get? other := by
  have hget : ∀ (l : List (Text × Text)) key, (ofList l).get? key = (Dict.last? l key).map Text.trim := by
    intro l key
    rw [get?, params_ofList, Dict.get?_ofList, Dict.last?_map]
  have hkeys : (ofList l).entries.map Prod.fst = (l.map Prod.fst).eraseDups := by
    have htrim : (l.map fun e => (e.1, e.2.trim)).map Prod.fst = l.map Prod.fst := List.map_map
    rw [← htrim, ← Dict.keys_ofList, ← params_ofList]
    rfl
  refine ⟨(ofList l).params.nodup_keys, hkeys, hget l, fun key => ?_, fun key value => Dict.mem_entries_iff, ?_,
    fun key value other => ?_⟩
  · rw [hget, Option.map_eq_none_iff, Dict.last?_eq_none_iff]
  · apply Request.ext
    rw [params_ofList, params_ofList, ← Dict.gathered_map, Dict.ofList_gathered]
  · rw [hget, hget, Dict.last?_concat]
    split <;> rfl

/-- A key that is put again keeps its place, and one that differs in letter case or blanks is another one. -/
example : (ofList [("id", " GT(1) "), ("name", "EQ(a)"), ("ID", "EQ(2)"), ("id", "LT(5)"), ("id ", "EQ(3)")]).entries =
    ([("id", "LT(5)"), ("name", "EQ(a)"), ("ID", "EQ(2)"), ("id ", "EQ(3)")] : List (Text × Text)) := rfl

end Request

end FilterPlan
