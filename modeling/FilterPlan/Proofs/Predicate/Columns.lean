import FilterPlan.Proofs.Predicate.Numbering

/-!
# Columns of predicates, and renaming

The predicate of a filter reads the one column that the filter was compiled for (`mem_columns_numbered`). The names in a
predicate or a join can be exchanged, those of parameters and those of joined entities (`Predicate.rename`,
`Join.rename`); to rename consecutive parameters to consecutive parameters is to number them from another place on
(`rename_numbered`).
-/

namespace FilterPlan

open ParamTable

/-! ## Columns -/

namespace Predicate

mutual

/-- The columns that the predicate reads, in the order of the query text. -/
def columns : Predicate → List Column
  | compare column _ _ => [column]
  | oneOf column _ _ => [column]
  | between column _ _ _ => [column]
  | like column _ _ _ => [column]
  | isNull column _ => [column]
  | near column _ _ _ _ => [column]
  | group _ children => columnsOfAll children

/-- The columns that several predicates read, in order. -/
def columnsOfAll : List Predicate → List Column
  | [] => []
  | p :: rest => p.columns ++ columnsOfAll rest

end

end Predicate

namespace Filter

theorem columns_numberedComparison (column : Column) (op : Operator) (negated : Bool) (count n : Nat) :
    (numberedComparison column op negated count n).columns = [column] := by
  cases op <;> rfl

theorem mem_columnsOfAll_numberedAll {column c : Column} : ∀ {children : List Filter},
    (∀ f ∈ children, ∀ n, c ∈ (f.numbered column n).columns ↔ c = column) →
    ∀ n, c ∈ Predicate.columnsOfAll (numberedAll column children n) ↔ children ≠ [] ∧ c = column
  | [], _, n => by simp [numberedAll, Predicate.columnsOfAll]
  | f :: rest, h, n => by
    have hrest := mem_columnsOfAll_numberedAll fun f' (hf : f' ∈ rest) => h f' (List.mem_cons_of_mem f hf)
    rw [numberedAll, Predicate.columnsOfAll, List.mem_append, h f List.mem_cons_self, hrest]
    constructor
    · rintro (rfl | ⟨-, rfl⟩) <;> exact ⟨List.cons_ne_nil _ _, rfl⟩
    · exact fun hc => Or.inl hc.2

/-- A predicate reads the column of its filter and no other. -/
theorem mem_columns_numbered {f : Filter} (h : f.WellFormed) {column c : Column} :
    ∀ n, c ∈ (f.numbered column n).columns ↔ c = column := by
  induction h with
  | comparison =>
    intro n
    rw [numbered, columns_numberedComparison, List.mem_singleton]
  | group hne _ ih =>
    intro n
    rw [numbered, Predicate.columns, mem_columnsOfAll_numberedAll ih]
    exact and_iff_right hne

end Filter

/-! ## Renaming -/

/-- The column, read through the entity with another alias. -/
def Column.rename (aliasOf : Text → Text) (c : Column) : Column :=
  { c with via? := c.via?.map aliasOf }

/-- The join with other aliases. -/
def Join.rename (aliasOf : Text → Text) (j : Join) : Join :=
  { j with aliasName := aliasOf j.aliasName, source := j.source.rename aliasOf }

namespace Predicate

variable (paramOf aliasOf : Text → Text)

mutual

/-- The predicate with other parameter names and other aliases. -/
def rename : Predicate → Predicate
  | compare column op param => compare (column.rename aliasOf) op (paramOf param)
  | oneOf column negated params => oneOf (column.rename aliasOf) negated (params.map paramOf)
  | between column negated low high => between (column.rename aliasOf) negated (paramOf low) (paramOf high)
  | like column negated ignoreCase param => like (column.rename aliasOf) negated ignoreCase (paramOf param)
  | isNull column negated => isNull (column.rename aliasOf) negated
  | near column negated longitude latitude radius =>
    near (column.rename aliasOf) negated (paramOf longitude) (paramOf latitude) (paramOf radius)
  | group op children => group op (renameAll children)

/-- The predicates with other parameter names and other aliases. -/
def renameAll : List Predicate → List Predicate
  | [] => []
  | p :: rest => p.rename :: renameAll rest

end

end Predicate

/-! ## Renaming twice -/

section Composition

variable (paramOf paramOf' aliasOf aliasOf' : Text → Text)

theorem Column.rename_rename (c : Column) : (c.rename aliasOf).rename aliasOf' = c.rename (aliasOf' ∘ aliasOf) := by
  simp only [Column.rename, Option.map_map]

theorem Join.rename_rename (j : Join) : (j.rename aliasOf).rename aliasOf' = j.rename (aliasOf' ∘ aliasOf) := by
  simp only [Join.rename, Column.rename_rename, Function.comp_apply]

namespace Predicate

mutual

theorem rename_rename : ∀ p : Predicate, (p.rename paramOf aliasOf).rename paramOf' aliasOf' =
    p.rename (paramOf' ∘ paramOf) (aliasOf' ∘ aliasOf)
  | compare .. => by simp only [rename, Column.rename_rename, Function.comp_apply]
  | oneOf .. => by simp only [rename, Column.rename_rename, List.map_map]
  | between .. => by simp only [rename, Column.rename_rename, Function.comp_apply]
  | like .. => by simp only [rename, Column.rename_rename, Function.comp_apply]
  | isNull .. => by simp only [rename, Column.rename_rename]
  | near .. => by simp only [rename, Column.rename_rename, Function.comp_apply]
  | group _ children => by simp only [rename, renameAll_renameAll children]

theorem renameAll_renameAll : ∀ ps : List Predicate, renameAll paramOf' aliasOf' (renameAll paramOf aliasOf ps) =
    renameAll (paramOf' ∘ paramOf) (aliasOf' ∘ aliasOf) ps
  | [] => rfl
  | p :: rest => by simp only [renameAll, rename_rename p, renameAll_renameAll rest]

end

end Predicate

end Composition

/-! ## Renaming numbered predicates -/

namespace Filter

variable {paramOf aliasOf : Text → Text}

theorem map_namesFrom {n m count : Nat} (h : ∀ i < count, paramOf (nameAt (n + i)) = nameAt (m + i)) :
    (namesFrom n count).map paramOf = namesFrom m count := by
  simp only [namesFrom, List.range'_eq_map_range, List.map_map]
  exact List.map_congr_left fun i hi => h i (List.mem_range.mp hi)

theorem rename_numberedComparison {op : Operator} {args : List Literal} (h : op.Takes args) (column : Column)
    (negated : Bool) {n m : Nat} (hp : ∀ i < args.length, paramOf (nameAt (n + i)) = nameAt (m + i)) :
    (numberedComparison column op negated args.length n).rename paramOf aliasOf =
      numberedComparison (column.rename aliasOf) op negated args.length m := by
  cases op with
  | eq | gt | gte | lt | lte | like | ilike =>
    obtain ⟨operand, rfl⟩ := h
    have h₀ : paramOf (nameAt n) = nameAt m := hp 0 Nat.one_pos
    simp only [numberedComparison, Predicate.rename, h₀]
  | oneOf => simp only [numberedComparison, Predicate.rename, map_namesFrom hp]
  | between =>
    obtain ⟨low, high, rfl⟩ := h
    have h₀ : paramOf (nameAt n) = nameAt m := hp 0 (show 0 < 2 by decide)
    have h₁ : paramOf (nameAt (n + 1)) = nameAt (m + 1) := hp 1 (show 1 < 2 by decide)
    simp only [numberedComparison, Predicate.rename, h₀, h₁]
  | null => rfl
  | near =>
    obtain ⟨longitude, latitude, radius, rfl⟩ := h
    have h₀ : paramOf (nameAt n) = nameAt m := hp 0 (show 0 < 3 by decide)
    have h₁ : paramOf (nameAt (n + 1)) = nameAt (m + 1) := hp 1 (show 1 < 3 by decide)
    have h₂ : paramOf (nameAt (n + 2)) = nameAt (m + 2) := hp 2 (show 2 < 3 by decide)
    simp only [numberedComparison, Predicate.rename, h₀, h₁, h₂]

theorem renameAll_numberedAll {column : Column} : ∀ {children : List Filter},
    (∀ c ∈ children, ∀ n m, (∀ i < c.literals.length, paramOf (nameAt (n + i)) = nameAt (m + i)) →
      (c.numbered column n).rename paramOf aliasOf = c.numbered (column.rename aliasOf) m) →
    ∀ n m, (∀ i < (children.flatMap literals).length, paramOf (nameAt (n + i)) = nameAt (m + i)) →
      Predicate.renameAll paramOf aliasOf (numberedAll column children n) =
        numberedAll (column.rename aliasOf) children m
  | [], _, _, _, _ => rfl
  | f :: rest, h, n, m, hp => by
    rw [List.flatMap_cons, List.length_append] at hp
    have hfirst := h f List.mem_cons_self n m fun i hi => hp i (by omega)
    have hrest := renameAll_numberedAll (fun c (hc : c ∈ rest) => h c (List.mem_cons_of_mem f hc))
      (n + f.literals.length) (m + f.literals.length) fun i hi => by
        rw [Nat.add_assoc, Nat.add_assoc]
        exact hp _ (by omega)
    simp only [numberedAll, Predicate.renameAll, hfirst, hrest]

/-- A predicate whose parameters are renamed in step is that of the same filter, numbered from another place on. -/
theorem rename_numbered {f : Filter} (h : f.WellFormed) (column : Column) :
    ∀ n m, (∀ i < f.literals.length, paramOf (nameAt (n + i)) = nameAt (m + i)) →
      (f.numbered column n).rename paramOf aliasOf = f.numbered (column.rename aliasOf) m := by
  induction h with
  | comparison takes => exact fun n m hp => rename_numberedComparison takes column _ hp
  | group _ _ ih =>
    intro n m hp
    rw [literals, literalsOfAll_eq] at hp
    simp only [numbered, Predicate.rename, renameAll_numberedAll ih n m hp]

end Filter

end FilterPlan
