import FilterPlan.Plan.Clauses
import FilterPlan.Proofs.Filter.Reading
import FilterPlan.Proofs.Predicate.Numbering

/-!
# The run over the filters of a request

Which keys have a column depends on the schema only (`Field.reaches`), so the parameters of a request that become
predicates are known before the run (`Clauses.reaching`). One step of the run adds nothing or one predicate
(`add_cases`); what holds of the start and is kept by such a step holds of the clauses of every request
(`ofParams_run`).
-/

namespace FilterPlan

/-- Whether a key addresses something that can be compared. -/
def Field.reaches (schema : Schema) (key : Text) : Bool :=
  match Field.resolve schema key {} with
  | .ok (field, _) => field.column?.isSome
  | .error _ => false

/-- Whether a key has a column does not depend on the numbers that are taken. -/
theorem Field.reaches_of_resolve {schema : Schema} {key : Text} {names names' : Names} {field : Field}
    (h : Field.resolve schema key names = .ok (field, names')) : Field.reaches schema key = field.column?.isSome := by
  unfold Field.resolve at h
  unfold Field.reaches Field.resolve
  by_cases h₁ : key = userKey ∧ schema.capabilities.usesOwnerAgent
  · rw [if_pos h₁] at h ⊢
    cases h
    rfl
  rw [if_neg h₁] at h ⊢
  by_cases h₂ : schema.isOwningRelation key
  · rw [if_pos h₂] at h ⊢
    cases h
    rfl
  rw [if_neg h₂] at h ⊢
  by_cases h₃ : schema.hasProperty key
  · rw [if_pos h₃] at h ⊢
    cases h
    rfl
  rw [if_neg h₃] at h ⊢
  by_cases h₄ : key = typeKey ∧ schema.capabilities.usesTypes
  · rw [if_pos h₄] at h ⊢
    cases h
    rfl
  rw [if_neg h₄] at h ⊢
  cases ht : schema.taxonomy? key with
  | some taxonomy =>
    rw [ht] at h
    cases h
    rfl
  | none =>
    rw [ht] at h
    by_cases h₅ : schema.hasMetadataKey key
    · simp only [h₅, if_true] at h ⊢
      cases h
      rfl
    · by_cases h₆ : isBookkeeping key
      · simp only [h₅, h₆, if_true] at h ⊢
        cases h
        rfl
      · simp [h₅, h₆] at h

namespace Clauses

variable {schema : Schema} {resolver : Resolver} {config : Config} {names : Names}

/-- The parameters of a request that become predicates, in the order of arrival. -/
def reaching (schema : Schema) (params : List (Text × Text)) : List (Text × Text) :=
  (params.filter isFilter).filter fun p => Field.reaches schema p.1

/-- The filter of a parameter. -/
def filterOf (param : Text × Text) : Except QueryError Filter :=
  Filter.parse param.1 param.2

/-- What a step adds: the joins of a field, a predicate on its column, and the operands of the filter. -/
def push (resolver : Resolver) (clauses : Clauses) (field : Field) (column : Column) (filter : Filter)
    (names : Names) : Clauses where
  joins := clauses.joins ++ field.joins
  predicates := clauses.predicates ++ [filter.numbered column clauses.params.size]
  params := Filter.bound resolver filter.literals clauses.params
  names := names

/-- A step leaves the clauses as they are, or adds one predicate. -/
theorem add_cases {clauses clauses' : Clauses} {param : Text × Text}
    (h : add schema resolver config clauses param = .ok clauses') :
    (Field.reaches schema param.1 = false ∧ clauses' = clauses) ∨
    ∃ field column names filter, Field.reaches schema param.1 = true ∧
      Field.resolve schema param.1 clauses.names = .ok (field, names) ∧ field.column? = some column ∧
      clauses.predicates.length ≠ config.maxFilters ∧ filterOf param = .ok filter ∧
      clauses' = clauses.push resolver field column filter names := by
  unfold add at h
  split at h
  · cases h
  · next field names hr =>
    have hreach := Field.reaches_of_resolve hr
    split at h
    · next hn => exact Or.inl ⟨by rw [hreach, hn]; rfl, (Except.ok.inj h).symm⟩
    · next column hc =>
      split at h
      · cases h
      · next hl =>
        split at h
        · cases h
        · next filter hp =>
          rw [Filter.compile_eq resolver column (Filter.wellFormed_of_parse hp)] at h
          exact Or.inr ⟨field, column, names, filter, by rw [hreach, hc]; rfl, hr, hc, hl, hp, (Except.ok.inj h).symm⟩

/-- An induction over the run: `P` relates the parameters that have become predicates to the clauses so far. -/
theorem ofParams_run {P : List (Text × Text) → Clauses → Prop} (hstart : P [] { names := names })
    (hpush : ∀ seen clauses param field column filter names', P seen clauses →
      Field.resolve schema param.1 clauses.names = .ok (field, names') → field.column? = some column →
      filterOf param = .ok filter → P (seen ++ [param]) (clauses.push resolver field column filter names'))
    {params : List (Text × Text)} {clauses : Clauses} (h : ofParams schema resolver config names params = .ok clauses) :
    P (reaching schema params) clauses := by
  -- the run passes over all filters; only those that reach a column count for `P`
  refine Outcome.foldlM_run (P := fun seen clauses => P (seen.filter fun p => Field.reaches schema p.1) clauses)
    ?_ (params.filter isFilter) [] hstart h
  intro seen param clauses clauses' hP hadd
  rw [List.filter_append]
  rcases add_cases hadd with ⟨hr, rfl⟩ | ⟨field, column, names', filter, hr, hres, hc, -, hf, rfl⟩
  · rw [List.filter_singleton, hr]
    simpa using hP
  · rw [List.filter_singleton, hr]
    exact hpush _ clauses param field column filter names' hP hres hc hf

end Clauses

end FilterPlan
