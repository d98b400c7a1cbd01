import FilterPlan.Proofs.Filter.Conservation
import FilterPlan.Proofs.Plan.Acceptance
import FilterPlan.Proofs.Plan.Build
import FilterPlan.Proofs.Plan.Clauses

/-!
# The parameters of a plan

Every operand of a request is bound once, in reading order, and the predicates of the plan name the parameters in that
order: the names in the query text are `v0`, `v1`, … without gap or repetition (`build_binds_in_order`). How many there
can be depends on the configuration only (`size_params_le`).
-/

namespace FilterPlan

open ParamTable

namespace Clauses

/-- The filters have been bound: their operands, in order, are the parameters, and the predicates name them in order. -/
structure Binds (resolver : Resolver) (filters : List Filter) (clauses : Clauses) : Prop where
  values : clauses.params.values = (filters.flatMap Filter.literals).map resolver.resolve
  names : clauses.predicates.flatMap Predicate.paramNames = namesFrom 0 clauses.params.size

variable {schema : Schema} {resolver : Resolver} {config : Config}

theorem Binds.push {filters : List Filter} {clauses : Clauses} (h : Binds resolver filters clauses) {filter : Filter}
    (hf : filter.WellFormed) (field : Field) (column : Column) (names : Names) :
    Binds resolver (filters ++ [filter]) (clauses.push resolver field column filter names) where
  values := by
    simp only [Clauses.push, Filter.bound, values_extend, h.values, List.flatMap_append, List.flatMap_singleton,
      List.map_append]
  names := by
    simp only [Clauses.push, List.flatMap_append, List.flatMap_singleton, h.names, Filter.paramNames_numbered hf,
      Filter.size_bound, namesFrom_add, Nat.zero_add]

theorem binds_of_ofParams {names : Names} {params : List (Text × Text)} {clauses : Clauses}
    (h : ofParams schema resolver config names params = .ok clauses) :
    ∃ filters, (reaching schema params).mapM filterOf = .ok filters ∧ Binds resolver filters clauses := by
  simp only [Outcome.mapM_eq_ok_iff]
  refine ofParams_run (P := fun seen clauses => ∃ filters,
    List.Forall₂ (fun p f => filterOf p = .ok f) seen filters ∧ Binds resolver filters clauses) ?_ ?_ h
  · exact ⟨[], .nil, rfl, rfl⟩
  · rintro seen clauses param field column filter names' ⟨filters, hm, hb⟩ - - hf
    exact ⟨filters ++ [filter], List.rel_append hm (.cons hf .nil),
      hb.push (Filter.wellFormed_of_parse hf) field column names'⟩

/-- The names of the table are those in the predicates. -/
theorem Binds.contains_iff {filters : List Filter} {clauses : Clauses} (h : Binds resolver filters clauses)
    {name : Text} :
    clauses.params.contains name ↔ ∃ predicate ∈ clauses.predicates, name ∈ predicate.paramNames := by
  rw [ParamTable.contains_iff, ← h.names, List.mem_flatMap]

end Clauses

namespace Plan

/-- **Every operand is bound once and in order.** The parameters of a plan are named `v0`, `v1`, … and have the values
of the operands in the order in which the filters of the request are read. The predicates name just these, in this
order: none is unnamed, none is missing from the table, and none of the table is left out. -/
theorem build_binds_in_order {registry : Registry} {kind : Text} {resolver : Resolver} {config : Config}
    {request : Request} {plan : Plan} (h : build registry kind resolver config request = .ok plan) :
    ∃ schema filters, registry.get? kind = some schema ∧
      (Clauses.reaching schema request.entries).mapM Clauses.filterOf = .ok filters ∧
      plan.predicates.flatMap Predicate.paramNames = (List.range plan.params.size).map nameAt ∧
      plan.params.entries.map Prod.fst = (List.range plan.params.size).map nameAt ∧
      (plan.params.entries.map Prod.fst).Nodup ∧
      plan.params.entries.map Prod.snd = (filters.flatMap Filter.literals).map resolver.resolve ∧
      (∀ i, plan.params.get? (nameAt i) = (plan.params.entries[i]?).map Prod.snd) ∧
      (∀ predicate ∈ plan.predicates, ∀ name ∈ predicate.paramNames, name ≠ [] ∧ plan.params.contains name) ∧
      ∀ name, plan.params.contains name → ∃ predicate ∈ plan.predicates, name ∈ predicate.paramNames := by
  obtain ⟨schema, settings, clauses, hk, -, hc, rfl⟩ := build_eq_ok_iff.mp h
  obtain ⟨filters, hm, hb⟩ := Clauses.binds_of_ofParams hc
  refine ⟨schema, filters, hk, hm, ?_, ?_, ?_, ?_, ?_, ?_, ?_⟩
  · rw [← namesFrom_zero_eq]
    exact hb.names
  · rw [← namesFrom_zero_eq]
    exact map_fst_entries _
  · rw [map_fst_entries]
    exact nodup_namesFrom _ _
  · exact hb.values
  · intro i
    rw [get?_nameAt, ← List.getElem?_map]
    rfl
  · intro predicate hp name hn
    have hcontains : clauses.params.contains name := hb.contains_iff.mpr ⟨predicate, hp, hn⟩
    obtain ⟨i, -, -, rfl⟩ := mem_namesFrom.mp (ParamTable.contains_iff.mp hcontains)
    exact ⟨nameAt_ne_nil i, hcontains⟩
  · intro name hn
    exact hb.contains_iff.mp hn

/-- The configuration limits the parameters of a plan: there are no more filters than it allows, and none has more
operands than the longest expression has bytes. -/
theorem size_params_le {registry : Registry} {kind : Text} {resolver : Resolver} {config : Config} {request : Request}
    {plan : Plan} (h : build registry kind resolver config request = .ok plan) :
    plan.params.size ≤ config.maxFilters * maxExpressionSize := by
  obtain ⟨schema, settings, clauses, -, -, hc, rfl⟩ := build_eq_ok_iff.mp h
  obtain ⟨filters, hm, hb⟩ := Clauses.binds_of_ofParams hc
  have hread := Outcome.mapM_eq_ok_iff.mp hm
  have hcount : filters.length ≤ config.maxFilters := hread.length_eq ▸ (Clauses.admits_of_run hc).1.count
  have heach : ∀ n ∈ filters.map fun f => f.literals.length, n ≤ maxExpressionSize := by
    rw [List.forall_mem_map]
    intro f hf
    obtain ⟨p, -, hp⟩ := Outcome.exists_of_mem_right hread hf
    obtain ⟨hsize, hf⟩ := Filter.parse_eq_ok_iff.mp hp
    exact (Filter.length_literals_le_of_read hf).trans hsize
  calc clauses.params.size
      = (filters.flatMap Filter.literals).length := by
        rw [← List.length_map (resolver.resolve ·), ← hb.values, length_values]
    _ = (filters.map fun f => f.literals.length).sum := List.length_flatMap
    _ ≤ (filters.map fun f => f.literals.length).length * maxExpressionSize := List.sum_le_card_nsmul _ _ heach
    _ ≤ config.maxFilters * maxExpressionSize := by
      rw [List.length_map]
      exact Nat.mul_le_mul_right _ hcount

/-- Three filters with nested groups, an ignored key between them, and a filter without operands at the end. -/
def nestedRequest : Request :=
  .ofList [("name", "OR(!EQ(@me),AND(BET(1,5),IN(a,b)))"), ("_ts", "?"), ("term:area", "GEONEAR(1,2,3)"),
    ("@limit", "5"), ("site", "!NULL()")]

theorem build_binds_in_order_nested : ∃ plan, build agents "agent" .anonymous {} nestedRequest = .ok plan ∧
    plan.predicates.flatMap Predicate.paramNames = ["v0", "v1", "v2", "v3", "v4", "v5", "v6", "v7"] := by
  have hsize : (build agents "agent" .anonymous {} nestedRequest).map (fun plan => plan.params.size) = .ok 8 := by
    decide +kernel
  obtain ⟨plan, hb, hs⟩ := Outcome.map_eq_ok_iff.mp hsize
  obtain ⟨schema, filters, -, -, hn, -⟩ := build_binds_in_order hb
  refine ⟨plan, hb, hn.trans ?_⟩
  rw [hs]
  rfl

end Plan

end FilterPlan
