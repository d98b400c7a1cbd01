import FilterPlan.Proofs.Plan.Acceptance
import FilterPlan.Proofs.Plan.Aliases
import FilterPlan.Proofs.Plan.Renumbering
import Mathlib.Data.List.Perm.Basic
import Mathlib.Data.Set.Function

/-!
# The order of filters

If the filters of a request are put in another order, its plan has the same joins and predicates, with other aliases and
other parameter names, in another order; nothing else changes (`build_of_filters_moved`).
-/

namespace FilterPlan

open ParamTable Text

/-- A function that makes one list from another, but for the order, is a bijection between their members if the second
list does not repeat any. -/
theorem bijOn_of_map_perm {l l' : List Text} {f : Text → Text} (h : (l.map f).Perm l') (hnodup : l'.Nodup) :
    Set.BijOn f {a | a ∈ l} {a | a ∈ l'} := by
  have hinj := List.inj_on_of_nodup_map (h.nodup_iff.mpr hnodup)
  refine ⟨fun a ha => h.mem_iff.mp (List.mem_map_of_mem ha), fun a ha b hb => hinj ha hb, fun a ha => ?_⟩
  obtain ⟨b, hb, rfl⟩ := List.mem_map.mp (h.mem_iff.mpr ha)
  exact ⟨b, hb, rfl⟩

/-! ## Tables with permuted values -/

namespace ParamTable

variable {table table' : ParamTable} {name : Text} {π : Equiv.Perm Nat}

theorem exists_nameAt_of_contains (h : table.contains name) : ∃ i, name = nameAt i := by
  obtain ⟨i, -, -, rfl⟩ := mem_namesFrom.mp (ParamTable.contains_iff.mp h)
  exact ⟨i, rfl⟩

/-- The value of a name is found under the name with the new number. -/
theorem get?_renumber (h : ∀ i, table'.get? (nameAt (π i)) = table.get? (nameAt i)) (hn : table.contains name) :
    table'.get? (renumber π name) = table.get? name := by
  obtain ⟨i, rfl⟩ := exists_nameAt_of_contains hn
  rw [renumber_nameAt, h]

/-- The names with new numbers are just the names of the table with the values there. -/
theorem bijOn_renumber (h : ∀ i, table'.get? (nameAt (π i)) = table.get? (nameAt i)) :
    Set.BijOn (renumber π) {name | table.contains name} {name | table'.contains name} := by
  refine ⟨fun name hn => ?_, fun name hn name' hn' he => ?_, fun name hn => ?_⟩
  · exact (congrArg Option.isSome (get?_renumber h hn)).trans hn
  · obtain ⟨i, rfl⟩ := exists_nameAt_of_contains hn
    obtain ⟨j, rfl⟩ := exists_nameAt_of_contains hn'
    rw [renumber_nameAt, renumber_nameAt] at he
    rw [π.injective (nameAt_injective he)]
  · obtain ⟨j, rfl⟩ := exists_nameAt_of_contains hn
    have hj : table'.get? (nameAt j) = table.get? (nameAt (π.symm j)) := by rw [← h, Equiv.apply_symm_apply]
    refine ⟨nameAt (π.symm j), (congrArg Option.isSome hj).symm.trans hn, ?_⟩
    rw [renumber_nameAt, Equiv.apply_symm_apply]

end ParamTable

/-! ## Laid out clauses -/

namespace Clause

variable {schema : Schema} {cs ds : List (Clause schema)} {α π : Equiv.Perm Nat}

/-- Clauses that are read from parameters in another order are the same, in another order. -/
theorem perm_of_reads {params params' : List (Text × Text)} (h : List.Forall₂ Reads params cs)
    (h' : List.Forall₂ Reads params' ds) (hperm : params.Perm params') : cs.Perm ds := by
  obtain ⟨es, hes, hperm⟩ := List.perm_comp_forall₂ hperm h'
  have hunique : Relator.RightUnique (@Reads schema) := fun _ _ _ => Reads.unique
  obtain rfl := List.right_unique_forall₂' hunique h hes
  exact hperm

theorem Renumbers.aliases {n : Nat} {before : List Literal} (h : Renumbers n before cs ds α π) :
    ((Clause.aliases n before.length cs).map (renumber α)).Perm (Clause.aliases n before.length ds) := by
  have hjoins := (h.blocks.flatMap_right Block.joins).map Join.aliasName
  refine (List.Perm.of_eq ?_).trans hjoins
  simp only [Clause.aliases, List.map_flatMap, List.flatMap_map, List.map_map, Block.renumber, Block.rename]
  rfl

theorem get?_bound (resolver : Resolver) (args : List Literal) (i : Nat) :
    (Filter.bound resolver args {}).get? (nameAt i) = args[i]?.map resolver.resolve := by
  rw [get?_nameAt, Filter.bound, values_extend, ← List.getElem?_map]
  rfl

/-- The values of parameters are found under their new numbers. -/
theorem Renumbers.get?_bound {n : Nat} (h : Renumbers n [] cs ds α π) (resolver : Resolver) (i : Nat) :
    (Filter.bound resolver (Clause.literals ds) {}).get? (nameAt (π i)) =
      (Filter.bound resolver (Clause.literals cs) {}).get? (nameAt i) := by
  have hi := h.operands i
  rw [List.nil_append, List.nil_append] at hi
  rw [Clause.get?_bound, Clause.get?_bound, hi]

end Clause

/-! ## Plans -/

namespace Plan

/-- The blocks are those of the filters of the request, in order, and the joins and predicates of the plan are theirs. -/
structure ConsistsOf (schema : Schema) (request : Request) (p : Plan) (blocks : List Block) : Prop where
  filters : List.Forall₂ (Block.IsOf schema) (Clauses.reaching schema request.entries) blocks
  joins : p.joins = blocks.flatMap Block.joins
  predicates : p.predicates = blocks.map Block.predicate

/-- The parameters of the second plan are those of the first one with other names, as are the aliases of joins; and apart
from parameters, joins and predicates the plans are the same. -/
structure RenamedBy (paramOf aliasOf : Text → Text) (p q : Plan) : Prop where
  params : Set.BijOn paramOf {name | p.params.contains name} {name | q.params.contains name}
  values : ∀ name, p.params.contains name → q.params.get? (paramOf name) = p.params.get? name
  aliases : Set.BijOn aliasOf {a | a ∈ p.joins.map Join.aliasName} {a | a ∈ q.joins.map Join.aliasName}
  others : { p with joins := q.joins, predicates := q.predicates, params := q.params } = q

variable {registry : Registry} {kind : Text} {schema : Schema} {resolver : Resolver} {config : Config}
  {request request' : Request}

theorem renamedBy_assemble {settings : Settings} {cs ds : List (Clause schema)} {α π : Equiv.Perm Nat}
    (hperm : cs.Perm ds) (hkeys : (ds.map Clause.key).Nodup)
    (h : Clause.Renumbers settings.names.aliases [] cs ds α π) :
    RenamedBy (renumber π) (renumber α) (assemble schema config settings (Clauses.laid resolver settings.names cs))
      (assemble schema config settings (Clauses.laid resolver settings.names ds)) where
  params := bijOn_renumber (h.get?_bound resolver)
  values := fun _ => get?_renumber (h.get?_bound resolver)
  aliases := bijOn_of_map_perm h.aliases (Clause.nodup_aliases hkeys)
  others := by simp only [assemble, Clauses.laid, Clause.width_perm hperm]

/-- **The order of filters is a matter of names.** If the filters of a request are put in another order, with the
directives in the same order, the request still has a plan if it had one. The new plan is the old one with other parameter
names and other aliases: each filter still adds the same joins, in the same order, and the same predicate, up to these
names, and all parameters keep their values. -/
theorem build_of_filters_moved (hperm : request.entries.Perm request'.entries)
    (hdirectives : request.entries.filter (!Clauses.isFilter ·) = request'.entries.filter (!Clauses.isFilter ·)) :
    Outcome.Agree (fun plan plan' => ∃ schema blocks blocks' paramOf aliasOf,
        registry.get? kind = some schema ∧ ConsistsOf schema request plan blocks ∧
        ConsistsOf schema request' plan' blocks' ∧ RenamedBy paramOf aliasOf plan plan' ∧
        (blocks.map (Block.rename paramOf aliasOf)).Perm blocks')
      (build registry kind resolver config request) (build registry kind resolver config request') := by
  refine build_agree_of_perm hperm fun schema plan plan' hk h h' => ?_
  obtain ⟨settings, clauses, hs, hc, rfl⟩ := ofSchema_eq_ok_iff.mp h
  obtain ⟨settings', clauses', hs', hc', rfl⟩ := ofSchema_eq_ok_iff.mp h'
  have hsettings : settings = settings' := by
    have hkeep : ∀ p, (!Clauses.isFilter p) = false → Directive.ofKey? p.1 = none := fun p hp => by
      simpa [Clauses.isFilter] using hp
    rw [← Settings.ofParams_filter hkeep, hdirectives, Settings.ofParams_filter hkeep, hs'] at hs
    exact (Except.ok.inj hs).symm
  subst hsettings
  obtain ⟨cs, hcs, rfl⟩ := Clauses.exists_laid_of_ofParams hc
  obtain ⟨ds, hds, rfl⟩ := Clauses.exists_laid_of_ofParams hc'
  have hreaching : (Clauses.reaching schema request.entries).Perm (Clauses.reaching schema request'.entries) :=
    (hperm.filter _).filter _
  have hclauses := Clause.perm_of_reads hcs hds hreaching
  obtain ⟨α, π, hnumbers⟩ := Clause.exists_renumbers hclauses settings.names.aliases []
  exact ⟨schema, _, _, renumber π, renumber α, hk, ⟨Clause.forall₂_isOf_blocks hcs _ 0, rfl, rfl⟩,
    ⟨Clause.forall₂_isOf_blocks hds _ 0, rfl, rfl⟩,
    renamedBy_assemble hclauses (Clause.nodup_keys hds) hnumbers, hnumbers.blocks⟩

/-- Filters that take different numbers of aliases and of parameters. -/
def numberedRequest : Request :=
  .ofList [("user", "EQ(@me)"), ("site", "IN(a,b)"), ("@limit", "5"), ("term:area", "NULL()"), ("name", "BET(1,5)")]

/-- The same parameters, with the filters in another order. -/
def renumberedRequest : Request :=
  .ofList [("@limit", "5"), ("term:area", "NULL()"), ("name", "BET(1,5)"), ("site", "IN(a,b)"), ("user", "EQ(@me)")]

theorem build_of_filters_moved_numbered : ∃ plan plan' paramOf aliasOf,
    build agents "agent" .anonymous {} numberedRequest = .ok plan ∧
    build agents "agent" .anonymous {} renumberedRequest = .ok plan' ∧ RenamedBy paramOf aliasOf plan plan' := by
  have hsize : (build agents "agent" .anonymous {} numberedRequest).map (fun plan => plan.params.size) = .ok 5 := by
    decide +kernel
  obtain ⟨plan, hb, -⟩ := Outcome.map_eq_ok_iff.mp hsize
  have hagree := @build_of_filters_moved agents "agent" .anonymous {} numberedRequest renumberedRequest
    (by decide +kernel) (by decide +kernel)
  rw [hb] at hagree
  obtain ⟨plan', hb', -, -, -, paramOf, aliasOf, -, -, -, hrenamed, -⟩ := hagree.exists_right
  exact ⟨plan, plan', paramOf, aliasOf, hb, hb', hrenamed⟩

end Plan

end FilterPlan
