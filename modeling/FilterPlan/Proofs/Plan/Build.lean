import FilterPlan.Plan.Build
import FilterPlan.Proofs.Outcome

/-!
# Built plans

What a plan is made of: the schema of its kind, the settings that the directives give, and the clauses that the filters
give (`build_eq_ok_iff`).
-/

namespace FilterPlan.Plan

theorem ofSchema_eq_ok_iff {schema : Schema} {resolver : Resolver} {config : Config} {request : Request}
    {plan : Plan} : ofSchema schema resolver config request = .ok plan ↔
      ∃ settings clauses, Settings.ofParams schema config request.entries = .ok settings ∧
        Clauses.ofParams schema resolver config settings.names request.entries = .ok clauses ∧
        assemble schema config settings clauses = plan := by
  unfold ofSchema
  constructor
  · intro h
    obtain ⟨settings, hs, h⟩ := Outcome.bind_eq_ok_iff.mp h
    obtain ⟨clauses, hc, h⟩ := Outcome.bind_eq_ok_iff.mp h
    exact ⟨settings, clauses, hs, hc, Except.ok.inj h⟩
  · rintro ⟨settings, clauses, hs, hc, rfl⟩
    exact Outcome.bind_eq_ok_iff.mpr ⟨settings, hs, Outcome.bind_eq_ok_iff.mpr ⟨clauses, hc, rfl⟩⟩

theorem build_eq_ok_iff {registry : Registry} {kind : Text} {resolver : Resolver} {config : Config}
    {request : Request} {plan : Plan} : build registry kind resolver config request = .ok plan ↔
      ∃ schema settings clauses, registry.get? kind = some schema ∧
        Settings.ofParams schema config request.entries = .ok settings ∧
        Clauses.ofParams schema resolver config settings.names request.entries = .ok clauses ∧
        assemble schema config settings clauses = plan := by
  unfold build
  cases hk : registry.get? kind with
  | none => simp
  | some schema =>
    simp only [ofSchema_eq_ok_iff, Option.some.injEq]
    constructor
    · rintro ⟨settings, clauses, h⟩
      exact ⟨schema, settings, clauses, rfl, h⟩
    · rintro ⟨schema', settings, clauses, rfl, h⟩
      exact ⟨settings, clauses, h⟩

/-! ## A small registry -/

/-- A registry of one kind, in which a key can address anything that keys can address. -/
def agents : Registry where
  schemas := [{
    kind := "agent"
    className := "Agent"
    metadataClass? := some "AgentMeta"
    properties := ["id", "name"]
    relations := .ofList [("owner", { isOwning := true })]
    metadataKeys := ["site"]
    taxonomies := .ofList [("area", 2)]
    capabilities := { usesMetadata := true, usesTaxonomies := true, usesOwnerAgent := true, usesTypes := true } }]

end FilterPlan.Plan
