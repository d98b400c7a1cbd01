import FilterPlan.Plan.Basic
import FilterPlan.Plan.Clauses
import FilterPlan.Request

/-!
# Building plans

`Plan.build` turns a request into a plan. Directives come first, wherever they stand, then the filters in
the order of arrival. The first error ends it.
-/

namespace FilterPlan.Plan

/-- Adds the configured properties that the entity has, each once, behind those selected. -/
def addImplicit (schema : Schema) (implicitSelect properties : List Text) : List Text :=
  implicitSelect.foldl
    (fun l name => if schema.hasProperty name && !l.contains name then l ++ [name] else l) properties

/-- The properties that rows need: those selected and those configured, and the number of the entity where
something else is attached by it or nothing is left. -/
def selectedProperties (schema : Schema) (config : Config) (selection : Selection) : List Text :=
  let properties := addImplicit schema config.implicitSelect selection.properties
  let needsId := properties.isEmpty || !selection.metadata.isEmpty || !selection.subSelects.isEmpty
  if needsId && !properties.contains idProperty then idProperty :: properties else properties

/-- The selection of a request that says nothing about it. -/
def defaultSelection : Selection where
  properties := [idProperty]

/-- The configured order; if the entity cannot be sorted that way, there is none. -/
def defaultOrder (schema : Schema) (config : Config) : List OrderBy :=
  ((OrderBy.parseList schema Directive.order.key config.defaultOrder).toOption).getD []

/-- The plan of settings and clauses. -/
def assemble (schema : Schema) (config : Config) (settings : Settings) (clauses : Clauses) : Plan :=
  let selection := settings.selection?.getD defaultSelection
  { entityClass := schema.className
    metadataClass? := schema.metadataClass?
    properties := selectedProperties schema config selection
    metadata := selection.metadata
    subSelects := selection.subSelects
    joins := clauses.joins
    predicates := clauses.predicates
    combinator := settings.combinator
    order := settings.order?.getD (defaultOrder schema config)
    offset? := settings.offset?
    page? := settings.page?
    limit? := settings.limit?
    keyword? := settings.keyword?
    permissions := settings.permissions
    seals := settings.seals
    params := clauses.params
    subqueryRoot := clauses.names.takeRoot.1 }

/-- The plan of a request for entities with a schema. -/
def ofSchema (schema : Schema) (resolver : Resolver) (config : Config) (request : Request) :
    Except QueryError Plan := do
  let settings ← Settings.ofParams schema config request.entries
  let clauses ← Clauses.ofParams schema resolver config settings.names request.entries
  return assemble schema config settings clauses

/-- The plan of a request for entities of a kind. -/
def build (registry : Registry) (kind : Text) (resolver : Resolver) (config : Config) (request : Request) :
    Except QueryError Plan :=
  match registry.get? kind with
  | some schema => ofSchema schema resolver config request
  | none => .error (.unknownEntity kind)

end FilterPlan.Plan
