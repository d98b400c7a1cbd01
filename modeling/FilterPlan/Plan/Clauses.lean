import FilterPlan.Config.Basic
import FilterPlan.Filter.Parser
import FilterPlan.Plan.Directive
import FilterPlan.Plan.Field
import FilterPlan.Predicate.Compile

/-!
# The clauses of a plan

Each filter key of a request adds one predicate, the joins that lead to its column, and the parameters of
its operands. Keys without a column add nothing and do not count.
-/

namespace FilterPlan

/-- What the filters of a request have added so far. -/
structure Clauses where
  /-- The joins, in order. -/
  joins : List Join := []
  /-- The predicates, one for each filter with a column. -/
  predicates : List Predicate := []
  /-- The parameters. -/
  params : ParamTable := {}
  /-- The names taken so far. -/
  names : Names := {}

namespace Clauses

/-- Adds the filter under a key. What the key addresses is settled first, then whether one more filter is
allowed, and last the filter itself is read. -/
def add (schema : Schema) (resolver : Resolver) (config : Config) (clauses : Clauses)
    (param : Text × Text) : Except QueryError Clauses :=
  match Field.resolve schema param.1 clauses.names with
  | .error e => .error e
  | .ok (field, names) =>
    match field.column? with
    | none => .ok clauses
    | some column =>
      if clauses.predicates.length = config.maxFilters then
        .error (.invalidArgument param.1 (.tooManyFilters config.maxFilters))
      else
        match Filter.parse param.1 param.2 with
        | .error e => .error e
        | .ok filter =>
          let (predicate, params) := filter.compile resolver column clauses.params
          .ok {
            joins := clauses.joins ++ field.joins
            predicates := clauses.predicates ++ [predicate]
            params := params
            names := names }

/-- Whether a parameter of the request is a filter. -/
def isFilter (param : Text × Text) : Bool :=
  (Directive.ofKey? param.1).isNone

/-- The clauses of the filters among the parameters, with aliases numbered after the given names. -/
def ofParams (schema : Schema) (resolver : Resolver) (config : Config) (names : Names)
    (params : List (Text × Text)) : Except QueryError Clauses :=
  (params.filter isFilter).foldlM (add schema resolver config) { names := names }

end Clauses

end FilterPlan
