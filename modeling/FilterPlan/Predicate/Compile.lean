import FilterPlan.Param
import FilterPlan.Predicate.Basic

/-!
# From filters to predicates

A filter becomes a predicate on a column. Its operands are bound as parameters from left to right, each
where it occurs, so that the names in the predicate stand in binding order. A negated comparison becomes
the opposite comparison; the negation of a group counts for nothing.
-/

namespace FilterPlan.Filter

/-- The first of the operands, or the empty scalar if there is none. -/
def firstOperand (args : List Literal) : Literal :=
  args.headD (.scalar [])

/-- The relation of an operator that compares with one operand. -/
def relation (op : Operator) (negated : Bool) : Relation :=
  let plain : Relation :=
    match op with
    | .gt => .gt
    | .gte => .ge
    | .lt => .lt
    | .lte => .le
    | _ => .eq
  if negated then plain.negate else plain

/-- Binds the first operand. -/
def bindFirst (resolver : Resolver) (args : List Literal) (params : ParamTable) : Text × ParamTable :=
  params.bind (resolver.resolve (firstOperand args))

/-- Binds all operands, each resolved on its own. -/
def bindOperands (resolver : Resolver) (args : List Literal) (params : ParamTable) :
    List Text × ParamTable :=
  params.bindAll (args.map resolver.resolve)

/-- The predicate of a comparison. Where names are missing for want of operands they are empty. -/
def compileComparison (resolver : Resolver) (column : Column) (op : Operator) (negated : Bool)
    (args : List Literal) (params : ParamTable) : Predicate × ParamTable :=
  match op with
  | .eq | .gt | .gte | .lt | .lte =>
    let (name, params) := bindFirst resolver args params
    (.compare column (relation op negated) name, params)
  | .like =>
    let (name, params) := bindFirst resolver args params
    (.like column negated false name, params)
  | .ilike =>
    let (name, params) := bindFirst resolver args params
    (.like column negated true name, params)
  | .oneOf =>
    let (names, params) := bindOperands resolver args params
    (.oneOf column negated names, params)
  | .between =>
    let (names, params) := bindOperands resolver args params
    (.between column negated (names.getD 0 []) (names.getD 1 []), params)
  | .null => (.isNull column negated, params)
  | .near =>
    let (names, params) := bindOperands resolver args params
    (.near column negated (names.getD 0 []) (names.getD 1 []) (names.getD 2 []), params)

mutual

/-- The predicate of a filter on a column, and the parameters with those of the filter added. -/
def compile (resolver : Resolver) (column : Column) : Filter → ParamTable → Predicate × ParamTable
  | comparison op negated args, params => compileComparison resolver column op negated args params
  | group op _ children, params =>
    let (predicates, params) := compileAll resolver column children params
    (.group op predicates, params)

/-- The predicates of several filters on a column, in order. -/
def compileAll (resolver : Resolver) (column : Column) :
    List Filter → ParamTable → List Predicate × ParamTable
  | [], params => ([], params)
  | f :: rest, params =>
    let (predicate, params) := compile resolver column f params
    let (predicates, params) := compileAll resolver column rest params
    (predicate :: predicates, params)

end

end FilterPlan.Filter
