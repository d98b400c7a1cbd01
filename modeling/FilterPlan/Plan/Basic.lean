import FilterPlan.Column
import FilterPlan.Param
import FilterPlan.Plan.Order
import FilterPlan.Plan.Selection
import FilterPlan.Predicate.Basic

/-!
# Plans

A plan is what a request comes to: what to select, which joins and predicates the query has, and how its
rows are sorted and paged. Its text is in `FilterPlan.Plan.Render`.
-/

namespace FilterPlan

/-- A compiled request. -/
structure Plan where
  /-- The class of the entities. -/
  entityClass : Text
  /-- The class of the metadata rows, if there is one. -/
  metadataClass? : Option Text
  /-- The properties to select. -/
  properties : List Text
  /-- The metadata keys to select. -/
  metadata : List Text
  /-- The members of related entities to select. -/
  subSelects : List SubSelect
  /-- The joins, in order. -/
  joins : List Join
  /-- The predicates, one for each filter. -/
  predicates : List Predicate
  /-- How the predicates combine. -/
  combinator : Connective
  /-- How to sort. -/
  order : List OrderBy
  /-- How many rows to skip, if the request says so. -/
  offset? : Option Nat
  /-- Which page to show, counted from one. -/
  page? : Option Nat
  /-- How many rows to show. -/
  limit? : Option Nat
  /-- A keyword to search for. -/
  keyword? : Option Text
  /-- Permissions that the user must have. -/
  permissions : List Text
  /-- Seals that the rows must have. -/
  seals : List Nat
  /-- The parameters. -/
  params : ParamTable
  /-- The alias of the entity in nested queries. -/
  subqueryRoot : Text

/-- How many rows to skip: what the request says, or else the rows of the pages before. The number stays
within 64 bits. -/
def Plan.offset (p : Plan) : Nat :=
  match p.offset? with
  | some offset => offset
  | none =>
    match p.page?, p.limit? with
    | some page, some limit => if 1 < page then min (limit * (page - 1)) (Text.wordBound - 1) else 0
    | _, _ => 0

end FilterPlan
