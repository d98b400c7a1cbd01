import FilterPlan.Error
import FilterPlan.Plan.Basic
import FilterPlan.Plan.Names

/-!
# Query text

The query that finds the rows of a plan, the one that counts them, and those that fetch what is attached to
the rows. The latter name the rows by a nested query: the same joins and predicates, written for another
root alias.
-/

namespace FilterPlan

/-- Query text with what is needed to run it. -/
structure RenderedQuery where
  /-- The text. -/
  text : Text
  /-- The parameters. -/
  params : ParamTable
  /-- How many rows to skip. -/
  offset : Nat
  /-- How many rows to fetch, if not all. -/
  limit? : Option Nat

namespace Plan

/-- The predicates of the plan in query text, if there are any. -/
def filterText? (p : Plan) (root : Text) : Option Text :=
  if p.predicates.isEmpty then none
  else some (Text.joinWith (" " ++ p.combinator.name ++ "\n\t") (Predicate.renderAll root p.predicates))

/-- Everything behind the selected columns, for a root alias. -/
def bodyText (p : Plan) (root : Text) : Text :=
  let joins : Text := p.joins.flatMap fun j => ("\n\t" : Text) ++ j.render root
  let filter : Text :=
    match p.filterText? root with
    | some text => "\nWHERE\n\t" ++ text
    | none => []
  "FROM " ++ p.entityClass ++ " " ++ root ++ joins ++ filter

/-- The query that finds the rows. -/
def findText (p : Plan) : Text :=
  let columns := p.properties.map fun name => rootAlias ++ "." ++ name
  let order : Text :=
    if p.order.isEmpty then []
    else "\nORDER BY " ++ Text.joinWith ", " (p.order.map (OrderBy.render rootAlias))
  "SELECT\n\t" ++ Text.joinWith ", " columns ++ "\n" ++ p.bodyText rootAlias ++ order

/-- The query that counts the rows. -/
def countText (p : Plan) : Text :=
  "SELECT\n\tCOUNT(" ++ rootAlias ++ ".id)\n" ++ p.bodyText rootAlias

/-- The nested query for a property of the rows. -/
def nestedText (p : Plan) (property : Text) : Text :=
  "SELECT\n\t" ++ p.subqueryRoot ++ "." ++ property ++ "\n" ++ p.bodyText p.subqueryRoot

/-- The nested query for a property of the rows, which must be an identifier. -/
def subqueryText (p : Plan) (property : Text) : Except QueryError Text :=
  if property.isIdentifier then .ok (p.nestedText property)
  else .error (.invalidArgument property .badSubquery)

/-- The query that fetches a member of related entities: for the rows of the plan, the relation is joined under
the alias of the sub-selection, and the member of the joined entity is selected. -/
def memberText (p : Plan) (s : SubSelect) : Text :=
  "SELECT\n\t" ++ rootAlias ++ ".id AS parent, " ++ s.aliasName ++ "." ++ s.member ++ " AS value\nFROM " ++
    p.entityClass ++ " " ++ rootAlias ++ "\n\tJOIN " ++ rootAlias ++ "." ++ s.path ++ " " ++ s.aliasName ++
    "\nWHERE\n\t" ++ rootAlias ++ ".id IN (" ++ p.nestedText idProperty ++ ")"

/-- The query that fetches the member behind a token. -/
def subSelectText? (p : Plan) (token : Text) : Option Text :=
  (p.subSelects.find? fun s => s.token = token).map p.memberText

/-- The query that fetches the selected metadata, if there are any. -/
def metadataText? (p : Plan) : Option Text :=
  if p.metadata.isEmpty then none
  else
    p.metadataClass?.map fun className =>
      "SELECT\n\tIDENTITY(m.owner) AS id, m.key, m.value\nFROM " ++ className ++ " m\nWHERE\n\tm.key IN (" ++
        Text.joinWith ", " (p.metadata.map quoteLiteral) ++ ") AND\n\tm.owner IN (" ++
        p.nestedText idProperty ++ ")"

/-- Finds the rows of the page. -/
def find (p : Plan) : RenderedQuery where
  text := p.findText
  params := p.params
  offset := p.offset
  limit? := p.limit?

/-- Counts the rows of all pages. -/
def count (p : Plan) : RenderedQuery where
  text := p.countText
  params := p.params
  offset := 0
  limit? := none

/-- Finds the first row. -/
def findOne (p : Plan) : RenderedQuery where
  text := p.findText
  params := p.params
  offset := 0
  limit? := some 1

end Plan

end FilterPlan
