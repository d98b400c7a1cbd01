import FilterPlan.Text.Basic

/-!
# Columns and joins

A column is read through the entity that the query is about, its root, or through a joined entity.
The alias of the root is left open, so that the same column can be written for a query and for a query
nested in it.
-/

namespace FilterPlan

/-- A column and what it is read through. -/
structure Column where
  /-- The alias of a joined entity, or `none` for the root. -/
  via? : Option Text := none
  /-- The name of the column. -/
  name : Text
deriving DecidableEq, Repr

/-- A column of the root. -/
def Column.ofRoot (name : Text) : Column where
  name := name

/-- A column of a joined entity. -/
def Column.through (via name : Text) : Column where
  via? := some via
  name := name

/-- The column in query text, for a root alias. -/
def Column.render (root : Text) (c : Column) : Text :=
  c.via?.getD root ++ "." ++ c.name

/-- A text as a string literal of query text: in single quotes, and each of its own quotes twice. -/
def quoteLiteral (t : Text) : Text :=
  '\'' :: (t.flatMap fun c => if c = '\'' then ['\'', '\''] else [c]) ++ "'"

/-- What the rows of a join are restricted to. -/
inductive JoinCondition where
  /-- The rows of a metadata key. -/
  | metadataKey (key : Text)
  /-- The terms of a taxonomy. -/
  | taxonomy (id : Nat)
deriving DecidableEq, Repr

/-- An entity joined to the query. -/
structure Join where
  /-- The alias of the joined entity. -/
  aliasName : Text
  /-- The column that leads to it. -/
  source : Column
  /-- What its rows are restricted to. -/
  condition? : Option JoinCondition := none
deriving DecidableEq, Repr

/-- A condition in query text, for the alias of its join. -/
def JoinCondition.render (aliasName : Text) : JoinCondition → Text
  | metadataKey key => " WITH " ++ aliasName ++ ".key = " ++ quoteLiteral key
  | taxonomy id => " WITH " ++ aliasName ++ ".taxonomy = " ++ Text.ofNat id

/-- The join in query text, for a root alias. -/
def Join.render (root : Text) (j : Join) : Text :=
  let condition : Text :=
    match j.condition? with
    | some c => c.render j.aliasName
    | none => []
  "LEFT JOIN " ++ j.source.render root ++ " " ++ j.aliasName ++ condition

end FilterPlan
