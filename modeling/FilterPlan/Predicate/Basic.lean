import FilterPlan.Column
import FilterPlan.Filter.Basic

/-!
# Predicates

A predicate is a filter against one column, with parameter names in place of operands. It is what
stands behind `WHERE`.
-/

namespace FilterPlan

/-- The relations between a column and one parameter. -/
inductive Relation where
  /-- Equal. -/
  | eq
  /-- Different. -/
  | ne
  /-- Greater. -/
  | gt
  /-- Greater or equal. -/
  | ge
  /-- Less. -/
  | lt
  /-- Less or equal. -/
  | le
deriving DecidableEq, Repr

namespace Relation

/-- The relation in query text. -/
def symbol : Relation → Text
  | eq => "="
  | ne => "<>"
  | gt => ">"
  | ge => ">="
  | lt => "<"
  | le => "<="

/-- The relation that holds exactly where this one does not. -/
def negate : Relation → Relation
  | eq => ne
  | ne => eq
  | gt => le
  | ge => lt
  | lt => ge
  | le => gt

@[simp] theorem negate_negate (r : Relation) : r.negate.negate = r := by
  cases r <;> rfl

end Relation

/-- A condition on columns, whose operands are parameter names. -/
inductive Predicate where
  /-- The column is in a relation to a parameter. -/
  | compare (column : Column) (op : Relation) (param : Text)
  /-- The column is one of the parameters. -/
  | oneOf (column : Column) (negated : Bool) (params : List Text)
  /-- The column lies between two parameters. -/
  | between (column : Column) (negated : Bool) (low high : Text)
  /-- The column matches a pattern, accents and, if wanted, letter case aside. -/
  | like (column : Column) (negated ignoreCase : Bool) (param : Text)
  /-- The column has no value. -/
  | isNull (column : Column) (negated : Bool)
  /-- The column lies within a radius of a point. -/
  | near (column : Column) (negated : Bool) (longitude latitude radius : Text)
  /-- All or any of the predicates hold. -/
  | group (op : Connective) (children : List Predicate)

namespace Predicate

/-- A parameter in query text. -/
def placeholder (name : Text) : Text :=
  ':' :: name

/-- A keyword with `NOT` in front if it is negated. -/
def keyword (negated : Bool) (word : Text) : Text :=
  if negated then "NOT " ++ word else word

mutual

/-- The predicate in query text, for a root alias. -/
def render (root : Text) : Predicate → Text
  | compare column op param =>
    column.render root ++ " " ++ op.symbol ++ " " ++ placeholder param
  | oneOf column negated params =>
    column.render root ++ " " ++ keyword negated "IN" ++
      " (" ++ Text.joinWith ", " (params.map placeholder) ++ ")"
  | between column negated low high =>
    column.render root ++ " " ++ keyword negated "BETWEEN" ++
      " " ++ placeholder low ++ " AND " ++ placeholder high
  | like column negated true param =>
    "unaccent(lower(" ++ column.render root ++ ")) " ++ keyword negated "LIKE" ++
      " unaccent(lower(" ++ placeholder param ++ "))"
  | like column negated false param =>
    "unaccent(" ++ column.render root ++ ") " ++ keyword negated "LIKE" ++
      " unaccent(" ++ placeholder param ++ ")"
  | isNull column negated =>
    "(" ++ column.render root ++ " IS " ++ keyword negated "NULL" ++ ")"
  | near column negated longitude latitude radius =>
    "ST_DWithin(" ++ column.render root ++ ", ST_MakePoint(" ++ placeholder longitude ++ "," ++
      placeholder latitude ++ "), " ++ placeholder radius ++ ") " ++
      (if negated then Relation.ne else Relation.eq).symbol ++ " TRUE"
  | group op children =>
    "(" ++ Text.joinWith (" " ++ op.name ++ " ") (renderAll root children) ++ ")"

/-- The predicates in query text, for a root alias. -/
def renderAll (root : Text) : List Predicate → List Text
  | [] => []
  | p :: rest => p.render root :: renderAll root rest

end

section Render

variable (root : Text) (column : Column) (negated : Bool)

theorem render_compare (op : Relation) (param : Text) : (compare column op param).render root =
    column.render root ++ " " ++ op.symbol ++ " " ++ placeholder param := rfl

theorem render_oneOf (params : List Text) : (oneOf column negated params).render root =
    column.render root ++ " " ++ keyword negated "IN" ++
      " (" ++ Text.joinWith ", " (params.map placeholder) ++ ")" := rfl

theorem render_between (low high : Text) : (between column negated low high).render root =
    column.render root ++ " " ++ keyword negated "BETWEEN" ++
      " " ++ placeholder low ++ " AND " ++ placeholder high := rfl

theorem render_like (param : Text) : (like column negated false param).render root =
    "unaccent(" ++ column.render root ++ ") " ++ keyword negated "LIKE" ++
      " unaccent(" ++ placeholder param ++ ")" := rfl

theorem render_likeIgnoringCase (param : Text) : (like column negated true param).render root =
    "unaccent(lower(" ++ column.render root ++ ")) " ++ keyword negated "LIKE" ++
      " unaccent(lower(" ++ placeholder param ++ "))" := rfl

theorem render_isNull : (isNull column negated).render root =
    "(" ++ column.render root ++ " IS " ++ keyword negated "NULL" ++ ")" := rfl

theorem render_near (longitude latitude radius : Text) : (near column negated longitude latitude radius).render root =
    "ST_DWithin(" ++ column.render root ++ ", ST_MakePoint(" ++ placeholder longitude ++ "," ++
      placeholder latitude ++ "), " ++ placeholder radius ++ ") " ++
      (if negated then Relation.ne else Relation.eq).symbol ++ " TRUE" := rfl

theorem renderAll_eq_map : ∀ ps : List Predicate, renderAll root ps = ps.map (render root)
  | [] => rfl
  | p :: rest => congrArg (p.render root :: ·) (renderAll_eq_map rest)

theorem render_group (op : Connective) (children : List Predicate) : (group op children).render root =
    "(" ++ Text.joinWith (" " ++ op.name ++ " ") (children.map (render root)) ++ ")" :=
  renderAll_eq_map root children ▸ rfl

end Render

mutual

/-- The parameter names in the order of the query text. -/
def paramNames : Predicate → List Text
  | compare _ _ param => [param]
  | oneOf _ _ params => params
  | between _ _ low high => [low, high]
  | like _ _ _ param => [param]
  | isNull _ _ => []
  | near _ _ longitude latitude radius => [longitude, latitude, radius]
  | group _ children => paramNamesOfAll children

/-- The parameter names of several predicates, in order. -/
def paramNamesOfAll : List Predicate → List Text
  | [] => []
  | p :: rest => p.paramNames ++ paramNamesOfAll rest

end

end Predicate

end FilterPlan
