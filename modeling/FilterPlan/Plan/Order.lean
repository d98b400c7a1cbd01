import FilterPlan.Error
import FilterPlan.Schema.Basic
import FilterPlan.Text.Blank

/-!
# The order of the rows

An order is a list of properties, each with `ASC`, `DESC` or nothing behind it.
-/

namespace FilterPlan

/-- A direction of sorting. -/
inductive Direction where
  /-- From small to large. -/
  | ascending
  /-- From large to small. -/
  | descending
deriving DecidableEq, Repr

/-- The keyword of the direction. -/
def Direction.keyword : Direction → Text
  | .ascending => "ASC"
  | .descending => "DESC"

/-- The direction of a keyword in any letter case. -/
def Direction.ofKeyword? (word : Text) : Option Direction :=
  [Direction.ascending, Direction.descending].find? fun d => d.keyword = word.upper

/-- A property to sort by, and which way. -/
structure OrderBy where
  /-- The property. -/
  column : Text
  /-- The direction. -/
  direction : Direction
deriving DecidableEq, Repr

namespace OrderBy

/-- Takes a property with a direction apart, without asking whether there is such a property. -/
def ofWords? : List Text → Option OrderBy
  | [column] => some ⟨column, .ascending⟩
  | [column, word] => (Direction.ofKeyword? word).map (⟨column, ·⟩)
  | _ => none

/-- Reads one item of an order. -/
def ofItem (schema : Schema) (key item : Text) : Except QueryError OrderBy :=
  match ofWords? item.words with
  | none => .error (.invalidArgument key (.badOrder item))
  | some order => if schema.hasProperty order.column then .ok order else .error (.unknownField order.column)

/-- Reads an order that stands under a key. -/
def parseList (schema : Schema) (key t : Text) : Except QueryError (List OrderBy) :=
  t.entries.mapM (ofItem schema key)

/-- The order in query text, for a root alias. -/
def render (root : Text) (o : OrderBy) : Text :=
  root ++ "." ++ o.column ++ " " ++ o.direction.keyword

end OrderBy

end FilterPlan
