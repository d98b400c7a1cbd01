import FilterPlan.Filter.Basic
import FilterPlan.Reference.Basic

/-!
# Bound parameters

No operand of a request enters the query text. Each becomes the value of a parameter, and the text
has the parameter's name. Names follow from the order of binding: the first is `v0`, the next `v1`.
-/

namespace FilterPlan

/-- The value of a parameter. -/
inductive ParamValue where
  /-- No value. -/
  | null
  /-- A text. -/
  | scalar (text : Text)
  /-- A property of the user. -/
  | json (value : Json)
  /-- An entity. -/
  | entity (ref : EntityRef)

instance : Inhabited ParamValue := ⟨.null⟩

/-- Whether there is no value. -/
def ParamValue.isNull : ParamValue → Bool
  | null => true
  | _ => false

/-- The value that an operand stands for; a reference to nothing is null. -/
def Resolver.resolve (r : Resolver) : Literal → ParamValue
  | .scalar text => .scalar text
  | .currentUser => (r.user?.map .entity).getD .null
  | .userProperty name => ((r.property? name).map .json).getD .null
  | .userProfile => (r.profile?.map .entity).getD .null
  | .lookup kind id => ((r.find? kind id).map .entity).getD .null
  | .unresolvable _ => .null

/-- The name of the parameter in the place `i`. -/
def ParamTable.nameAt (i : Nat) : Text :=
  'v' :: Text.ofNat i

theorem ParamTable.names_nil : ([] : List (Text × ParamValue)).map Prod.fst = (List.range 0).map nameAt := rfl

/-- The parameters of a plan, in binding order. -/
structure ParamTable where
  /-- In each place the name of a parameter and its value. -/
  places : Array (Text × ParamValue) := #[]
  /-- The names follow from the places. -/
  names_places : places.toList.map Prod.fst = (List.range places.size).map ParamTable.nameAt := by
    exact ParamTable.names_nil

namespace ParamTable

instance : Inhabited ParamTable := ⟨{}⟩

theorem nameAt_injective {i j : Nat} (h : nameAt i = nameAt j) : i = j :=
  Text.ofNat_injective (List.cons.inj h).2

/-- The number of parameters. -/
def size (table : ParamTable) : Nat :=
  table.places.size

/-- The names with their values, in binding order. -/
def entries (table : ParamTable) : List (Text × ParamValue) :=
  table.places.toList

/-- The value of a parameter. -/
def get? (table : ParamTable) (name : Text) : Option ParamValue :=
  table.entries.lookup name

/-- Whether a parameter has the name. -/
def contains (table : ParamTable) (name : Text) : Bool :=
  (table.get? name).isSome

/-- Binds one more parameter: its name, and the table with it. -/
def bind (table : ParamTable) (value : ParamValue) : Text × ParamTable :=
  let name := nameAt table.size
  (name, {
    places := table.places.push (name, value)
    names_places := by simp [table.names_places, List.range_succ, name, size] })

/-- Binds parameters one after the other: their names, and the table with them. -/
def bindAll (table : ParamTable) : List ParamValue → List Text × ParamTable
  | [] => ([], table)
  | value :: values =>
    let (name, table) := table.bind value
    let (names, table) := table.bindAll values
    (name :: names, table)

@[simp] theorem size_bind (table : ParamTable) (value : ParamValue) :
    (table.bind value).2.size = table.size + 1 :=
  Array.size_push _

/-- Binding adds one entry at the end. -/
@[simp] theorem entries_bind (table : ParamTable) (value : ParamValue) :
    (table.bind value).2.entries = table.entries ++ [(nameAt table.size, value)] :=
  Array.toList_push

end ParamTable

end FilterPlan
