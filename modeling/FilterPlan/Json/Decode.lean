import FilterPlan.Dict
import FilterPlan.Json.Basic

/-!
# Decoding JSON values

Each decoder gives `none` for a value of the wrong shape. A record may be written as an object, where
unknown names are skipped and no known name may stand twice, or as an array of its fields in order.
-/

namespace FilterPlan.Json

/-- A string. -/
def text? : Json → Option Text
  | string s => some s
  | _ => none

/-- A truth value. -/
def bool? : Json → Option Bool
  | bool b => some b
  | _ => none

/-- A natural number below `2 ^ 64`. -/
def nat? : Json → Option Nat
  | number (.natural n) => some n
  | _ => none

/-- A value, or `null` for none. -/
def option? {α : Type} (decode? : Json → Option α) : Json → Option (Option α)
  | null => some none
  | v => (decode? v).map some

/-- An array. -/
def list? {α : Type} (decode? : Json → Option α) : Json → Option (List α)
  | array items => items.mapM decode?
  | _ => none

/-- An object whose names are free. Of a repeated name the last value counts. -/
def dict? {α : Type} (decode? : Json → Option α) : Json → Option (Dict α)
  | object members => (members.mapM fun m => (decode? m.2).map (m.1, ·)).map Dict.ofList
  | _ => none

/-- The deepest nesting of arrays and objects in a text. -/
def maxDepth : Nat := 127

mutual

/-- The value with every repeated name of its objects reduced to the last value, at the first place. -/
def merged : Json → Json
  | array items => array (mergedItems items)
  | object members => object (Dict.ofList (mergedMembers members)).entries
  | v => v

/-- The values, each merged. -/
def mergedItems : List Json → List Json
  | [] => []
  | v :: rest => v.merged :: mergedItems rest

/-- The members, each with its value merged. -/
def mergedMembers : List (Text × Json) → List (Text × Json)
  | [] => []
  | (name, v) :: rest => (name, v.merged) :: mergedMembers rest

end

/-- Any value, which stands inside `level` arrays and objects of its text. -/
def any? (level : Nat) (v : Json) : Option Json :=
  if v.isReadable && v.depth + level ≤ maxDepth then some v.merged else none

/-- The fields of a record, by name, as far as they are written. -/
abbrev Fields := List (Text × Json)

/-- The fields of a record with the given names. -/
def fields? (names : List Text) : Json → Option Fields
  | object members =>
    let known := members.filter fun m => names.contains m.1
    if (known.map Prod.fst).Nodup then some known else none
  | array items => if items.length ≤ names.length then some (names.zip items) else none
  | _ => none

/-- A field that need not be written. -/
def Fields.getD {α : Type} (fields : Fields) (name : Text) (decode? : Json → Option α) (default : α) :
    Option α :=
  match fields.lookup name with
  | some v => decode? v
  | none => some default

/-- A field that must be written. -/
def Fields.get? {α : Type} (fields : Fields) (name : Text) (decode? : Json → Option α) : Option α :=
  (fields.lookup name).bind decode?

end FilterPlan.Json
