import FilterPlan.Json.Decode
import FilterPlan.Json.Reader
import FilterPlan.Reference.Basic
import FilterPlan.Schema.Basic

/-!
# References as JSON

Every field may be left out, but a profile needs both its kind and its number.
-/

namespace FilterPlan

/-- Decodes the kind and number of an entity. -/
def EntityRef.ofJson? (v : Json) : Option EntityRef := do
  let fields ← v.fields? ["kind", "id"]
  return { kind := ← fields.get? "kind" Json.text?, id := ← fields.get? "id" Json.nat? }

/-- The kind and number of an entity as JSON. -/
def EntityRef.toJson (r : EntityRef) : Json :=
  .object [("kind", .string r.kind), ("id", .ofNat r.id)]

/-- How many objects stand around the value of a property in the text of references. -/
def Principal.propertyLevel : Nat := 3

/-- Decodes a user. -/
def Principal.ofJson? (v : Json) : Option Principal := do
  let fields ← v.fields? ["id", "profile", "properties"]
  return {
    id := ← fields.getD "id" Json.nat? 0
    profile? := ← fields.getD "profile" (Json.option? EntityRef.ofJson?) none
    properties := ← fields.getD "properties" (Json.dict? (Json.any? propertyLevel)) {} }

/-- The user as JSON. -/
def Principal.toJson (user : Principal) : Json :=
  .object [
    ("id", .ofNat user.id),
    ("profile", .ofOption EntityRef.toJson user.profile?),
    ("properties", .object user.properties.entries)]

namespace References

/-- The set of the numbers, as a list in ascending order without repetition. -/
def idSet (ids : List Nat) : List Nat :=
  ids.eraseDups.mergeSort

/-- Decodes references. -/
def ofJson? (v : Json) : Option References := do
  let fields ← v.fields? ["user", "entities"]
  return {
    user? := ← fields.getD "user" (Json.option? Principal.ofJson?) none
    entities := ← fields.getD "entities" (Json.dict? fun ids => (ids.list? Json.nat?).map idSet) {} }

/-- Reads references from JSON text. -/
def ofText (t : Text) : Except DataError References :=
  match (Json.ofText? t).bind ofJson? with
  | some r => .ok r
  | none => .error .malformed

/-- The references as JSON, kinds and numbers in order. -/
def toJson (r : References) : Json :=
  .object [
    ("user", .ofOption Principal.toJson r.user?),
    ("entities", .object (r.entities.sortedEntries.map fun (kind, ids) => (kind, .array (ids.map .ofNat))))]

end References

end FilterPlan
