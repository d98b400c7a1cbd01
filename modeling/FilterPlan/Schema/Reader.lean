import FilterPlan.Json.Decode
import FilterPlan.Json.Reader
import FilterPlan.Schema.Basic

/-!
# Schemas as JSON

Every field of a schema may be left out and is then empty. A registry is written as an array of schemas.
-/

namespace FilterPlan

/-- The set of the names, as a list in text order without repetition. -/
def nameSet (names : List Text) : List Text :=
  Text.sorted names.eraseDups

/-- Decodes a set of names. -/
def nameSet? (v : Json) : Option (List Text) :=
  (v.list? Json.text?).map nameSet

/-- Decodes a relation. -/
def Link.ofJson? (v : Json) : Option Link := do
  let fields ← v.fields? ["is_owning_side"]
  return { isOwning := ← fields.getD "is_owning_side" Json.bool? false }

/-- Decodes the capabilities of a kind. -/
def Capabilities.ofJson? (v : Json) : Option Capabilities := do
  let fields ← v.fields? ["uses_metadata", "uses_taxonomies", "uses_owner_agent", "uses_types"]
  return {
    usesMetadata := ← fields.getD "uses_metadata" Json.bool? false
    usesTaxonomies := ← fields.getD "uses_taxonomies" Json.bool? false
    usesOwnerAgent := ← fields.getD "uses_owner_agent" Json.bool? false
    usesTypes := ← fields.getD "uses_types" Json.bool? false }

namespace Schema

/-- The names of the fields of a schema, in the order of the array form. -/
def fieldNames : List Text :=
  ["kind", "class_name", "metadata_class_name", "properties", "relations", "metadata_keys", "taxonomies",
    "capabilities"]

/-- Decodes a schema. -/
def ofJson? (v : Json) : Option Schema := do
  let fields ← v.fields? fieldNames
  return {
    kind := ← fields.getD "kind" Json.text? []
    className := ← fields.getD "class_name" Json.text? []
    metadataClass? := ← fields.getD "metadata_class_name" (Json.option? Json.text?) none
    properties := ← fields.getD "properties" nameSet? []
    relations := ← fields.getD "relations" (Json.dict? Link.ofJson?) {}
    metadataKeys := ← fields.getD "metadata_keys" nameSet? []
    taxonomies := ← fields.getD "taxonomies" (Json.dict? Json.nat?) {}
    capabilities := ← fields.getD "capabilities" Capabilities.ofJson? {} }

/-- Reads a schema from JSON text. -/
def ofText? (t : Text) : Option Schema :=
  (Json.ofText? t).bind ofJson?

/-- The schema as JSON, with every field. -/
def toJson (s : Schema) : Json :=
  let names (l : List Text) : Json := .array (l.map .string)
  .object [
    ("kind", .string s.kind),
    ("class_name", .string s.className),
    ("metadata_class_name", .ofOption .string s.metadataClass?),
    ("properties", names s.properties),
    ("relations", .object (s.relations.sortedEntries.map fun (name, link) =>
      (name, .object [("is_owning_side", .bool link.isOwning)]))),
    ("metadata_keys", names s.metadataKeys),
    ("taxonomies", .object (s.taxonomies.sortedEntries.map fun (slug, id) => (slug, .ofNat id))),
    ("capabilities", .object [
      ("uses_metadata", .bool s.capabilities.usesMetadata),
      ("uses_taxonomies", .bool s.capabilities.usesTaxonomies),
      ("uses_owner_agent", .bool s.capabilities.usesOwnerAgent),
      ("uses_types", .bool s.capabilities.usesTypes)])]

end Schema

/-- Decodes a registry. That two schemas are for one kind shows only once all of them are decoded. -/
def Registry.ofJson (v : Json) : Except DataError Registry :=
  match v.list? Schema.ofJson? with
  | some schemas => Registry.ofList schemas
  | none => .error .malformed

/-- Reads a registry from JSON text. -/
def Registry.ofText (t : Text) : Except DataError Registry :=
  match Json.ofText? t with
  | some v => Registry.ofJson v
  | none => .error .malformed

end FilterPlan
