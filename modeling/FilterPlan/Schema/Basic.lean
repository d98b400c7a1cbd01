import FilterPlan.Dict

/-!
# Schemas

A schema tells what a kind of entities has: properties, relations to other entities, metadata keys and
taxonomies. A request can address nothing else. Sets of names are lists in text order without repetition.
-/

namespace FilterPlan

/-- A relation to other entities. -/
structure Link where
  /-- Whether the entity itself holds the reference, so that it can be compared like a column. -/
  isOwning : Bool := false
deriving DecidableEq, Repr

/-- The shortcuts and extensions that a kind supports. -/
structure Capabilities where
  /-- Metadata keys can be used. -/
  usesMetadata : Bool := false
  /-- Taxonomies can be used. -/
  usesTaxonomies : Bool := false
  /-- The user behind the owner can be used. -/
  usesOwnerAgent : Bool := false
  /-- The type can be used. -/
  usesTypes : Bool := false
deriving DecidableEq, Repr

/-- What a kind of entities has. -/
structure Schema where
  /-- The kind, as requests and references name it. -/
  kind : Text := []
  /-- The class of the entities in query text. -/
  className : Text := []
  /-- The class of the metadata rows, if there is one. -/
  metadataClass? : Option Text := none
  /-- The names of the properties. -/
  properties : List Text := []
  /-- The relations, by name. -/
  relations : Dict Link := {}
  /-- The metadata keys. -/
  metadataKeys : List Text := []
  /-- The numbers of the taxonomies, by slug. -/
  taxonomies : Dict Nat := {}
  /-- The shortcuts and extensions. -/
  capabilities : Capabilities := {}

namespace Schema

/-- Whether the name is a property. -/
def hasProperty (s : Schema) (name : Text) : Bool :=
  name ∈ s.properties

/-- Whether the name is a relation. -/
def hasRelation (s : Schema) (name : Text) : Bool :=
  s.relations.contains name

/-- Whether the name is a relation that can be compared like a column. -/
def isOwningRelation (s : Schema) (name : Text) : Bool :=
  match s.relations.get? name with
  | some link => link.isOwning
  | none => false

/-- Whether the key is a metadata key that can be used. -/
def hasMetadataKey (s : Schema) (key : Text) : Bool :=
  s.capabilities.usesMetadata && key ∈ s.metadataKeys

/-- The beginning of the keys that address a taxonomy. -/
def taxonomyMark : Text := "term:"

/-- The number of the taxonomy that a key such as `term:area` addresses. -/
def taxonomy? (s : Schema) (key : Text) : Option Nat :=
  if s.capabilities.usesTaxonomies then
    (Text.after? taxonomyMark key).bind s.taxonomies.get?
  else none

end Schema

/-- Why schemas or references cannot be loaded. -/
inductive DataError where
  /-- The file cannot be read. -/
  | unreadableFile
  /-- The text is no JSON text of the right form. -/
  | malformed
  /-- Two schemas are for the same kind. -/
  | duplicateKind (kind : Text)
deriving DecidableEq, Repr

/-- The schemas of several kinds. -/
structure Registry where
  /-- The schemas, in the order of registration. -/
  schemas : List Schema := []

namespace Registry

/-- The schema of a kind. -/
def get? (r : Registry) (kind : Text) : Option Schema :=
  r.schemas.find? fun s => s.kind = kind

/-- Adds the schema of a kind that has none so far. -/
def register (r : Registry) (s : Schema) : Except DataError Registry :=
  if (r.get? s.kind).isSome then .error (.duplicateKind s.kind) else .ok ⟨r.schemas ++ [s]⟩

/-- Registers schemas one after the other. -/
def ofList (schemas : List Schema) : Except DataError Registry :=
  schemas.foldlM register {}

/-- The kinds, in text order. -/
def kinds (r : Registry) : List Text :=
  Text.sorted (r.schemas.map Schema.kind)

end Registry

end FilterPlan
