import FilterPlan.Column
import FilterPlan.Error
import FilterPlan.Plan.Names
import FilterPlan.Schema.Basic

/-!
# The field behind a filter key

A filter key can be the name of several things at once. They are tried in a fixed order: the user behind
the owner, an owning relation, a property, the type, a taxonomy, a metadata key, and last the keys that
are of no concern to the query.
-/

namespace FilterPlan

/-- What a filter key addresses. -/
inductive Field where
  /-- A property of the entity. -/
  | property (name : Text)
  /-- The user behind the owner of the entity. -/
  | ownerUser
  /-- A relation whose reference the entity holds. -/
  | owningRelation (name : Text)
  /-- A metadata key, with the number of its join. -/
  | metadata (n : Nat) (key : Text)
  /-- The terms of a taxonomy, with the number of their joins. -/
  | terms (n : Nat) (taxonomy : Nat)
  /-- The type of the entity. -/
  | entityType
  /-- Nothing: a key for the client's own use. -/
  | ignored
deriving DecidableEq, Repr

namespace Field

/-- The key of the user behind the owner. -/
def userKey : Text := "user"

/-- The key of the type. -/
def typeKey : Text := "type"

/-- A key for the client's own use. -/
def callbackKey : Text := "callback"

/-- The alias of a metadata join. -/
def metadataAlias (n : Nat) : Text := "m" ++ Text.ofNat n

/-- The alias of the join from an entity to its terms. -/
def termLinkAlias (n : Nat) : Text := "tr" ++ Text.ofNat n

/-- The alias of a term. -/
def termAlias (n : Nat) : Text := "t" ++ Text.ofNat n

/-- The column that the filter compares; an ignored key has none. -/
def column? : Field → Option Column
  | property name => some (.ofRoot name)
  | ownerUser => some (.through ownerAlias userKey)
  | owningRelation name => some (.ofRoot name)
  | metadata n _ => some (.through (metadataAlias n) "value")
  | terms n _ => some (.through (termAlias n) "term")
  | entityType => some (.ofRoot "_type")
  | ignored => none

/-- The joins that lead to the column, in order. -/
def joins : Field → List Join
  | ownerUser => [{ aliasName := ownerAlias, source := .ofRoot "owner" }]
  | metadata n key =>
    [{ aliasName := metadataAlias n, source := .ofRoot "__metadata", condition? := some (.metadataKey key) }]
  | terms n taxonomy =>
    [{ aliasName := termLinkAlias n, source := .ofRoot "__termRelations" },
      { aliasName := termAlias n, source := .through (termLinkAlias n) "term",
        condition? := some (.taxonomy taxonomy) }]
  | _ => []

/-- Whether a key that addresses nothing may be passed over. -/
def isBookkeeping (key : Text) : Bool :=
  key.head? == some '_' || key == callbackKey

/-- Finds what a key addresses. Each metadata key and taxonomy takes a number of its own. -/
def resolve (schema : Schema) (key : Text) (names : Names) : Except QueryError (Field × Names) :=
  if key = userKey ∧ schema.capabilities.usesOwnerAgent then .ok (ownerUser, names)
  else if schema.isOwningRelation key then .ok (owningRelation key, names)
  else if schema.hasProperty key then .ok (property key, names)
  else if key = typeKey ∧ schema.capabilities.usesTypes then .ok (entityType, names)
  else
    match schema.taxonomy? key with
    | some taxonomy =>
      let (n, names) := names.takeAlias
      .ok (terms n taxonomy, names)
    | none =>
      if schema.hasMetadataKey key then
        let (n, names) := names.takeAlias
        .ok (metadata n key, names)
      else if isBookkeeping key then .ok (ignored, names)
      else .error (.unknownField key)

end Field

end FilterPlan
