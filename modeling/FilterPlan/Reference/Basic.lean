import FilterPlan.Dict
import FilterPlan.Json.Basic

/-!
# References

A request may refer to the user who makes it, to a property or the profile of that user, and to any
entity by kind and number. `Resolver` says what each reference stands for; `References` is the one that
is written out in a file. A reference that stands for nothing is no error.
-/

namespace FilterPlan

/-- A stored entity, by its kind and its number. -/
structure EntityRef where
  /-- The kind. -/
  kind : Text
  /-- The number. -/
  id : Nat
deriving DecidableEq, Repr

/-- What the references of a request stand for. -/
structure Resolver where
  /-- The user who makes the request, or `none` for a guest. -/
  user? : Option EntityRef
  /-- The properties of the user, by name. -/
  property? : Text → Option Json
  /-- The profile of the user. -/
  profile? : Option EntityRef
  /-- The entities, by kind and number. -/
  find? : Text → Nat → Option EntityRef

/-- For a guest, and without any entities. -/
def Resolver.anonymous : Resolver where
  user? := none
  property? _ := none
  profile? := none
  find? _ _ := none

/-- A user, as a file describes one. -/
structure Principal where
  /-- The number of the user. -/
  id : Nat := 0
  /-- The profile of the user. -/
  profile? : Option EntityRef := none
  /-- The properties of the user. -/
  properties : Dict Json := {}

/-- The kind of users. -/
def userKind : Text := "user"

/-- The property that is a user's number, whatever the properties of the user say. -/
def idProperty : Text := "id"

/-- A property of the user. -/
def Principal.property? (user : Principal) (name : Text) : Option Json :=
  if name = idProperty then some (Json.ofNat user.id) else user.properties.get? name

/-- A user and the entities that exist. -/
structure References where
  /-- The user, or `none` for a guest. -/
  user? : Option Principal := none
  /-- The numbers of the entities of each kind. -/
  entities : Dict (List Nat) := {}

namespace References

/-- The entity of a kind with a number, if there is one. -/
def find? (r : References) (kind : Text) (id : Nat) : Option EntityRef :=
  match r.entities.get? kind with
  | some ids => if id ∈ ids then some ⟨kind, id⟩ else none
  | none => none

/-- What references stand for according to the file. -/
def resolver (r : References) : Resolver where
  user? := r.user?.map fun user => ⟨userKind, user.id⟩
  property? name := r.user?.bind fun user => user.property? name
  profile? := r.user?.bind Principal.profile?
  find? := r.find?

end References

end FilterPlan
