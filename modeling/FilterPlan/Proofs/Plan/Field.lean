import FilterPlan.Plan.Field
import FilterPlan.Proofs.Plan.Clauses
import FilterPlan.Proofs.Text.Numbered

/-!
# What a key addresses

What a key addresses depends on the schema only, but for the number that its joins take (`Field.resolve_eq`). A field
takes at most one number, for all of its joins.
-/

namespace FilterPlan.Field

/-! ## Numbers -/

/-- How many numbers the joins of the field take. -/
def width : Field → Nat
  | metadata _ _ => 1
  | terms _ _ => 1
  | _ => 0

/-- The field with another number for its joins. -/
def withNumber (n : Nat) : Field → Field
  | metadata _ key => metadata n key
  | terms _ taxonomy => terms n taxonomy
  | field => field

@[simp] theorem isSome_column?_withNumber (field : Field) (n : Nat) :
    (field.withNumber n).column?.isSome = field.column?.isSome := by
  cases field <;> rfl

/-! ## Aliases -/

/-- What the aliases of numbered joins begin with. -/
def aliasStems : List Text := ["m", "tr", "t"]

theorem isStem_of_mem_aliasStems : ∀ s ∈ aliasStems, Text.IsStem s := by decide

theorem isStem_ownerAlias : Text.IsStem ownerAlias := by decide

/-! ## Resolving keys -/

/-- What a key addresses, if it addresses anything. -/
def ofKey? (schema : Schema) (key : Text) : Option Field :=
  (resolve schema key {}).toOption.map Prod.fst

/-- What a key addresses is known from the schema, and the next number is the only one that it takes. -/
theorem resolve_eq (schema : Schema) (key : Text) (names : Names) : resolve schema key names =
    match ofKey? schema key with
    | some field => .ok (field.withNumber names.aliases, { names with aliases := names.aliases + field.width })
    | none => .error (.unknownField key) := by
  unfold ofKey? resolve
  split
  · rfl
  split
  · rfl
  split
  · rfl
  split
  · rfl
  cases schema.taxonomy? key with
  | some taxonomy => rfl
  | none =>
    simp only
    split
    · rfl
    split
    · rfl
    · rfl

/-- A key has a column if what it addresses has one. -/
theorem reaches_iff {schema : Schema} {key : Text} :
    reaches schema key ↔ ∃ field, ofKey? schema key = some field ∧ field.column?.isSome := by
  unfold reaches ofKey?
  cases resolve schema key {} with
  | error e => simp [Except.toOption]
  | ok found => simp [Except.toOption]

end FilterPlan.Field
