import FilterPlan.Text.Basic

/-!
# Generated names

The aliases of a plan are numbered, so that the same request always gets the same ones. Joins and the
root of the nested query share one count, sub-selections have another.
-/

namespace FilterPlan

/-- The alias of the entity that a query is about. -/
def rootAlias : Text := "e"

/-- The alias of the owner, where the user behind it is compared. -/
def ownerAlias : Text := "__user_agent__"

/-- The numbers that come next. -/
structure Names where
  /-- For joins and nested queries. -/
  aliases : Nat := 0
  /-- For sub-selections. -/
  subSelects : Nat := 0
deriving DecidableEq, Repr

namespace Names

/-- Takes the next number of a join. -/
def takeAlias (names : Names) : Nat × Names :=
  (names.aliases, { names with aliases := names.aliases + 1 })

/-- Takes the next number of a sub-selection. -/
def takeSubSelect (names : Names) : Nat × Names :=
  (names.subSelects, { names with subSelects := names.subSelects + 1 })

/-- Takes the next number for the root of a nested query: its alias. -/
def takeRoot (names : Names) : Text × Names :=
  let (n, names) := names.takeAlias
  (rootAlias ++ "_" ++ Text.ofNat n, names)

end Names

end FilterPlan
