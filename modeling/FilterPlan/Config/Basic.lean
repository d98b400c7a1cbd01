import FilterPlan.Text.Basic

/-!
# Settings of the compiler
-/

namespace FilterPlan

/-- What a request may do, and what holds where it says nothing. -/
structure Config where
  /-- The seals that `@verified` stands for. -/
  verifiedSeals : List Nat := []
  /-- The order of a request that names none. -/
  defaultOrder : Text := "id ASC"
  /-- Properties that are always selected if the entity has them. -/
  implicitSelect : List Text := ["publicLocation"]
  /-- The largest limit, if there is one. -/
  maxLimit? : Option Nat := none
  /-- The largest number of filters. -/
  maxFilters : Nat := 50
deriving DecidableEq, Repr

end FilterPlan
