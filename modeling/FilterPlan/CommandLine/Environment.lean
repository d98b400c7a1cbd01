import FilterPlan.Text.Basic

/-!
# The environment

Variables with their values. Where a name is given more than once the first value counts.
-/

namespace FilterPlan.CommandLine

/-- Variables with their values. Of several values of a name the first counts. -/
abbrev Environment := List (Text × Text)

/-- The value of a variable. -/
def Environment.get? (environment : Environment) (name : Text) : Option Text :=
  environment.lookup name

/-- The value of a variable, empty if there is none. -/
def Environment.getD (environment : Environment) (name : Text) : Text :=
  (environment.get? name).getD []

end FilterPlan.CommandLine
