import FilterPlan.Config.Basic
import FilterPlan.Plan.Order
import FilterPlan.Plan.Selection

/-!
# Directives

A key such as `@limit` is not a filter but says how the rows are fetched. Directives take effect in the
order of arrival, and each replaces what an earlier one has said about the same thing.
-/

namespace FilterPlan

/-- The directives of a request. -/
inductive Directive where
  /-- What to select. -/
  | select
  /-- How to sort. -/
  | order
  /-- How many rows to skip. -/
  | offset
  /-- Which page to show. -/
  | page
  /-- How many rows to show. -/
  | limit
  /-- A keyword to search for. -/
  | keyword
  /-- Permissions that the user must have. -/
  | permissions
  /-- Seals that the rows must have. -/
  | seals
  /-- The configured seals, whatever the value. -/
  | verified
  /-- That one filter is enough, whatever the value. -/
  | or
  /-- Files to fetch; it has no effect. -/
  | files
deriving DecidableEq, Repr

namespace Directive

/-- Every directive. -/
def all : List Directive :=
  [select, order, offset, page, limit, keyword, permissions, seals, verified, or, files]

/-- The key of a directive in lower case. -/
def key : Directive → Text
  | select => "@select"
  | order => "@order"
  | offset => "@offset"
  | page => "@page"
  | limit => "@limit"
  | keyword => "@keyword"
  | permissions => "@permissions"
  | seals => "@seals"
  | verified => "@verified"
  | or => "@or"
  | files => "@files"

/-- The directive of a key in any letter case, or `none` for the key of a filter. -/
def ofKey? (key : Text) : Option Directive :=
  all.find? fun d => d.key = key.lower

end Directive

/-- What the directives of a request say. -/
structure Settings where
  /-- What to select. -/
  selection? : Option Selection := none
  /-- How to sort. -/
  order? : Option (List OrderBy) := none
  /-- How many rows to skip. -/
  offset? : Option Nat := none
  /-- Which page to show. -/
  page? : Option Nat := none
  /-- How many rows to show. -/
  limit? : Option Nat := none
  /-- A keyword to search for. -/
  keyword? : Option Text := none
  /-- Permissions that the user must have. -/
  permissions : List Text := []
  /-- Seals that the rows must have. -/
  seals : List Nat := []
  /-- How the filters combine. -/
  combinator : Connective := .and
  /-- The names taken so far. -/
  names : Names := {}
deriving DecidableEq, Repr

namespace Settings

/-- Reads an integer, blanks around it aside. -/
def integer (key value : Text) : Except QueryError Nat :=
  match Text.nat64? value.trim with
  | some n => .ok n
  | none => .error (.invalidArgument key (.notNatural value))

/-- Reads a limit, which must not be beyond the configured one. -/
def limit (config : Config) (key value : Text) : Except QueryError Nat := do
  let n ← integer key value
  match config.maxLimit? with
  | some max => if max < n then .error (.invalidArgument key (.limitExceeded max)) else .ok n
  | none => .ok n

/-- Lets a directive take effect. -/
def apply (schema : Schema) (config : Config) (directive : Directive) (key value : Text) (s : Settings) :
    Except QueryError Settings :=
  match directive with
  | .select =>
    let (selection, names) := Selection.parse schema value s.names
    selection.map fun selection => { s with selection? := some selection, names := names }
  | .order => (OrderBy.parseList schema key value).map fun order => { s with order? := some order }
  | .offset => (integer key value).map fun n => { s with offset? := some n }
  | .page => (integer key value).map fun n => { s with page? := some n }
  | .limit => (limit config key value).map fun n => { s with limit? := some n }
  | .keyword => .ok { s with keyword? := some value }
  | .permissions => .ok { s with permissions := value.entries }
  | .seals => (value.entries.mapM (integer key)).map fun seals => { s with seals := seals }
  | .verified => .ok { s with seals := config.verifiedSeals }
  | .or => .ok { s with combinator := .or }
  | .files => .ok s

/-- Lets a parameter of the request take effect if its key is that of a directive. -/
def step (schema : Schema) (config : Config) (s : Settings) (param : Text × Text) :
    Except QueryError Settings :=
  match Directive.ofKey? param.1 with
  | some directive => apply schema config directive param.1 param.2 s
  | none => .ok s

/-- What the directives among the parameters say. -/
def ofParams (schema : Schema) (config : Config) (params : List (Text × Text)) :
    Except QueryError Settings :=
  params.foldlM (step schema config) {}

end Settings

end FilterPlan
