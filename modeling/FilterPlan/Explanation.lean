import FilterPlan.Config.Basic
import FilterPlan.Files
import FilterPlan.Plan.Build
import FilterPlan.Plan.Render
import FilterPlan.Reference.Reader
import FilterPlan.Schema.Reader

/-!
# Explanations

An explanation lists every query of a plan with its parameters. `Explanation.load` makes one from files with
schemas and references.
-/

namespace FilterPlan

/-- The value of a parameter as JSON. -/
def ParamValue.toJson : ParamValue → Json
  | null => .object [("type", .string "null")]
  | scalar text => .object [("type", .string "scalar"), ("value", .string text)]
  | json value => .object [("type", .string "json"), ("value", value)]
  | entity ref => .object [("type", .string "entity"), ("value", ref.toJson)]

/-- The parameters as JSON, in binding order. -/
def ParamTable.toJson (table : ParamTable) : Json :=
  .array (table.entries.map fun (name, value) => .object [("name", .string name), ("value", value.toJson)])

/-- Query text as JSON, with what is needed to run it. -/
def RenderedQuery.toJson (q : RenderedQuery) : Json :=
  .object [
    ("dql", .string q.text),
    ("params", q.params.toJson),
    ("offset", .ofNat q.offset),
    ("limit", .ofOption .ofNat q.limit?)]

/-- The queries of a plan. -/
structure Explanation where
  /-- Finds the rows. -/
  find : RenderedQuery
  /-- Counts the rows. -/
  count : RenderedQuery
  /-- Fetches the selected metadata. -/
  metadata? : Option Text
  /-- Fetch the members of related entities, by token. -/
  subSelects : List (Text × Text)

/-- Why there is no explanation. -/
inductive ExplainError where
  /-- The schemas cannot be loaded. -/
  | schemas (path : Text) (cause : DataError)
  /-- The references cannot be loaded. -/
  | references (path : Text) (cause : DataError)
  /-- The request has no plan. -/
  | query (cause : QueryError)
deriving DecidableEq, Repr

namespace ExplainError

/-- The wording of the error. -/
def message : ExplainError → Text
  | schemas path _ => "Failed to load schema file: " ++ path
  | references path _ => "Failed to load references file: " ++ path
  | query cause => cause.message ++ " (" ++ cause.code ++ ")"

/-- What is wrong with the file, if the error is about one. -/
def cause? : ExplainError → Option DataError
  | schemas _ cause => some cause
  | references _ cause => some cause
  | query _ => none

end ExplainError

namespace Explanation

/-- Explains a plan. -/
def ofPlan (p : Plan) : Explanation where
  find := p.find
  count := p.count
  metadata? := p.metadataText?
  subSelects := p.subSelects.filterMap fun s => (p.subSelectText? s.token).map fun text => (s.token, text)

/-- A query for the members of related entities as JSON, with the token that it is for. -/
def subSelectJson (subSelect : Text × Text) : Json :=
  .object [("token", .string subSelect.1), ("dql", .string subSelect.2)]

/-- The explanation as JSON; metadata that are not selected are left out. -/
def toJson (e : Explanation) : Json :=
  let queries : List (Text × Json) := [("find", e.find.toJson), ("count", e.count.toJson)]
  let metadata : List (Text × Json) :=
    match e.metadata? with
    | some text => [("metadata", .string text)]
    | none => []
  let subSelects : List (Text × Json) := [("sub_selects", .array (e.subSelects.map subSelectJson))]
  .object (queries ++ metadata ++ subSelects)

/-- Reads a file and decodes its text. -/
def readFile {α : Type} (files : Files) (decode : Text → Except DataError α) (path : Text) :
    Except DataError α :=
  match files.text? path with
  | some text => decode text
  | none => .error .unreadableFile

/-- What references stand for according to a file, and nothing if no file is given. -/
def loadResolver (files : Files) : Option Text → Except ExplainError Resolver
  | some path =>
    ((readFile files References.ofText path).map References.resolver).mapError (.references path)
  | none => .ok .anonymous

/-- Explains the plan of a request for entities of a kind. -/
def load (files : Files) (config : Config) (kind schemaPath : Text) (userPath? : Option Text)
    (request : Request) : Except ExplainError Explanation := do
  let registry ← (readFile files Registry.ofText schemaPath).mapError (.schemas schemaPath)
  let resolver ← loadResolver files userPath?
  let plan ← (Plan.build registry kind resolver config request).mapError .query
  return ofPlan plan

end Explanation

end FilterPlan
