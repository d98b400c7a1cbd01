import FilterPlan.Config.Basic
import FilterPlan.Files
import FilterPlan.Json.Decode
import FilterPlan.Json.Reader
import FilterPlan.Text.Blank

/-!
# Layers of settings

Settings come in layers: the defaults, the file in the profile folder, a file named on the command line or
else the local one, and the command line itself. Each setting is that of the last layer that gives it.
-/

namespace FilterPlan

/-- The settings that a file gives. -/
structure ConfigFile where
  /-- The seals that `@verified` stands for. -/
  verifiedSeals? : Option (List Nat) := none
  /-- The order of a request that names none. -/
  defaultOrder? : Option Text := none
  /-- Properties that are always selected if the entity has them. -/
  implicitSelect? : Option (List Text) := none
  /-- The largest limit. -/
  maxLimit? : Option Nat := none
  /-- The largest number of filters. -/
  maxFilters? : Option Nat := none
deriving DecidableEq, Repr

/-- The settings that the command line gives. -/
structure Overrides where
  /-- The file to read in place of the local one. -/
  path? : Option Text := none
  /-- The order of a request that names none. -/
  defaultOrder? : Option Text := none
  /-- The largest limit. -/
  maxLimit? : Option Nat := none
  /-- The seals that `@verified` stands for. -/
  verifiedSeals? : Option (List Nat) := none
deriving DecidableEq, Repr

/-- The settings of both; where both give one, that of `upper` counts. -/
def Overrides.overlay (lower upper : Overrides) : Overrides where
  path? := upper.path? <|> lower.path?
  defaultOrder? := upper.defaultOrder? <|> lower.defaultOrder?
  maxLimit? := upper.maxLimit? <|> lower.maxLimit?
  verifiedSeals? := upper.verifiedSeals? <|> lower.verifiedSeals?

/-- Why there are no settings. -/
inductive ConfigError where
  /-- The file named on the command line does not exist. -/
  | missing (path : Text)
  /-- A file cannot be read. -/
  | unreadable (path : Text)
  /-- A file is no JSON text of the right form. -/
  | malformed (path : Text)
  /-- The default order is blank. -/
  | blankOrder
  /-- No filter would be allowed. -/
  | noFilters
  /-- No row would be allowed. -/
  | noRows
deriving DecidableEq, Repr

/-- The wording of the error. -/
def ConfigError.message : ConfigError → Text
  | missing path => "Config file not found: " ++ path
  | unreadable path => "Failed to read config file: " ++ path
  | malformed path => "Failed to parse config file: " ++ path
  | blankOrder => "Configuration error: query.default_order must not be empty"
  | noFilters => "Configuration error: query.max_filters must be greater than 0"
  | noRows => "Configuration error: query.max_limit must be greater than 0"

namespace ConfigFile

/-- The names of the settings, in the order of the array form. -/
def fieldNames : List Text :=
  ["verified_seal_ids", "default_order", "implicit_select", "max_limit", "max_filters"]

/-- Whether the value is an array that leaves settings out. -/
def isShortArray : Json → Bool
  | .array items => items.length < fieldNames.length
  | _ => false

/-- Decodes the section with the settings. A setting may be left out or `null`, but an array must be full. -/
def ofSection? (v : Json) : Option ConfigFile := do
  if isShortArray v then none
  let fields ← v.fields? fieldNames
  return {
    verifiedSeals? := ← fields.getD "verified_seal_ids" (Json.option? (Json.list? Json.nat?)) none
    defaultOrder? := ← fields.getD "default_order" (Json.option? Json.text?) none
    implicitSelect? := ← fields.getD "implicit_select" (Json.option? (Json.list? Json.text?)) none
    maxLimit? := ← fields.getD "max_limit" (Json.option? Json.nat?) none
    maxFilters? := ← fields.getD "max_filters" (Json.option? Json.nat?) none }

/-- The name of the section with the settings. -/
def sectionName : Text := "query"

/-- Decodes a file, which is an object with at most one section of settings. Its other members are of no
effect, but they must be values. -/
def ofJson? : Json → Option ConfigFile
  | .object members =>
    let (sections, others) := members.partition fun m => m.1 == sectionName
    if others.all fun m => (m.2.any? 1).isSome then
      match sections with
      | [] => some {}
      | [(_, v)] => (v.option? ofSection?).map fun settings? => settings?.getD {}
      | _ => none
    else none
  | _ => none

/-- Reads the file at a path. -/
def load (files : Files) (path : Text) : Except ConfigError ConfigFile :=
  match files.text? path with
  | none => .error (.unreadable path)
  | some text =>
    match (Json.ofText? text).bind ofJson? with
    | some settings => .ok settings
    | none => .error (.malformed path)

/-- The settings of both files; where both give one, that of `upper` counts. -/
def overlay (lower upper : ConfigFile) : ConfigFile where
  verifiedSeals? := upper.verifiedSeals? <|> lower.verifiedSeals?
  defaultOrder? := upper.defaultOrder? <|> lower.defaultOrder?
  implicitSelect? := upper.implicitSelect? <|> lower.implicitSelect?
  maxLimit? := upper.maxLimit? <|> lower.maxLimit?
  maxFilters? := upper.maxFilters? <|> lower.maxFilters?

end ConfigFile

namespace Config

/-- The name of a file with settings. -/
def fileName : Text := "apiquery.json"

/-- The file in the profile folder. Without a home folder there is none. -/
def profilePath? (home? : Option Text) : Option Text :=
  home?.map fun home => Files.join (Files.join home ".apiquery") fileName

/-- The path of the second file: the one named on the command line, which must exist, or else the local
one if it exists. -/
def overlayPath? (files : Files) (home? : Option Text) (overrides : Overrides) :
    Except ConfigError (Option Text) :=
  match overrides.path? with
  | some path =>
    let path := Files.expandHome home? path
    if files.hasEntry path then .ok (some path) else .error (.missing path)
  | none => .ok ((some fileName).filter files.hasEntry)

/-- Puts the settings of a file over others, if there is a file. -/
def withFile (files : Files) (settings : ConfigFile) : Option Text → Except ConfigError ConfigFile
  | some path => (ConfigFile.load files path).map settings.overlay
  | none => .ok settings

/-- The settings of the files and the command line over the defaults. -/
def layer (settings : ConfigFile) (overrides : Overrides) : Config :=
  let defaults : Config := {}
  { verifiedSeals := (overrides.verifiedSeals? <|> settings.verifiedSeals?).getD defaults.verifiedSeals
    defaultOrder := (overrides.defaultOrder? <|> settings.defaultOrder?).getD defaults.defaultOrder
    implicitSelect := settings.implicitSelect?.getD defaults.implicitSelect
    maxLimit? := overrides.maxLimit? <|> settings.maxLimit?
    maxFilters := settings.maxFilters?.getD defaults.maxFilters }

/-- Refuses settings under which no request could work. -/
def validate (config : Config) : Except ConfigError Config :=
  if config.defaultOrder.trim.isEmpty then .error .blankOrder
  else if config.maxFilters = 0 then .error .noFilters
  else if config.maxLimit? = some 0 then .error .noRows
  else .ok config

/-- Loads the settings from all layers. -/
def load (files : Files) (home? : Option Text) (overrides : Overrides) : Except ConfigError Config := do
  let settings ← withFile files {} ((profilePath? home?).filter files.hasEntry)
  let path? ← overlayPath? files home? overrides
  let settings ← withFile files settings path?
  validate (layer settings overrides)

end Config

end FilterPlan
