import FilterPlan.Config.Layers

/-!
# Options

The options of the command line, and what has been said by them. Those that set up the compiler may stand
before and behind the command, and an environment variable stands in for each; the others belong to the
command.
-/

namespace FilterPlan.CommandLine

/-- An option. Each takes a value. -/
inductive OptionName where
  /-- The file to read in place of the local one. -/
  | config
  /-- The order of a request that names none. -/
  | defaultOrder
  /-- The largest limit. -/
  | maxLimit
  /-- The seals that `@verified` stands for. -/
  | verifiedSeals
  /-- The file with the schemas. -/
  | schema
  /-- The file with the references. -/
  | user
deriving DecidableEq, Repr

namespace OptionName

/-- Every option. -/
def all : List OptionName :=
  [config, defaultOrder, maxLimit, verifiedSeals, schema, user]

/-- The option as a word, which stands behind two dashes. -/
def word : OptionName → Text
  | config => "config"
  | defaultOrder => "default-order"
  | maxLimit => "max-limit"
  | verifiedSeals => "verified-seals"
  | schema => "schema"
  | user => "user"

/-- The option as a letter, which stands behind one dash. -/
def letter? : OptionName → Option Char
  | config => some 'c'
  | schema => some 's'
  | user => some 'u'
  | _ => none

/-- The variable that stands in for the option. -/
def variableName? : OptionName → Option Text
  | config => some "APIQUERY_CONFIG"
  | defaultOrder => some "APIQUERY_DEFAULT_ORDER"
  | maxLimit => some "APIQUERY_MAX_LIMIT"
  | verifiedSeals => some "APIQUERY_VERIFIED_SEALS"
  | _ => none

/-- Whether the option may stand before the command. -/
def isShared (name : OptionName) : Bool :=
  name.variableName?.isSome

/-- The option with a word. -/
def ofWord? (word : Text) : Option OptionName :=
  all.find? fun name => name.word = word

/-- The option with a letter. -/
def ofLetter? (letter : Char) : Option OptionName :=
  all.find? fun name => name.letter? = some letter

end OptionName

/-- What has been said by options. -/
structure Given where
  /-- The settings. -/
  overrides : Overrides := {}
  /-- The file with the schemas. -/
  schemaPath? : Option Text := none
  /-- The file with the references. -/
  userPath? : Option Text := none
deriving DecidableEq, Repr

namespace Given

/-- Whether the option has been given. -/
def has (g : Given) : OptionName → Bool
  | .config => g.overrides.path?.isSome
  | .defaultOrder => g.overrides.defaultOrder?.isSome
  | .maxLimit => g.overrides.maxLimit?.isSome
  | .verifiedSeals => g.overrides.verifiedSeals?.isSome
  | .schema => g.schemaPath?.isSome
  | .user => g.userPath?.isSome

/-- Whether the option may be given again; its values are then taken together. -/
def mayRepeat : OptionName → Bool
  | .verifiedSeals => true
  | _ => false

/-- A path, which must not be empty. -/
def path? (value : Text) : Option Text :=
  if value.isEmpty then none else some value

/-- Numbers with commas between them. -/
def seals? (value : Text) : Option (List Nat) :=
  (value.fields (· == ',')).mapM Text.nat64?

/-- Takes the value of an option, whatever has been given before. -/
def put? (g : Given) (name : OptionName) (value : Text) : Option Given :=
  match name with
  | .config => (path? value).map fun path => { g with overrides.path? := some path }
  | .defaultOrder => some { g with overrides.defaultOrder? := some value }
  | .maxLimit => (Text.nat64? value).map fun n => { g with overrides.maxLimit? := some n }
  | .verifiedSeals =>
    (seals? value).map fun seals =>
      { g with overrides.verifiedSeals? := some ((g.overrides.verifiedSeals?.getD []) ++ seals) }
  | .schema => (path? value).map fun path => { g with schemaPath? := some path }
  | .user => (path? value).map fun path => { g with userPath? := some path }

/-- Takes an option with its value. -/
def add? (g : Given) (name : OptionName) (value : Text) : Option Given :=
  if g.has name && !mayRepeat name then none else g.put? name value

/-- Takes the value of an option from the environment unless it has been given. -/
def fill? (lookup : Text → Option Text) (g : Given) (name : OptionName) : Option Given :=
  match name.variableName?.bind lookup with
  | some value => if g.has name then some g else g.put? name value
  | none => some g

/-- Takes the values of the options that have not been given from the environment. -/
def fillAll? (lookup : Text → Option Text) (g : Given) : Option Given :=
  OptionName.all.foldlM (fill? lookup) g

end Given

end FilterPlan.CommandLine
