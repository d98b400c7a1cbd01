import FilterPlan.CommandLine.Environment
import FilterPlan.Text.Word

/-!
# The values of an environment file

In single quotes every character is itself. Elsewhere a backslash escapes, and `$NAME` or `$` with a name in
braces stands for the value of a variable. Outside quotes a gap ends the value, and only a comment may follow
it.
-/

namespace FilterPlan.CommandLine.EnvironmentFile

/-- What the next character of a value belongs to. Where that may be inside double quotes, `inQuotes` tells. -/
inductive ValueState where
  /-- The value itself. -/
  | plain (inQuotes : Bool)
  /-- A part in single quotes. -/
  | single
  /-- An escape. -/
  | escape (inQuotes : Bool)
  /-- The name of a variable, as far as it has been read. -/
  | bareName (inQuotes : Bool) (name : Text)
  /-- The name of a variable in braces, as far as it has been read. -/
  | bracedName (inQuotes : Bool) (name : Text)
  /-- The gap behind the value. -/
  | gap
  /-- The comment behind the gap. -/
  | comment
deriving DecidableEq, Repr

/-- What an escaped character stands for. -/
def escaped? (c : Char) : Option Char :=
  if c = 'n' then some '\n' else if "\\'\"$ ".toList.contains c then some c else none

/-- Whether the character makes a gap. -/
def isGap (c : Char) : Bool :=
  c == ' ' || c == '\t'

/-- Whether the character belongs to the name of a variable that is not in braces: it is a letter or a digit. -/
def isReferenceChar (c : Char) : Bool :=
  Text.isWordChar c && c != '_'

/-- Takes a character of a value, given the value so far. -/
def ValueState.step? (environment : Environment) :
    ValueState × Text → Char → Option (ValueState × Text)
  | (.plain true, value), c =>
    some (
      if c = '"' then (.plain false, value)
      else if c = '\\' then (.escape true, value)
      else if c = '$' then (.bareName true [], value)
      else (.plain true, value ++ [c]))
  | (.plain false, value), c =>
    some (
      if c = '\'' then (.single, value)
      else if c = '"' then (.plain true, value)
      else if c = '\\' then (.escape false, value)
      else if c = '$' then (.bareName false [], value)
      else if isGap c then (.gap, value)
      else (.plain false, value ++ [c]))
  | (.single, value), c => some (if c = '\'' then (.plain false, value) else (.single, value ++ [c]))
  | (.escape inQuotes, value), c => (escaped? c).map fun meant => (.plain inQuotes, value ++ [meant])
  | (.bareName inQuotes name, value), c =>
    some (
      if isReferenceChar c then (.bareName inQuotes (name ++ [c]), value)
      else if c = '\x7b' && name.isEmpty then (.bracedName inQuotes [], value)
      else if c = '$' then (.bareName inQuotes [], value ++ environment.getD name)
      else (.plain inQuotes, value ++ environment.getD name ++ [c]))
  | (.bracedName inQuotes name, value), c =>
    some (
      if c = '\x7d' then (.plain inQuotes, value ++ environment.getD name)
      else (.bracedName inQuotes (name ++ [c]), value))
  | (.gap, value), c => if isGap c then some (.gap, value) else if c = '#' then some (.comment, value) else none
  | (.comment, value), _ => some (.comment, value)

/-- The value at the end of a line. No quote and no brace may be open there. -/
def ValueState.finish? (environment : Environment) : ValueState × Text → Option Text
  | (.plain false, value) | (.escape false, value) | (.gap, value) | (.comment, value) => some value
  | (.bareName false name, value) => some (value ++ environment.getD name)
  | _ => none

/-- Reads a value, given the variables that it may refer to. -/
def value? (environment : Environment) (t : Text) : Option Text :=
  if t.head? = some '#' then some []
  else (t.foldlM (ValueState.step? environment) (.plain false, [])).bind (ValueState.finish? environment)

end FilterPlan.CommandLine.EnvironmentFile
