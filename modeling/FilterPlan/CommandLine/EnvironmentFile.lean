import FilterPlan.CommandLine.EnvironmentFile.Line
import FilterPlan.CommandLine.EnvironmentFile.Value
import FilterPlan.Files

/-!
# The environment file

The file `.env` of the current folder adds variables to those of the process, which come first. A line of it
is blank or `NAME=value` with an optional `export` in front. Nothing is read from the first line of any other
form on.
-/

namespace FilterPlan.CommandLine

namespace EnvironmentFile

/-- Whether the character may stand in the name of a variable, behind its first one. -/
def isNameChar (c : Char) : Bool :=
  c.isAlphanum || c == '_' || c == '.'

/-- Reads a name, and gives it with what follows it and its blanks. -/
def name? (t : Text) : Option (Text × Text) :=
  if (t.head?.map Text.isIdentifier.isStart).getD false then
    some (t.takeWhile isNameChar, (t.dropWhile isNameChar).dropWhile Text.isBlank)
  else none

/-- Reads a name and the equality sign behind it. -/
def assigned? (t : Text) : Option (Text × Text) := do
  let (name, rest) ← name? t
  return (name, ← Text.after? "=" rest)

/-- Reads a name and the equality sign behind it, with an optional `export` in front. -/
def exported? (t : Text) : Option (Text × Text) :=
  match assigned? t with
  | some found => some found
  | none =>
    match name? t with
    | some (name, rest) => if name = "export".toList then assigned? rest else none
    | none => none

/-- Reads `NAME=value` with an optional `export` in front. -/
def assignment? (environment : Environment) (t : Text) : Option (Text × Text) := do
  let (name, rest) ← exported? t
  return (name, ← value? environment (rest.dropWhile Text.isBlank))

/-- Adds what the lines assign, up to the first one that is of no known form. -/
def assignAll (environment : Environment) : List (Option Text) → Environment
  | some line :: rest =>
    let line := line.trim
    if line.isEmpty || line.head? = some '#' then assignAll environment rest
    else
      match assignment? environment line with
      | some assignment => assignAll (environment ++ [assignment]) rest
      | none => environment
  | _ => environment

/-- The words of a file, with and without the `_` between them: what the file refers to is among them. -/
def mentions (t : Text) : List Text :=
  t.pieces (!isReferenceChar ·) ++ t.pieces (!Text.isWordChar ·)

/-- The path of the file. -/
def path : Text := ".env"

/-- The mark that may stand in front of a text, to tell how it is encoded. -/
def byteOrderMark : Text := ['\uFEFF']

end EnvironmentFile

open EnvironmentFile in
/-- The variables with those of the environment file behind them. -/
def Environment.withFile (environment : Environment) (files : Files) : Environment :=
  match files.text? path with
  | some text => assignAll environment (lines ((Text.after? byteOrderMark text).getD text))
  | none => environment

end FilterPlan.CommandLine
