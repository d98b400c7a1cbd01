import FilterPlan.Filter.Basic
import FilterPlan.Text.Blank
import FilterPlan.Text.Word

/-!
# Reading operands

An operand that begins with `@`, blanks aside, is a reference; every other one is a scalar and keeps
its blanks.
-/

namespace FilterPlan.Literal

/-- Reads `@kind:id`, where the kind consists of word characters, the id is a 64-bit integer, and
spaces may surround the colon. -/
def lookup? : Text → Option Literal
  | '@' :: t =>
    let kind := t.takeWhile Text.isWordChar
    match (t.dropWhile Text.isWordChar).dropWhile (· == ' ') with
    | ':' :: t =>
      if kind.isEmpty then none
      else (Text.digits64? (t.dropWhile (· == ' '))).map (lookup kind)
    | _ => none
  | _ => none

/-- Reads a reference from a text without blanks at its ends, or gives `none` for any other text. -/
def reference? (t : Text) : Option Literal :=
  if t = "@me" then some currentUser
  else
    match Text.after? "@me." t with
    | some name => some (userProperty name)
    | none =>
      if t = "@profile" then some userProfile
      else
        match lookup? t with
        | some found => some found
        | none => if t.head? = some '@' then some (unresolvable t) else none

/-- Reads an operand. -/
def ofText (t : Text) : Literal :=
  (reference? t.trim).getD (scalar t)

end FilterPlan.Literal
