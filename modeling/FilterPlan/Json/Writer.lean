import FilterPlan.Json.Basic
import FilterPlan.Decimal.Shortest

/-!
# Writing JSON text

`Json.compact` writes a value on one line, `Json.pretty` writes each item and member on a line of its
own, indented by two spaces per level.
-/

namespace FilterPlan.Json

/-- A lower-case hexadecimal digit. -/
def hexChar (n : Nat) : Char :=
  if n < 10 then Char.ofNat ('0'.toNat + n) else Char.ofNat ('a'.toNat + (n - 10))

/-- How a character is written inside a string: quotes, backslashes and control characters are escaped. -/
def escapeChar (c : Char) : Text :=
  match c with
  | '"' => ['\\', '"']
  | '\\' => ['\\', '\\']
  | '\x08' => ['\\', 'b']
  | '\x0c' => ['\\', 'f']
  | '\n' => ['\\', 'n']
  | '\r' => ['\\', 'r']
  | '\t' => ['\\', 't']
  | c => if c.toNat < 0x20 then ['\\', 'u', '0', '0', hexChar (c.toNat / 16), hexChar (c.toNat % 16)] else [c]

/-- A string with its quotes. -/
def quoted (s : Text) : Text :=
  '"' :: (s.flatMap escapeChar ++ ['"'])

/-- A float is written positionally if its decimal point falls among the first sixteen places of its
digits or at most four places before them, and the fraction is then never left out. Else it is written with
an exponent and the sign of that. -/
def decimalText (d : Decimal) : Text :=
  let digits := Text.ofNat d.digits
  let point : Int := digits.length + d.exponent
  if 0 ≤ d.exponent && point ≤ 16 then
    digits ++ List.replicate d.exponent.toNat '0' ++ ".0"
  else if 0 < point && point ≤ 16 then
    digits.take point.toNat ++ "." ++ digits.drop point.toNat
  else if -5 < point && point ≤ 0 then
    "0." ++ List.replicate (-point).toNat '0' ++ digits
  else
    let mantissa : Text := if digits.length = 1 then digits else digits.take 1 ++ "." ++ digits.drop 1
    let sign : Text := if point ≤ 0 then "-" else "+"
    mantissa ++ "e" ++ sign ++ Text.ofNat (point - 1).natAbs

/-- The text of a float, with the fewest digits that read back as it. -/
def floatText (x : Float) : Text :=
  let sign : Text := if x.toBits.toNat < Nat.pow 2 63 then "" else "-"
  sign ++ decimalText (Decimal.ofFloat x)

/-- The text of a number. -/
def Number.text : Number → Text
  | .natural n => Text.ofNat n
  | .negative n => '-' :: Text.ofNat n
  | .float x => floatText x

mutual

/-- The value on one line, without spaces. -/
def compact : Json → Text
  | null => "null"
  | bool b => if b then "true" else "false"
  | number n => n.text
  | string s => quoted s
  | array items => '[' :: (Text.joinWith "," (compactItems items) ++ "]")
  | object members => '\x7b' :: (Text.joinWith "," (compactMembers members) ++ "\x7d")
  | unreadable => "null"

/-- The items, each on one line. -/
def compactItems : List Json → List Text
  | [] => []
  | v :: rest => v.compact :: compactItems rest

/-- The members, each on one line. -/
def compactMembers : List (Text × Json) → List Text
  | [] => []
  | (name, v) :: rest => (quoted name ++ ":" ++ v.compact) :: compactMembers rest

end

/-- A line break and the indentation of a level. -/
def newline (level : Nat) : Text :=
  '\n' :: List.replicate (2 * level) ' '

/-- Parts between an opening and a closing character: each part on a line of its own at the level
inside, and nothing at all between the two if there are no parts. -/
def block (start stop : Char) (level : Nat) (parts : List Text) : Text :=
  if parts.isEmpty then [start, stop]
  else
    start :: (newline (level + 1) ++ Text.joinWith (',' :: newline (level + 1)) parts ++ newline level ++ [stop])

mutual

/-- The value on several lines, beginning at a level of indentation. -/
def prettyAt (level : Nat) : Json → Text
  | array items => block '[' ']' level (prettyItems (level + 1) items)
  | object members => block '\x7b' '\x7d' level (prettyMembers (level + 1) members)
  | v => v.compact

/-- The items on several lines each. -/
def prettyItems (level : Nat) : List Json → List Text
  | [] => []
  | v :: rest => prettyAt level v :: prettyItems level rest

/-- The members on several lines each. -/
def prettyMembers (level : Nat) : List (Text × Json) → List Text
  | [] => []
  | (name, v) :: rest => (quoted name ++ ": " ++ prettyAt level v) :: prettyMembers level rest

end

/-- The value on several lines. -/
def pretty (v : Json) : Text :=
  prettyAt 0 v

end FilterPlan.Json
