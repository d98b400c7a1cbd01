import FilterPlan.Json.Numeral

/-!
# Tokens of JSON

JSON text is cut into brackets, braces, commas, colons and scalars. Only space, tab, line feed and
carriage return may stand between tokens.
-/

namespace FilterPlan.Json

/-- A token of JSON text. -/
inductive Token where
  /-- An opening bracket. -/
  | arrayStart
  /-- A closing bracket. -/
  | arrayEnd
  /-- An opening brace. -/
  | objectStart
  /-- A closing brace. -/
  | objectEnd
  /-- A comma. -/
  | comma
  /-- A colon. -/
  | colon
  /-- A string, or `none` for one with an unpaired surrogate. -/
  | string (s? : Option Text)
  /-- A number, or a word such as `true`. -/
  | scalar (v : Json)

namespace Token

/-- The value of a hexadecimal digit. -/
def hexDigit? (c : Char) : Option Nat :=
  if c.isDigit then some (c.toNat - '0'.toNat)
  else if 'a' ≤ c && c ≤ 'f' then some (c.toNat - 'a'.toNat + 10)
  else if 'A' ≤ c && c ≤ 'F' then some (c.toNat - 'A'.toNat + 10)
  else none

/-- The number that four hexadecimal digits write. -/
def hexUnit? (a b c d : Char) : Option Nat := do
  return 4096 * (← hexDigit? a) + 256 * (← hexDigit? b) + 16 * (← hexDigit? c) + (← hexDigit? d)

/-- The character behind a one-letter escape. -/
def escaped? : Char → Option Char
  | '"' => some '"'
  | '\\' => some '\\'
  | '/' => some '/'
  | 'b' => some '\x08'
  | 'f' => some '\x0c'
  | 'n' => some '\n'
  | 'r' => some '\r'
  | 't' => some '\t'
  | _ => none

/-- Whether the number is the first half of a surrogate pair. -/
def isHighSurrogate (n : Nat) : Bool :=
  0xD800 ≤ n && n < 0xDC00

/-- Whether the number is the second half of a surrogate pair. -/
def isLowSurrogate (n : Nat) : Bool :=
  0xDC00 ≤ n && n < 0xE000

/-- The part of a string that has been read. -/
structure OpenString where
  /-- The characters, the last one first. -/
  reversed : Text := []
  /-- The first half of a surrogate pair whose second half must come next. -/
  high? : Option Nat := none
  /-- Whether every surrogate so far has found its other half. -/
  isPaired : Bool := true

namespace OpenString

/-- Appends a character, before which no half of a surrogate pair may be open. -/
def push (p : OpenString) (c : Char) : OpenString where
  reversed := c :: p.reversed
  isPaired := p.isPaired && p.high?.isNone

/-- Appends a 16-bit unit. -/
def pushUnit (p : OpenString) (n : Nat) : OpenString :=
  match p.high? with
  | some high =>
    if isLowSurrogate n then
      let code := 0x10000 + (high - 0xD800) * 0x400 + (n - 0xDC00)
      { reversed := Char.ofNat code :: p.reversed, isPaired := p.isPaired }
    else { p with high? := none, isPaired := false }
  | none =>
    if isHighSurrogate n then { p with high? := some n }
    else if isLowSurrogate n then { p with isPaired := false }
    else p.push (Char.ofNat n)

/-- The string, or `none` if half of a surrogate pair stands alone. -/
def value? (p : OpenString) : Option Text :=
  if p.isPaired && p.high?.isNone then some p.reversed.reverse else none

end OpenString

/-- Reads a string after its opening quote: the string and the text behind its closing quote. -/
def stringTail? (p : OpenString) : Text → Option (Option Text × Text)
  | [] => none
  | '"' :: rest => some (p.value?, rest)
  | '\\' :: 'u' :: a :: b :: c :: d :: rest =>
    match hexUnit? a b c d with
    | some n => stringTail? (p.pushUnit n) rest
    | none => none
  | '\\' :: e :: rest =>
    match escaped? e with
    | some c => stringTail? (p.push c) rest
    | none => none
  | c :: rest => if c.toNat < 0x20 || c == '\\' then none else stringTail? (p.push c) rest

theorem length_of_stringTail?_eq_some {p : OpenString} {t rest : Text} {s? : Option Text}
    (h : stringTail? p t = some (s?, rest)) : rest.length < t.length := by
  fun_induction stringTail? p t with
  | case1 => simp at h
  | case2 => simp_all
  | case3 _ _ _ _ _ _ _ _ ih => have := ih h; simp only [List.length_cons]; omega
  | case4 => simp at h
  | case5 _ _ _ _ _ _ ih => have := ih h; simp only [List.length_cons]; omega
  | case6 => simp at h
  | case7 => simp at h
  | case8 _ _ _ _ _ _ _ ih => have := ih h; simp only [List.length_cons]; omega

/-- Whether the character may stand between tokens. -/
def isSpace (c : Char) : Bool :=
  c == ' ' || c == '\t' || c == '\n' || c == '\r'

/-- Whether the character can be part of a numeral. -/
def isNumeric (c : Char) : Bool :=
  c.isDigit || c == '-' || c == '+' || c == '.' || c == 'e' || c == 'E'

theorem length_dropWhile_le (p : Char → Bool) (t : Text) : (t.dropWhile p).length ≤ t.length :=
  (List.dropWhile_sublist p).length_le

/-- Cuts the text into tokens; `reversed` holds those found already, the last one first. -/
def read? (reversed : List Token) (t : Text) : Option (List Token) :=
  match t with
  | [] => some reversed.reverse
  | '[' :: rest => read? (arrayStart :: reversed) rest
  | ']' :: rest => read? (arrayEnd :: reversed) rest
  | '\x7b' :: rest => read? (objectStart :: reversed) rest
  | '\x7d' :: rest => read? (objectEnd :: reversed) rest
  | ',' :: rest => read? (comma :: reversed) rest
  | ':' :: rest => read? (colon :: reversed) rest
  | 't' :: 'r' :: 'u' :: 'e' :: rest => read? (scalar (bool true) :: reversed) rest
  | 'f' :: 'a' :: 'l' :: 's' :: 'e' :: rest => read? (scalar (bool false) :: reversed) rest
  | 'n' :: 'u' :: 'l' :: 'l' :: rest => read? (scalar null :: reversed) rest
  | '"' :: rest =>
    match _h : stringTail? {} rest with
    | some (s?, rest) => read? (string s? :: reversed) rest
    | none => none
  | c :: rest =>
    if isSpace c then read? reversed rest
    else if isNumeric c then
      match Numeral.ofText? (c :: rest.takeWhile isNumeric) with
      | some a => read? (scalar a.value :: reversed) (rest.dropWhile isNumeric)
      | none => none
    else none
termination_by t.length
decreasing_by
  all_goals simp only [List.length_cons]
  all_goals first
    | omega
    | exact Nat.lt_succ_of_lt (length_of_stringTail?_eq_some _h)
    | exact Nat.lt_succ_of_le (length_dropWhile_le isNumeric rest)

/-- The tokens of a text, or `none` if it is no sequence of tokens. -/
def ofText? (t : Text) : Option (List Token) :=
  read? [] t

end Token

end FilterPlan.Json
