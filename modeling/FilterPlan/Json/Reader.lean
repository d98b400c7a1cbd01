import FilterPlan.Json.Token

/-!
# Reading JSON text

`Json.ofText?` reads one value from the whole of a text. It goes through the tokens once and keeps a
stack of the arrays and objects that are still open.
-/

namespace FilterPlan.Json

/-- An array or object whose end is still to come. -/
inductive Frame where
  /-- The items of an array so far, the last one first. -/
  | array (reversed : List Json)
  /-- The members of an object so far, the last one first, and the name of the one being read. A name
  with an unpaired surrogate is `none`. -/
  | object (reversed : List (Option Text × Json)) (name? : Option Text)

/-- What may come next inside the innermost open array or object. -/
inductive Expectation where
  /-- A value. -/
  | value
  /-- The first item of an array, or its end. -/
  | itemOrEnd
  /-- The first name of an object, or its end. -/
  | nameOrEnd
  /-- A name. -/
  | name
  /-- The colon behind a name. -/
  | colon
  /-- A comma, or the end of the array or object. -/
  | commaOrEnd

/-- How far a value has been read. -/
inductive Reading where
  /-- The value is complete. -/
  | done (v : Json)
  /-- The frames that are open, the innermost one first, and what must come next. -/
  | inside (frames : List Frame) (next : Expectation)

namespace Reading

/-- The object with the given members; it is unreadable if one of its names is. -/
def close (reversed : List (Option Text × Json)) : Json :=
  match reversed.reverse.mapM fun m => m.1.map (·, m.2) with
  | some members => object members
  | none => unreadable

/-- Adds a complete value to the innermost open frame. -/
def supply (v : Json) : List Frame → Reading
  | [] => done v
  | .array reversed :: frames => inside (.array (v :: reversed) :: frames) .commaOrEnd
  | .object reversed name? :: frames => inside (.object ((name?, v) :: reversed) none :: frames) .commaOrEnd

/-- Takes the first token of a value. -/
def start? (frames : List Frame) : Token → Option Reading
  | .string (some s) => some (supply (string s) frames)
  | .string none => some (supply unreadable frames)
  | .scalar v => some (supply v frames)
  | .arrayStart => some (inside (.array [] :: frames) .itemOrEnd)
  | .objectStart => some (inside (.object [] none :: frames) .nameOrEnd)
  | _ => none

/-- Takes the name of a member, which is a string. -/
def name? : List Frame → Token → Option Reading
  | .object reversed _ :: frames, .string s? => some (inside (.object reversed s? :: frames) .colon)
  | _, _ => none

/-- Takes the end of the innermost open array or object. -/
def end? : List Frame → Token → Option Reading
  | .array reversed :: frames, .arrayEnd => some (supply (array reversed.reverse) frames)
  | .object reversed _ :: frames, .objectEnd => some (supply (close reversed) frames)
  | _, _ => none

/-- Takes a comma: another item or another member must follow. -/
def comma? : List Frame → Option Reading
  | .array reversed :: frames => some (inside (.array reversed :: frames) .value)
  | .object reversed name? :: frames => some (inside (.object reversed name? :: frames) .name)
  | [] => none

/-- Takes one token. -/
def step? : Reading → Token → Option Reading
  | done _, _ => none
  | inside frames .value, t => start? frames t
  | inside frames .itemOrEnd, .arrayEnd => end? frames .arrayEnd
  | inside frames .itemOrEnd, t => start? frames t
  | inside frames .nameOrEnd, .objectEnd => end? frames .objectEnd
  | inside frames .nameOrEnd, t => name? frames t
  | inside frames .name, t => name? frames t
  | inside frames .colon, .colon => some (inside frames .value)
  | inside _ .colon, _ => none
  | inside frames .commaOrEnd, .comma => comma? frames
  | inside frames .commaOrEnd, t => end? frames t

/-- The value, once it is complete. -/
def value? : Reading → Option Json
  | done v => some v
  | inside .. => none

end Reading

/-- Reads a value that takes up the whole text. -/
def ofText? (t : Text) : Option Json := do
  let tokens ← Token.ofText? t
  let reading ← tokens.foldlM Reading.step? (.inside [] .value)
  reading.value?

end FilterPlan.Json
