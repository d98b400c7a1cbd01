import FilterPlan.Text.Basic

/-!
# JSON values

Objects keep their members in the order of the text, repeated names included; what a repetition
means is up to whoever decodes the object. A number is an integer of 64 bits or a float.
-/

namespace FilterPlan

namespace Json

/-- A JSON number. -/
inductive Number where
  /-- A natural number below `2 ^ 64`. -/
  | natural (n : Nat)
  /-- The negative number `-n`, not below `-2 ^ 63`. -/
  | negative (n : Nat)
  /-- Any other number, as the float nearest to it. -/
  | float (x : Float)

end Json

/-- A JSON value. -/
inductive Json where
  /-- The value `null`. -/
  | null
  /-- A truth value. -/
  | bool (b : Bool)
  /-- A number. -/
  | number (n : Json.Number)
  /-- A string. -/
  | string (s : Text)
  /-- An array. -/
  | array (items : List Json)
  /-- An object, with its members in order. -/
  | object (members : List (Text × Json))
  /-- Well-formed text that stands for no value: a string with an unpaired surrogate, a number out of
  range, or an object with such a string among its names. It can be skipped but not decoded. -/
  | unreadable

namespace Json

instance : Inhabited Json := ⟨null⟩

/-- The number `n` as a value. -/
def ofNat (n : Nat) : Json :=
  number (.natural n)

/-- The encoded value, and `null` for none. -/
def ofOption {α : Type} (encode : α → Json) : Option α → Json
  | some a => encode a
  | none => null

mutual

/-- How deep arrays and objects nest in the value. -/
def depth : Json → Nat
  | array items => depthOfItems items + 1
  | object members => depthOfMembers members + 1
  | _ => 0

/-- The greatest depth among the values. -/
def depthOfItems : List Json → Nat
  | [] => 0
  | v :: rest => max v.depth (depthOfItems rest)

/-- The greatest depth among the values of the members. -/
def depthOfMembers : List (Text × Json) → Nat
  | [] => 0
  | (_, v) :: rest => max v.depth (depthOfMembers rest)

end

mutual

/-- Whether no part of the value is unreadable. -/
def isReadable : Json → Bool
  | unreadable => false
  | array items => areReadable items
  | object members => membersReadable members
  | _ => true

/-- Whether no part of any of the values is unreadable. -/
def areReadable : List Json → Bool
  | [] => true
  | v :: rest => v.isReadable && areReadable rest

/-- Whether no part of any member's value is unreadable. -/
def membersReadable : List (Text × Json) → Bool
  | [] => true
  | (_, v) :: rest => v.isReadable && membersReadable rest

end

end Json

end FilterPlan
