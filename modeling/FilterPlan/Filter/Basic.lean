import FilterPlan.Text.Basic

/-!
# Filters

A filter is the condition that a request puts on one field: a comparison with operands, or a group of
filters of which all or any must hold. Its written form is read in `FilterPlan.Filter.Parser`.
-/

namespace FilterPlan

/-- How the members of a group combine. -/
inductive Connective where
  /-- All of them must hold. -/
  | and
  /-- At least one of them must hold. -/
  | or
deriving DecidableEq, Repr

/-- The name of the connective, which is also its keyword in query text. -/
def Connective.name : Connective → Text
  | .and => "AND"
  | .or => "OR"

/-- The comparison operators. -/
inductive Operator where
  /-- Equal. -/
  | eq
  /-- Greater than. -/
  | gt
  /-- Greater than or equal. -/
  | gte
  /-- Less than. -/
  | lt
  /-- Less than or equal. -/
  | lte
  /-- Matches a pattern. -/
  | like
  /-- Matches a pattern, letter case aside. -/
  | ilike
  /-- One of a list. -/
  | oneOf
  /-- Between two bounds. -/
  | between
  /-- Without a value. -/
  | null
  /-- Within a radius of a point. -/
  | near
deriving DecidableEq, Repr

namespace Operator

/-- Every operator. -/
def all : List Operator :=
  [eq, gt, gte, lt, lte, like, ilike, oneOf, between, null, near]

/-- The name of the operator in a request. -/
def name : Operator → Text
  | eq => "EQ"
  | gt => "GT"
  | gte => "GTE"
  | lt => "LT"
  | lte => "LTE"
  | like => "LIKE"
  | ilike => "ILIKE"
  | oneOf => "IN"
  | between => "BET"
  | null => "NULL"
  | near => "GEONEAR"

/-- The operator with the given name in upper case. -/
def ofName? (name : Text) : Option Operator :=
  all.find? fun op => op.name = name

end Operator

/-- The connective with the given name in upper case. -/
def Connective.ofName? (name : Text) : Option Connective :=
  [Connective.and, Connective.or].find? fun op => op.name = name

/-- An operand of a comparison. -/
inductive Literal where
  /-- A text that stands for itself. -/
  | scalar (text : Text)
  /-- The user who makes the request. -/
  | currentUser
  /-- A property of that user. -/
  | userProperty (name : Text)
  /-- The profile of that user. -/
  | userProfile
  /-- The entity of a kind with a number. -/
  | lookup (kind : Text) (id : Nat)
  /-- A reference of no known form; it stands for no value. -/
  | unresolvable (text : Text)
deriving DecidableEq, Repr

/-- Whether the operand stands for something other than its own text. -/
def Literal.isReference : Literal → Bool
  | .scalar _ => false
  | _ => true

/-- A condition on one field. -/
inductive Filter where
  /-- A comparison of the field with operands, or its opposite. -/
  | comparison (op : Operator) (negated : Bool) (args : List Literal)
  /-- A group of conditions. A negation is recorded and has no effect. -/
  | group (op : Connective) (negated : Bool) (children : List Filter)

end FilterPlan
