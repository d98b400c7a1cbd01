import FilterPlan.Filter.Basic

/-!
# Errors of a request

Every error names the key of the request that it is about. What is wrong with an argument is a
`Misuse`; its wording and that of all errors is given here and nowhere else.
-/

namespace FilterPlan

/-- The longest expression that is read, in bytes. -/
def maxExpressionSize : Nat := 65536

/-- One more than the number of groups that may stand inside each other. -/
def maxExpressionDepth : Nat := 32

/-- What is wrong with an argument. -/
inductive Misuse where
  /-- The expression is too long. -/
  | tooLong
  /-- Too many groups stand inside each other. -/
  | tooDeep
  /-- A group has no members. -/
  | emptyGroup (op : Connective)
  /-- A list of values is empty. -/
  | emptyList
  /-- A range does not have two bounds. -/
  | betweenCount
  /-- A bound of a range is a reference. -/
  | betweenReference
  /-- A place does not consist of two coordinates and a radius. -/
  | nearCount
  /-- A member of a sub-selection is no identifier. -/
  | badMember (member item : Text)
  /-- An item of an order is neither a property nor a property with a direction. -/
  | badOrder (item : Text)
  /-- A value is no unsigned 64-bit integer. -/
  | notNatural (value : Text)
  /-- A limit is beyond the configured one. -/
  | limitExceeded (max : Nat)
  /-- There are more filters than the configuration allows. -/
  | tooManyFilters (max : Nat)
  /-- The property of a sub-query is no identifier. -/
  | badSubquery
deriving DecidableEq, Repr

/-- The wording of a misuse. -/
def Misuse.message : Misuse → Text
  | tooLong => "expression exceeds maximum size of " ++ Text.ofNat maxExpressionSize ++ " bytes"
  | tooDeep => "expression nesting exceeds " ++ Text.ofNat maxExpressionDepth ++ " levels"
  | emptyGroup op => "expression " ++ op.name ++ " expects at least one expression"
  | emptyList => "expression IN expects at least one value"
  | betweenCount => "expression BET expects 2 arguments"
  | betweenReference => "expression BET expects 2 string or integer arguments"
  | nearCount => "expression GEONEAR expects 3 arguments: longitude, latitude and radius in meters"
  | badMember member item => "invalid sub-select member '" ++ member ++ "' in '" ++ item ++ "'"
  | badOrder item =>
    "Invalid order '" ++ item ++ "'. Use 'property', 'property ASC' or 'property DESC'"
  | notNatural value => "expected a non-negative integer, got '" ++ value ++ "'"
  | limitExceeded max => "limit must not exceed " ++ Text.ofNat max
  | tooManyFilters max => "too many filters (max " ++ Text.ofNat max ++ ")"
  | badSubquery => "sub-query property must be an identifier"

/-- Why a request has no plan. -/
inductive QueryError where
  /-- An expression does not have the form of a filter. -/
  | invalidExpression (key expression : Text)
  /-- An argument is not one that its place allows. -/
  | invalidArgument (key : Text) (cause : Misuse)
  /-- A key or name is none that the schema knows. -/
  | unknownField (key : Text)
  /-- No schema is registered for the kind. -/
  | unknownEntity (kind : Text)
deriving DecidableEq, Repr

namespace QueryError

/-- The code that tells the four kinds of error apart. -/
def code : QueryError → Text
  | invalidExpression .. => "INVALID_EXPRESSION"
  | invalidArgument .. => "INVALID_ARGUMENT"
  | unknownField _ => "UNKNOWN_FIELD"
  | unknownEntity _ => "UNKNOWN_ENTITY"

/-- The key, name or kind that the error is about. -/
def key : QueryError → Text
  | invalidExpression key _ => key
  | invalidArgument key _ => key
  | unknownField key => key
  | unknownEntity kind => kind

/-- Whether the request is at fault, and not the schemas that are registered. -/
def isClientError : QueryError → Bool
  | unknownEntity _ => false
  | _ => true

/-- The wording of an error about an argument. -/
def argumentMessage (key detail : Text) : Text :=
  "invalid argument for '" ++ key ++ "': " ++ detail

/-- The wording of the error. -/
def message : QueryError → Text
  | invalidExpression key expression => "invalid expression for '" ++ key ++ "': " ++ expression
  | invalidArgument key cause => argumentMessage key cause.message
  | unknownField key => "property " ++ key ++ " does not exist"
  | unknownEntity kind => "unknown entity kind: " ++ kind

end QueryError

end FilterPlan
