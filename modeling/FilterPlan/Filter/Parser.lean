import FilterPlan.Filter.Literal
import FilterPlan.Text.Nesting
import FilterPlan.Error

/-!
# Reading filters

The written form of a filter is a name with arguments in parentheses, `GT(10)` or
`OR(EQ(1),NULL())`, with an optional `!` in front. Spaces may precede it and may stand before the
parenthesis, letter case does not matter in names, and what follows the closing parenthesis is not
read. `Filter.parse` is the entry point.
-/

namespace FilterPlan

/-- What a name in front of a parenthesis means. -/
inductive Symbol where
  /-- A comparison. -/
  | operator (op : Operator)
  /-- A group. -/
  | connective (op : Connective)
deriving DecidableEq, Repr

/-- The meaning of a name in any letter case. -/
def Symbol.ofName? (name : Text) : Option Symbol :=
  match Connective.ofName? name.upper with
  | some op => some (connective op)
  | none => (Operator.ofName? name.upper).map operator

namespace Filter

/-- The beginning of an expression, up to and with the opening parenthesis. -/
structure Head where
  /-- Whether a `!` stands in front of the name. -/
  negated : Bool
  /-- The letters of the name. -/
  name : Text
  /-- The text behind the opening parenthesis. -/
  rest : Text
deriving DecidableEq, Repr

/-- Reads a name, any spaces and an opening parenthesis. -/
def Head.named? (negated : Bool) (t : Text) : Option Head :=
  let name := t.takeWhile Char.isAlpha
  match (t.dropWhile Char.isAlpha).dropWhile (· == ' ') with
  | '(' :: rest => if name.isEmpty then none else some ⟨negated, name, rest⟩
  | _ => none

/-- Reads the beginning of an expression. -/
def Head.ofText? (t : Text) : Option Head :=
  match t.dropWhile (· == ' ') with
  | '!' :: t => Head.named? true t
  | t => Head.named? false t

/-- Why a text is no filter. -/
inductive Rejection where
  /-- The expression, or one inside it, does not have the form of a filter. -/
  | malformed (expression : Text)
  /-- An expression has arguments that its name does not allow. -/
  | misuse (cause : Misuse)
deriving DecidableEq, Repr

/-- The rejection as an error about a key. -/
def Rejection.toError (key : Text) : Rejection → QueryError
  | malformed expression => .invalidExpression key expression
  | misuse cause => .invalidArgument key cause

/-- The operands of a comparison, from the text inside its parentheses. Only a list, a range and a
place take the text apart; in a pattern `*` stands for any text and is written `%`. -/
def operands (op : Operator) (inner : Text) : Except Misuse (List Literal) :=
  match op with
  | .eq | .gt | .gte | .lt | .lte => .ok [Literal.ofText inner]
  | .like | .ilike => .ok [Literal.ofText (inner.map fun c => if c = '*' then '%' else c)]
  | .null => .ok []
  | .oneOf =>
    let values := inner.segments
    if values.isEmpty then .error .emptyList else .ok (values.map Literal.ofText)
  | .between =>
    let values := inner.segments
    if values.length ≠ 2 then .error .betweenCount
    else if values.any fun v => v.head? == some '@' then .error .betweenReference
    else .ok (values.map Literal.scalar)
  | .near =>
    let values := inner.segments
    if values.length ≠ 3 then .error .nearCount else .ok (values.map Literal.ofText)

/-- Reads an expression in which at most `room` more groups may stand inside each other. -/
def read (room : Nat) (t : Text) : Except Rejection Filter :=
  match Head.ofText? t with
  | none => .error (.malformed t)
  | some head =>
    match Text.enclosed? head.rest with
    | none => .error (.malformed t)
    | some (inner, _) =>
      match Symbol.ofName? head.name with
      | none => .error (.malformed t)
      | some (.operator op) =>
        match operands op inner with
        | .error cause => .error (.misuse cause)
        | .ok args => .ok (comparison op head.negated args)
      | some (.connective op) =>
        match room with
        | 0 => .error (.misuse .tooDeep)
        | room + 1 =>
          match inner.segments.mapM (read room) with
          | .error rejection => .error rejection
          | .ok [] => .error (.misuse (.emptyGroup op))
          | .ok children => .ok (group op head.negated children)

/-- Reads the filter that a request puts under a key. -/
def parse (key : Text) (t : Text) : Except QueryError Filter :=
  if maxExpressionSize < t.byteSize then .error (.invalidArgument key .tooLong)
  else (read (maxExpressionDepth - 1) t).mapError (Rejection.toError key)

end Filter

end FilterPlan
