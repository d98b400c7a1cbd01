import FilterPlan.Error
import FilterPlan.Plan.Names
import FilterPlan.Schema.Basic
import FilterPlan.Text.Blank

/-!
# What a request selects

The selection of a request lists names, `id,name,owner.id,owner.{id,name}`. A plain name is a property, a
metadata key or a relation, whichever comes first, and any other name is passed over. Members of a relation
are fetched by a query of their own, for which a sub-selection stands in. Blanks count for nothing.
-/

namespace FilterPlan

/-- A member of a related entity, to be fetched by a query of its own. -/
structure SubSelect where
  /-- The text that stands for the member until it is fetched. -/
  token : Text
  /-- The alias of the related entity in that query. -/
  aliasName : Text
  /-- The relation. -/
  path : Text
  /-- The member. -/
  member : Text
deriving DecidableEq, Repr

/-- The sub-selection with the number `n`. -/
def SubSelect.numbered (n : Nat) (path member : Text) : SubSelect where
  token := "#sq:" ++ Text.ofNat n
  aliasName := "sq" ++ Text.ofNat n
  path := path
  member := member

/-- Sub-selections for relations with their members. Each takes the next number. -/
def SubSelect.generate : List (Text × Text) → Names → List SubSelect × Names
  | [], names => ([], names)
  | (path, member) :: rest, names =>
    let (n, names) := names.takeSubSelect
    let (subSelects, names) := generate rest names
    (numbered n path member :: subSelects, names)

/-- What a request selects. -/
structure Selection where
  /-- Properties, without repetition. -/
  properties : List Text := []
  /-- Metadata keys, without repetition. -/
  metadata : List Text := []
  /-- Members of related entities. -/
  subSelects : List SubSelect := []
deriving DecidableEq, Repr

namespace Selection

/-- One thing that an item of the list asks for. -/
inductive Choice where
  /-- A property. -/
  | property (name : Text)
  /-- A metadata key. -/
  | metadata (key : Text)
  /-- A member of a related entity. -/
  | member (path member : Text)
  /-- Nothing. -/
  | nothing
deriving DecidableEq, Repr

namespace Choice

/-- The property, if the choice is one. -/
def property? : Choice → Option Text
  | property name => some name
  | _ => none

/-- The metadata key, if the choice is one. -/
def metadata? : Choice → Option Text
  | metadata key => some key
  | _ => none

/-- The relation and its member, if the choice is one. -/
def member? : Choice → Option (Text × Text)
  | member path name => some (path, name)
  | _ => none

end Choice

/-- The scan behind `items`: how many braces are open, and the current item in reverse. -/
def itemsFrom (depth : Nat) (item : Text) (items : List Text) : Text → List Text
  | [] => (item.reverse :: items).reverse
  | '\x7b' :: t => itemsFrom (depth + 1) ('\x7b' :: item) items t
  | '\x7d' :: t => itemsFrom (depth - 1) ('\x7d' :: item) items t
  | ',' :: t =>
    if depth = 0 then itemsFrom 0 [] (item.reverse :: items) t else itemsFrom depth (',' :: item) items t
  | c :: t => itemsFrom depth (c :: item) items t

/-- The nonempty items between the commas that stand outside braces. -/
def items (t : Text) : List Text :=
  (itemsFrom 0 [] [] t).filter (!·.isEmpty)

/-- The text between an opening brace in front and a closing brace at the end. -/
def braced? : Text → Option Text
  | '\x7b' :: t => if t.getLast? = some '\x7d' then some t.dropLast else none
  | _ => none

/-- The members that the text after a relation asks for. -/
def members (t : Text) : List Text :=
  match braced? t with
  | some inner => inner.pieces (· == ',')
  | none => [t]

/-- The key that errors of a selection are about. -/
def key : Text := "@select"

/-- What an item asks for; each part may be wrong on its own. -/
def choices (schema : Schema) (item : Text) : List (Except QueryError Choice) :=
  match Text.cutAt? '.' item with
  | some (path, rest) =>
    if schema.hasRelation path then
      (members rest).map fun m =>
        if m.isIdentifier then .ok (.member path m) else .error (.invalidArgument key (.badMember m item))
    else [.error (.unknownField path)]
  | none =>
    if schema.hasProperty item then [.ok (.property item)]
    else if schema.hasMetadataKey item then [.ok (.metadata item)]
    else if schema.hasRelation item then [.ok (.member item "id")]
    else [.ok .nothing]

/-- The selection of the choices; its sub-selections take their numbers. -/
def ofChoices (choices : List Choice) (names : Names) : Selection × Names :=
  let (subSelects, names) := SubSelect.generate (choices.filterMap Choice.member?) names
  ({
    properties := (choices.filterMap Choice.property?).eraseDups
    metadata := (choices.filterMap Choice.metadata?).eraseDups
    subSelects := subSelects }, names)

/-- Reads a selection. The first thing that is wrong makes it an error, and the sub-selections in front
of it keep their numbers all the same. -/
def parse (schema : Schema) (t : Text) (names : Names) : Except QueryError Selection × Names :=
  let wanted := (items t.squeeze).flatMap (choices schema)
  let sound := (wanted.takeWhile Except.isOk).filterMap Except.toOption
  let (selection, names) := ofChoices sound names
  ((wanted.mapM id).map fun _ => selection, names)

end Selection

end FilterPlan
