import FilterPlan.Proofs.Filter.Reading
import FilterPlan.Proofs.Predicate.Numbering
import Mathlib.Order.Lattice

/-!
# What filters and predicates mean

Both sides of the compiler have a truth value for each value of the column, over any totally ordered values and any
reading of patterns, absence, places and parameters (`Interpretation`). A filter is judged with its operands resolved
one by one (`Filter.holds`), a predicate with its parameters looked up in a table (`Predicate.holds?`, which is `none`
where a name is missing). Compilation keeps the truth value and leaves the entries of the table as they are
(`compile_preserves_meaning`).
-/

namespace FilterPlan

universe u

/-- Which value a parameter stands for, and the tests on values that are not given by their order. -/
structure Interpretation (V : Type u) where
  /-- The value of a parameter. -/
  value : ParamValue → V
  /-- Whether a value matches a pattern. -/
  like : V → V → Bool
  /-- Whether a value matches a pattern, letter case aside. -/
  likeIgnoringCase : V → V → Bool
  /-- Whether a value counts as absent. -/
  isNull : V → Bool
  /-- Whether a value lies within a radius of the point with a longitude and a latitude. -/
  near : V → V → V → V → Bool

/-! ## Operands in their places -/

/-- The value that a parameter name stands for, if the table has the name. -/
def Predicate.operand? {V : Type u} (I : Interpretation V) (table : ParamTable) (name : Text) : Option V :=
  (table.get? name).map I.value

theorem Predicate.operand?_of_get? {V : Type u} (I : Interpretation V) {table : ParamTable} {name : Text}
    {value : ParamValue} (h : table.get? name = some value) : operand? I table name = some (I.value value) := by
  rw [operand?, h]
  rfl

/-- The values of the operands are in the places of the table from `n` on. -/
def ParamTable.Stores (resolver : Resolver) (table : ParamTable) (n : Nat) (args : List Literal) : Prop :=
  ∀ i a, args[i]? = some a → table.get? (nameAt (n + i)) = some (resolver.resolve a)

namespace ParamTable

variable {resolver : Resolver} {table : ParamTable} {n : Nat}

theorem stores_cons {a : Literal} {args : List Literal} (h : Stores resolver table n (a :: args)) :
    table.get? (nameAt n) = some (resolver.resolve a) ∧ Stores resolver table (n + 1) args := by
  refine ⟨h 0 a rfl, fun i b hb => ?_⟩
  rw [Nat.add_assoc, Nat.add_comm 1 i]
  exact h (i + 1) b hb

theorem stores_append {args args' : List Literal} (h : Stores resolver table n (args ++ args')) :
    Stores resolver table n args ∧ Stores resolver table (n + args.length) args' := by
  constructor
  · intro i a ha
    have hi := (List.getElem?_eq_some_iff.mp ha).1
    exact h i a (by rw [List.getElem?_append_left hi, ha])
  · intro i a ha
    rw [Nat.add_assoc]
    exact h (args.length + i) a (by rw [List.getElem?_append_right (Nat.le_add_right _ _), Nat.add_sub_cancel_left, ha])

/-- Operands that have been bound are in the places behind those of the table. -/
theorem stores_bound (table : ParamTable) (args : List Literal) :
    Stores resolver (Filter.bound resolver args table) table.size args := by
  intro i a ha
  rw [get?_nameAt, Filter.bound, values_extend, List.getElem?_append_right, List.getElem?_map]
  all_goals rw [length_values]
  · rw [Nat.add_sub_cancel_left, ha]
    rfl
  · exact Nat.le_add_right _ _

/-- Consecutive names lead to the operands, each resolved on its own. -/
theorem mapM_operand? {V : Type u} (I : Interpretation V) : ∀ {args : List Literal} {n : Nat},
    Stores resolver table n args → (namesFrom n args.length).mapM (Predicate.operand? I table) =
      some (args.map fun a => I.value (resolver.resolve a))
  | [], _, _ => rfl
  | a :: args, n, h => by
    obtain ⟨ha, hrest⟩ := stores_cons h
    rw [List.length_cons, namesFrom_succ, List.mapM_cons, Predicate.operand?_of_get? I ha, mapM_operand? I hrest]
    rfl

end ParamTable

/-! ## Truth of comparisons -/

/-- A truth value, or its opposite if it is negated. -/
def negateIf (negated truth : Bool) : Bool :=
  if negated then !truth else truth

/-- All of the truth values, or any of them. -/
def Connective.combine : Connective → List Bool → Bool
  | and, truths => truths.all id
  | or, truths => truths.any id

section Truth

variable {V : Type u} [LinearOrder V]

/-- Whether a value compares with operands as the operator says. -/
def Operator.holds (I : Interpretation V) (x : V) : Operator → List V → Bool
  | eq, [a] => decide (x = a)
  | gt, [a] => decide (x > a)
  | gte, [a] => decide (x ≥ a)
  | lt, [a] => decide (x < a)
  | lte, [a] => decide (x ≤ a)
  | like, [a] => I.like x a
  | ilike, [a] => I.likeIgnoringCase x a
  | oneOf, as => decide (x ∈ as)
  | between, [low, high] => decide (low ≤ x) && decide (x ≤ high)
  | null, [] => I.isNull x
  | near, [longitude, latitude, radius] => I.near x longitude latitude radius
  | _, _ => false

/-- Whether a value is in a relation to another one. -/
def Relation.holds (x a : V) : Relation → Bool
  | eq => decide (x = a)
  | ne => decide (x ≠ a)
  | gt => decide (x > a)
  | ge => decide (x ≥ a)
  | lt => decide (x < a)
  | le => decide (x ≤ a)

/-- The opposite relation holds exactly where the relation does not. -/
theorem Relation.holds_negate (r : Relation) (x a : V) : r.negate.holds x a = !r.holds x a := by
  cases r <;> simp only [negate, holds, ← decide_not, not_not, ne_eq, gt_iff_lt, ge_iff_le, not_lt, not_le]

theorem Filter.holds_relation (op : Operator) (negated : Bool) (x a : V) :
    (relation op negated).holds x a = negateIf negated ((relation op false).holds x a) := by
  cases negated with
  | false => rfl
  | true => exact Relation.holds_negate (relation op false) x a

/-! ## Truth of filters and predicates -/

namespace Filter

variable (I : Interpretation V) (resolver : Resolver) (x : V)

mutual

/-- Whether a filter holds of a value, its operands resolved one by one. The negation of a group has no effect. -/
def holds : Filter → Bool
  | comparison op negated args => negateIf negated (op.holds I x (args.map fun a => I.value (resolver.resolve a)))
  | group op _ children => op.combine (holdsEach children)

/-- Which of the filters hold of a value. -/
def holdsEach : List Filter → List Bool
  | [] => []
  | f :: rest => f.holds :: holdsEach rest

end

end Filter

namespace Predicate

variable (I : Interpretation V) (table : ParamTable) (row : Column → V)

mutual

/-- Whether a predicate holds of a row, its parameters looked up in a table. There is no answer if one is missing. -/
def holds? : Predicate → Option Bool
  | compare column op param => (operand? I table param).map fun a => op.holds (row column) a
  | oneOf column negated params =>
    (params.mapM (operand? I table)).map fun as => negateIf negated (decide (row column ∈ as))
  | between column negated low high =>
    (operand? I table low).bind fun l => (operand? I table high).map fun h =>
      negateIf negated (decide (l ≤ row column) && decide (row column ≤ h))
  | like column negated ignoreCase param =>
    (operand? I table param).map fun a =>
      negateIf negated (if ignoreCase then I.likeIgnoringCase (row column) a else I.like (row column) a)
  | isNull column negated => some (negateIf negated (I.isNull (row column)))
  | near column negated longitude latitude radius =>
    (operand? I table longitude).bind fun a => (operand? I table latitude).bind fun b =>
      (operand? I table radius).map fun r => negateIf negated (I.near (row column) a b r)
  | group op children => (holdsEach? children).map op.combine

/-- Which of the predicates hold of a row. -/
def holdsEach? : List Predicate → Option (List Bool)
  | [] => some []
  | p :: rest => p.holds?.bind fun truth => (holdsEach? rest).map (truth :: ·)

end

end Predicate

/-! ## Compilation keeps the meaning -/

namespace Filter

open ParamTable Predicate

variable (I : Interpretation V) {resolver : Resolver} {table : ParamTable} (row : Column → V) (column : Column)

theorem holds?_numberedComparison {op : Operator} {args : List Literal} (takes : op.Takes args) (negated : Bool)
    {n : Nat} (h : Stores resolver table n args) :
    (numberedComparison column op negated args.length n).holds? I table row =
      some ((comparison op negated args).holds I resolver (row column)) := by
  cases op with
  | eq | gt | gte | lt | lte =>
    obtain ⟨a, rfl⟩ := takes
    obtain ⟨ha, -⟩ := stores_cons h
    simp only [numberedComparison, holds?, operand?_of_get? I ha, Option.map_some]
    rw [holds_relation]
    rfl
  | like | ilike =>
    obtain ⟨a, rfl⟩ := takes
    obtain ⟨ha, -⟩ := stores_cons h
    simp only [numberedComparison, holds?, operand?_of_get? I ha, Option.map_some]
    rfl
  | oneOf =>
    simp only [numberedComparison, holds?, ParamTable.mapM_operand? I h, Option.map_some]
    rfl
  | between =>
    obtain ⟨low, high, rfl⟩ := takes
    obtain ⟨hl, hrest⟩ := stores_cons h
    obtain ⟨hh, -⟩ := stores_cons hrest
    simp only [numberedComparison, holds?, operand?_of_get? I hl, operand?_of_get? I hh, Option.bind_some,
      Option.map_some]
    rfl
  | null =>
    cases takes
    rfl
  | near =>
    obtain ⟨longitude, latitude, radius, rfl⟩ := takes
    obtain ⟨ha, hrest⟩ := stores_cons h
    obtain ⟨hb, hrest⟩ := stores_cons hrest
    obtain ⟨hr, -⟩ := stores_cons hrest
    simp only [numberedComparison, holds?, operand?_of_get? I ha, operand?_of_get? I hb, operand?_of_get? I hr,
      Option.bind_some, Option.map_some]
    rfl

theorem holdsEach?_numberedAll : ∀ {children : List Filter},
    (∀ c ∈ children, ∀ n, Stores resolver table n c.literals →
      (c.numbered column n).holds? I table row = some (c.holds I resolver (row column))) →
    ∀ n, Stores resolver table n (children.flatMap literals) →
      holdsEach? I table row (numberedAll column children n) = some (holdsEach I resolver (row column) children)
  | [], _, _, _ => rfl
  | f :: rest, ih, n, h => by
    rw [List.flatMap_cons] at h
    obtain ⟨hf, hr⟩ := stores_append h
    have hrest := holdsEach?_numberedAll (fun c (hc : c ∈ rest) => ih c (List.mem_cons_of_mem f hc)) _ hr
    rw [numberedAll, holdsEach?, ih f List.mem_cons_self n hf, hrest]
    rfl

/-- A predicate whose operands are in their places holds where the filter does. -/
theorem holds?_numbered {f : Filter} (hf : f.WellFormed) : ∀ n, Stores resolver table n f.literals →
    (f.numbered column n).holds? I table row = some (f.holds I resolver (row column)) := by
  induction hf with
  | comparison takes => exact fun n h => holds?_numberedComparison I row column takes _ h
  | group _ _ ih =>
    intro n h
    rw [literals, literalsOfAll_eq] at h
    rw [numbered, holds?, holdsEach?_numberedAll I row column ih n h]
    rfl

/-- **Compilation preserves meaning.** The predicate that a filter is compiled to, its parameters looked up in the
table that compilation leaves, holds of a row just where the filter holds of the column's value; and the entries that
the table had before are at its front and found as before. -/
theorem compile_preserves_meaning (resolver : Resolver) (table : ParamTable) {key t : Text} {f : Filter}
    (h : parse key t = .ok f) :
    (f.compile resolver column table).1.holds? I (f.compile resolver column table).2 row =
        some (f.holds I resolver (row column)) ∧
      table.entries <+: (f.compile resolver column table).2.entries ∧
      ∀ name value, table.get? name = some value → (f.compile resolver column table).2.get? name = some value := by
  have hf := wellFormed_of_parse h
  rw [compile_eq resolver column hf]
  refine ⟨holds?_numbered I row column hf table.size (stores_bound table f.literals), ?_, ?_⟩
  · rw [bound, entries_extend]
    exact List.prefix_append _ _
  · intro name value hv
    exact get?_extend _ hv

end Filter

end Truth

/-! ## An instance -/

/-- Texts count by their length, and everything else is null, which is zero. -/
def lengths : Interpretation Nat where
  value
    | .scalar text => text.length
    | _ => 0
  like x pattern := x == pattern
  likeIgnoringCase x pattern := x ≤ pattern
  isNull x := x == 0
  near x longitude latitude radius := x ≤ longitude + latitude + radius

/-- A table with one entry, which is null. -/
def nullTable : ParamTable :=
  (ParamTable.bind {} .null).2

/-- A group inside a group, in a table that has an entry already: two letters are not between three and five, and are
more than nothing. -/
theorem Filter.compile_preserves_meaning_lengths : ∃ f,
    parse "k" "AND(!BET(abc,abcde),OR(GT(@me),NULL()))" = .ok f ∧
    (f.compile .anonymous (.ofRoot "id") nullTable).1.holds? lengths
      (f.compile .anonymous (.ofRoot "id") nullTable).2 (fun _ => 2) = some true := by
  have hparse : parse "k" "AND(!BET(abc,abcde),OR(GT(@me),NULL()))" = .ok (.group .and false
      [.comparison .between true [.scalar "abc", .scalar "abcde"],
        .group .or false [.comparison .gt false [.currentUser], .comparison .null false []]]) := rfl
  refine ⟨_, hparse, ?_⟩
  rw [(compile_preserves_meaning lengths (fun _ => 2) (.ofRoot "id") .anonymous nullTable hparse).1]
  rfl

end FilterPlan
