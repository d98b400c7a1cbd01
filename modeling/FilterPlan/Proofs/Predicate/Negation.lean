import FilterPlan.Proofs.Predicate.Columns
import FilterPlan.Proofs.Predicate.Meaning

/-!
# Negation

A `!` in front of an expression changes only the mark of the outermost comparison or group (`read_negated`). For a group
the mark counts for nothing. For a comparison the predicate becomes its complement (`Predicate.Complements`): it reads
the same column and the same parameters, and its truth value is the opposite for every row. This holds for each
operator whatever its test is, so lists and ranges are given tests of their own here (`Tests`, `Predicate.passes?`).
-/

namespace FilterPlan

universe u

/-! ## Arbitrary tests -/

/-- An interpretation in which lists and ranges have tests of their own. -/
structure Tests (V : Type u) extends Interpretation V where
  /-- Whether a value counts as one of a list. -/
  oneOf : V → List V → Bool
  /-- Whether a value counts as between two bounds. -/
  between : V → V → V → Bool

/-- The tests that are given by equality and order. -/
def Interpretation.tests {V : Type u} [LinearOrder V] (I : Interpretation V) : Tests V where
  toInterpretation := I
  oneOf x as := Operator.oneOf.holds I x as
  between x low high := Operator.between.holds I x [low, high]

namespace Predicate

variable {V : Type u} [LinearOrder V]

section Passes

variable (T : Tests V) (table : ParamTable) (row : Column → V)

mutual

/-- Whether a row passes a predicate, its parameters looked up in a table. There is no answer if one is missing. -/
def passes? : Predicate → Option Bool
  | compare column op param => (operand? T.toInterpretation table param).map fun a => op.holds (row column) a
  | oneOf column negated params =>
    (params.mapM (operand? T.toInterpretation table)).map fun as => negateIf negated (T.oneOf (row column) as)
  | between column negated low high =>
    (operand? T.toInterpretation table low).bind fun l => (operand? T.toInterpretation table high).map fun h =>
      negateIf negated (T.between (row column) l h)
  | like column negated ignoreCase param =>
    (operand? T.toInterpretation table param).map fun a =>
      negateIf negated (if ignoreCase then T.likeIgnoringCase (row column) a else T.like (row column) a)
  | isNull column negated => some (negateIf negated (T.isNull (row column)))
  | near column negated longitude latitude radius =>
    (operand? T.toInterpretation table longitude).bind fun a =>
      (operand? T.toInterpretation table latitude).bind fun b =>
        (operand? T.toInterpretation table radius).map fun r => negateIf negated (T.near (row column) a b r)
  | group op children => (passesEach? children).map op.combine

/-- Which of the predicates a row passes. -/
def passesEach? : List Predicate → Option (List Bool)
  | [] => some []
  | p :: rest => p.passes?.bind fun truth => (passesEach? rest).map (truth :: ·)

end

end Passes

section Holds

variable (I : Interpretation V) (table : ParamTable) (row : Column → V)

mutual

/-- With the tests that are given by equality and order, the rows that pass are those that the predicate holds of. -/
theorem passes?_tests : ∀ p : Predicate, p.passes? I.tests table row = p.holds? I table row
  | compare .. | oneOf .. | between .. | like .. | isNull .. | near .. => rfl
  | group op children => congrArg (Option.map op.combine) (passesEach?_tests children)

theorem passesEach?_tests : ∀ ps : List Predicate, passesEach? I.tests table row ps = holdsEach? I table row ps
  | [] => rfl
  | p :: rest => by rw [passesEach?, holdsEach?, passes?_tests p, passesEach?_tests rest]

end

end Holds

/-- The second predicate is the complement of the first, where parameters are looked up in the table: both read the same
columns and parameters, and they have opposite truth values for every row, whatever the values and the tests. -/
structure Complements (table : ParamTable) (p q : Predicate) : Prop where
  columns : q.columns = p.columns
  paramNames : q.paramNames = p.paramNames
  opposite : ∀ {V : Type u} [LinearOrder V] (T : Tests V) (row : Column → V), ∃ truth,
    p.passes? T table row = some truth ∧ q.passes? T table row = some !truth

end Predicate

namespace Filter

open ParamTable Predicate

/-! ## The mark of a filter -/

/-- The filter with its outermost comparison or group marked as negated or not. -/
def mark (negated : Bool) : Filter → Filter
  | comparison op _ args => comparison op negated args
  | group op _ children => group op negated children

theorem Head.ofText?_plain {t : Text} (hspace : t.head? ≠ some ' ') (hnot : t.head? ≠ some '!') :
    Head.ofText? t = Head.named? false t := by
  cases t with
  | nil => rfl
  | cons c t =>
    have hc : (c == ' ') = false := beq_eq_false_iff_ne.mpr fun h => hspace (by rw [h]; rfl)
    unfold Head.ofText?
    rw [List.dropWhile_cons_of_neg (by rw [hc]; exact Bool.false_ne_true)]
    split
    · next h => exact absurd (congrArg List.head? h) hnot
    · rfl

theorem Head.ofText?_negated (t : Text) : Head.ofText? ('!' :: t) = Head.named? true t := rfl

/-- Nothing but the mark of a head depends on whether it is negated. -/
theorem Head.named?_eq_map (negated : Bool) (t : Text) :
    Head.named? negated t = (Head.named? false t).map fun head => { head with negated } := by
  unfold Head.named?
  dsimp only
  split
  · split <;> rfl
  · rfl

theorem isBody_mark {room : Nat} {head : Head} {inner : Text} {f : Filter} (negated : Bool)
    (h : IsBody room head inner f) : IsBody room { head with negated } inner (f.mark negated) := by
  rcases h with ⟨op, args, hs, ha, rfl⟩ | ⟨op, less, children, hs, hroom, hc, hne, rfl⟩
  · exact Or.inl ⟨op, args, hs, ha, rfl⟩
  · exact Or.inr ⟨op, less, children, hs, hroom, hc, hne, rfl⟩

theorem mark_of_isBody {room : Nat} {head : Head} {inner : Text} {f : Filter} (h : IsBody room head inner f) :
    f.mark head.negated = f := by
  rcases h with ⟨op, args, -, -, rfl⟩ | ⟨op, less, children, -, -, -, -, rfl⟩ <;> rfl

/-- An expression that has no mark is read without one, and with a `!` in front as the same filter with a mark. -/
theorem read_negated {room : Nat} {t : Text} {f : Filter} (hspace : t.head? ≠ some ' ') (hnot : t.head? ≠ some '!')
    (h : read room t = .ok f) : f.mark false = f ∧ read room ('!' :: t) = .ok (f.mark true) := by
  obtain ⟨head, inner, rest, hh, he, hbody⟩ := read_eq_ok_iff.mp h
  rw [Head.ofText?_plain hspace hnot] at hh
  have hplain : head.negated = false := by
    rw [Head.named?_eq_map] at hh
    obtain ⟨head', -, rfl⟩ := Option.map_eq_some_iff.mp hh
    rfl
  have hnegated : Head.ofText? ('!' :: t) = some { head with negated := true } := by
    rw [Head.ofText?_negated, Head.named?_eq_map, hh]
    rfl
  exact ⟨hplain ▸ mark_of_isBody hbody,
    read_eq_ok_iff.mpr ⟨_, inner, rest, hnegated, he, isBody_mark true hbody⟩⟩

/-! ## The predicates of marked filters -/

section Compile

variable (resolver : Resolver) (column : Column) (table : ParamTable)

/-- The mark of a group leaves no trace in its predicate. -/
theorem compile_mark_group (op : Connective) (negated negated' : Bool) (children : List Filter) :
    ((group op negated children).mark negated').compile resolver column table =
      (group op negated children).compile resolver column table := rfl

theorem passes?_numberedComparison {V : Type u} [LinearOrder V] (T : Tests V) (row : Column → V) {op : Operator}
    {args : List Literal} (takes : op.Takes args) {n : Nat} (h : Stores resolver table n args) : ∃ truth,
    (numberedComparison column op false args.length n).passes? T table row = some truth ∧
      (numberedComparison column op true args.length n).passes? T table row = some !truth := by
  -- a relation becomes the opposite one; everything else keeps its test, whose outcome is negated
  cases op with
  | eq | gt | gte | lt | lte =>
    obtain ⟨a, rfl⟩ := takes
    obtain ⟨ha, -⟩ := stores_cons h
    simp only [numberedComparison, passes?, operand?_of_get? _ ha, Option.map_some]
    exact ⟨_, rfl, congrArg some (holds_relation _ true _ _)⟩
  | like | ilike =>
    obtain ⟨a, rfl⟩ := takes
    obtain ⟨ha, -⟩ := stores_cons h
    simp only [numberedComparison, passes?, operand?_of_get? _ ha, Option.map_some]
    exact ⟨_, rfl, rfl⟩
  | oneOf =>
    simp only [numberedComparison, passes?, mapM_operand? _ h, Option.map_some]
    exact ⟨_, rfl, rfl⟩
  | between =>
    obtain ⟨low, high, rfl⟩ := takes
    obtain ⟨hl, hrest⟩ := stores_cons h
    obtain ⟨hh, -⟩ := stores_cons hrest
    simp only [numberedComparison, passes?, operand?_of_get? _ hl, operand?_of_get? _ hh, Option.bind_some,
      Option.map_some]
    exact ⟨_, rfl, rfl⟩
  | null => exact ⟨_, rfl, rfl⟩
  | near =>
    obtain ⟨longitude, latitude, radius, rfl⟩ := takes
    obtain ⟨ha, hrest⟩ := stores_cons h
    obtain ⟨hb, hrest⟩ := stores_cons hrest
    obtain ⟨hr, -⟩ := stores_cons hrest
    simp only [numberedComparison, passes?, operand?_of_get? _ ha, operand?_of_get? _ hb, operand?_of_get? _ hr,
      Option.bind_some, Option.map_some]
    exact ⟨_, rfl, rfl⟩

/-- The predicate of a negated comparison is the complement of that of the comparison, in the table that both leave. -/
theorem complements_compileComparison {op : Operator} {args : List Literal} (takes : op.Takes args) :
    (compileComparison resolver column op true args table).2 =
        (compileComparison resolver column op false args table).2 ∧
      Complements.{u} (compileComparison resolver column op false args table).2
        (compileComparison resolver column op false args table).1
        (compileComparison resolver column op true args table).1 := by
  rw [compileComparison_eq resolver column takes, compileComparison_eq resolver column takes]
  refine ⟨rfl, ?_, ?_, fun T row => ?_⟩
  · rw [columns_numberedComparison, columns_numberedComparison]
  · rw [paramNames_numberedComparison takes, paramNames_numberedComparison takes]
  · exact passes?_numberedComparison resolver column _ T row takes (stores_bound table args)

end Compile

/-- **Negation is the complement of a comparison and nothing on a group.** If an expression without a `!` in front is
accepted and leaves room for one, so it is with a `!`. Both bind the same parameters. The predicates of a comparison are
complements of each other, and those of a group are equal. -/
theorem parse_negated {key t : Text} {f : Filter} (h : parse key t = .ok f) (hsize : t.byteSize < 65536)
    (hspace : t.head? ≠ some ' ') (hnot : t.head? ≠ some '!') :
    ∃ g, parse key ('!' :: t) = .ok g ∧ ∀ resolver column table,
      (g.compile resolver column table).2 = (f.compile resolver column table).2 ∧
      (∀ op negated args, f = comparison op negated args →
        Complements.{u} (f.compile resolver column table).2 (f.compile resolver column table).1
          (g.compile resolver column table).1) ∧
      ∀ op negated children, f = group op negated children →
        (g.compile resolver column table).1 = (f.compile resolver column table).1 := by
  obtain ⟨-, hread⟩ := parse_eq_ok_iff.mp h
  obtain ⟨hplain, hnegated⟩ := read_negated hspace hnot hread
  have hbytes : Text.byteSize ('!' :: t) ≤ maxExpressionSize := by
    have hmark : '!'.utf8Size = 1 := rfl
    have hmax : maxExpressionSize = 65536 := rfl
    rw [Text.byteSize_cons]
    omega
  refine ⟨f.mark true, parse_eq_ok_iff.mpr ⟨hbytes, hnegated⟩, fun resolver column table => ?_⟩
  cases f with
  | comparison op negated args =>
    obtain rfl : false = negated := (Filter.comparison.inj hplain).2.1
    cases wellFormed_of_parse h with
    | comparison takes =>
      obtain ⟨htable, hcomplements⟩ := complements_compileComparison.{u} resolver column table takes
      exact ⟨htable, fun _ _ _ _ => hcomplements, nofun⟩
  | group op negated children =>
    have hsame := compile_mark_group resolver column table op negated true children
    exact ⟨congrArg Prod.snd hsame, nofun, fun _ _ _ _ => congrArg Prod.fst hsame⟩

/-- A length of four is between three and five but not if the range is negated, in a table that has an entry already;
and a negated group is the group. -/
theorem parse_negated_range : ∃ g g' f',
    parse "k" "!BET(abc,abcde)" = .ok g ∧ parse "k" "!or (NULL(),!EQ(@me))" = .ok g' ∧
    parse "k" "or (NULL(),!EQ(@me))" = .ok f' ∧
    (g.compile .anonymous (.ofRoot "id") nullTable).1.holds? lengths
      (g.compile .anonymous (.ofRoot "id") nullTable).2 (fun _ => 4) = some false ∧
    (g'.compile .anonymous (.ofRoot "id") {}).1 = (f'.compile .anonymous (.ofRoot "id") {}).1 := by
  have hrange : parse "k" "BET(abc,abcde)" = .ok (comparison .between false [.scalar "abc", .scalar "abcde"]) := rfl
  have hgroup : parse "k" "or (NULL(),!EQ(@me))" =
      .ok (group .or false [comparison .null false [], comparison .eq true [.currentUser]]) := rfl
  obtain ⟨g, hg, hcompile⟩ := parse_negated hrange (by decide) (by decide) (by decide)
  obtain ⟨g', hg', hcompile'⟩ := parse_negated.{0} hgroup (by decide) (by decide) (by decide)
  obtain ⟨htable, hcomplements, -⟩ := hcompile .anonymous (.ofRoot "id") nullTable
  obtain ⟨-, -, hequal⟩ := hcompile' .anonymous (.ofRoot "id") {}
  obtain ⟨truth, hf, hopposite⟩ := (hcomplements _ _ _ rfl).opposite lengths.tests fun _ => 4
  refine ⟨g, g', _, hg, hg', hgroup, ?_, hequal _ _ _ rfl⟩
  obtain rfl : true = truth := Option.some.inj hf
  rw [htable, ← passes?_tests, hopposite]
  rfl

end Filter

end FilterPlan
