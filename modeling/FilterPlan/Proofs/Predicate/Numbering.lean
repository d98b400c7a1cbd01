import FilterPlan.Predicate.Compile
import FilterPlan.Proofs.Filter.Tree
import FilterPlan.Proofs.Param.Table

/-!
# Compilation in closed form

Compiling a well-formed filter has two results that do not depend on each other: the predicate, which is the filter
with its operands replaced by the names of consecutive places (`Filter.numbered`), and the table, which is extended by
the values of the operands in reading order (`compile_eq`). From this follow the order of the names
(`paramNames_numbered`) and that operands leave no trace in the predicate (`numbered_eq_of_erase`).
-/

namespace FilterPlan.Filter

open ParamTable

/-! ## Predicates with numbered parameters -/

/-- The predicate of a comparison with `count` operands, the first of which is in the place `n`. -/
def numberedComparison (column : Column) (op : Operator) (negated : Bool) (count n : Nat) : Predicate :=
  match op with
  | .eq | .gt | .gte | .lt | .lte => .compare column (relation op negated) (nameAt n)
  | .like => .like column negated false (nameAt n)
  | .ilike => .like column negated true (nameAt n)
  | .oneOf => .oneOf column negated (namesFrom n count)
  | .between => .between column negated (nameAt n) (nameAt (n + 1))
  | .null => .isNull column negated
  | .near => .near column negated (nameAt n) (nameAt (n + 1)) (nameAt (n + 2))

mutual

/-- The predicate of a filter whose operands are in the places from `n` on. -/
def numbered (column : Column) : Filter → Nat → Predicate
  | comparison op negated args, n => numberedComparison column op negated args.length n
  | group op _ children, n => .group op (numberedAll column children n)

/-- The predicates of several filters whose operands are in the places from `n` on. -/
def numberedAll (column : Column) : List Filter → Nat → List Predicate
  | [], _ => []
  | f :: rest, n => f.numbered column n :: numberedAll column rest (n + f.literals.length)

end

/-! ## What compilation gives -/

section Compile

variable (resolver : Resolver) (column : Column)

/-- The table with the values of the operands bound behind its own. -/
def bound (args : List Literal) (params : ParamTable) : ParamTable :=
  params.extend (args.map resolver.resolve)

theorem bound_append (args args' : List Literal) (params : ParamTable) :
    bound resolver (args ++ args') params = bound resolver args' (bound resolver args params) := by
  simp only [bound, extend_extend, List.map_append]

@[simp] theorem size_bound (args : List Literal) (params : ParamTable) :
    (bound resolver args params).size = params.size + args.length := by
  rw [bound, size_extend, List.length_map]

theorem compileComparison_eq {op : Operator} {args : List Literal} (h : op.Takes args) (negated : Bool)
    (params : ParamTable) : compileComparison resolver column op negated args params =
      (numberedComparison column op negated args.length params.size, bound resolver args params) := by
  cases op with
  | eq | gt | gte | lt | lte | like | ilike =>
    obtain ⟨operand, rfl⟩ := h
    simp only [compileComparison, bindFirst, firstOperand, List.headD_cons, bind_eq]
    rfl
  | oneOf =>
    simp only [compileComparison, bindOperands, bindAll_eq, List.length_map]
    rfl
  | between =>
    obtain ⟨low, high, rfl⟩ := h
    simp only [compileComparison, bindOperands, bindAll_eq]
    rfl
  | null =>
    cases h
    rfl
  | near =>
    obtain ⟨longitude, latitude, radius, rfl⟩ := h
    simp only [compileComparison, bindOperands, bindAll_eq]
    rfl

/-- The members of a group are compiled one after the other, each into the table that the one before it leaves. -/
theorem compileAll_eq : ∀ {children : List Filter},
    (∀ c ∈ children, ∀ params, compile resolver column c params =
      (c.numbered column params.size, bound resolver c.literals params)) →
    ∀ params, compileAll resolver column children params =
      (numberedAll column children params.size, bound resolver (children.flatMap literals) params)
  | [], _, _ => rfl
  | f :: rest, h, params => by
    have hrest := compileAll_eq fun c (hc : c ∈ rest) => h c (List.mem_cons_of_mem f hc)
    simp only [compileAll, h f List.mem_cons_self, hrest, numberedAll, size_bound, List.flatMap_cons, bound_append]

/-- The predicate is the filter with numbers for operands, and the table has their values bound in reading order. -/
theorem compile_eq {f : Filter} (h : f.WellFormed) : ∀ params : ParamTable,
    f.compile resolver column params = (f.numbered column params.size, bound resolver f.literals params) := by
  induction h with
  | comparison takes => exact compileComparison_eq resolver column takes _
  | group _ _ ih =>
    intro params
    simp only [compile, compileAll_eq resolver column ih, numbered, literals, literalsOfAll_eq]

end Compile

/-! ## Names and shape -/

theorem paramNames_numberedComparison {op : Operator} {args : List Literal} (h : op.Takes args) (column : Column)
    (negated : Bool) (n : Nat) :
    (numberedComparison column op negated args.length n).paramNames = namesFrom n args.length := by
  cases op with
  | eq | gt | gte | lt | lte | like | ilike =>
    obtain ⟨operand, rfl⟩ := h
    rfl
  | oneOf => rfl
  | between =>
    obtain ⟨low, high, rfl⟩ := h
    rfl
  | null =>
    cases h
    rfl
  | near =>
    obtain ⟨longitude, latitude, radius, rfl⟩ := h
    rfl

theorem paramNamesOfAll_numberedAll {column : Column} : ∀ {children : List Filter},
    (∀ c ∈ children, ∀ n, (c.numbered column n).paramNames = namesFrom n c.literals.length) →
    ∀ n, Predicate.paramNamesOfAll (numberedAll column children n) =
      namesFrom n (children.flatMap literals).length
  | [], _, _ => rfl
  | f :: rest, h, n => by
    have hrest := paramNamesOfAll_numberedAll fun c (hc : c ∈ rest) => h c (List.mem_cons_of_mem f hc)
    simp only [numberedAll, Predicate.paramNamesOfAll, h f List.mem_cons_self, hrest, List.flatMap_cons,
      List.length_append, namesFrom_add]

/-- The names of a predicate, in the order of the query text, are those of consecutive places. -/
theorem paramNames_numbered {f : Filter} (h : f.WellFormed) (column : Column) :
    ∀ n, (f.numbered column n).paramNames = namesFrom n f.literals.length := by
  induction h with
  | comparison takes => exact paramNames_numberedComparison takes column _
  | group _ _ ih =>
    intro n
    simp only [numbered, Predicate.paramNames, paramNamesOfAll_numberedAll ih, literals, literalsOfAll_eq]

theorem numberedAll_eraseAll {column : Column} : ∀ {children : List Filter},
    (∀ c ∈ children, ∀ n, c.erase.numbered column n = c.numbered column n) →
    ∀ n, numberedAll column (eraseAll children) n = numberedAll column children n
  | [], _, _ => rfl
  | f :: rest, h, n => by
    have hrest := numberedAll_eraseAll fun c (hc : c ∈ rest) => h c (List.mem_cons_of_mem f hc)
    simp only [eraseAll, numberedAll, h f List.mem_cons_self, length_literals_erase, hrest]

theorem numbered_erase (column : Column) (f : Filter) : ∀ n, f.erase.numbered column n = f.numbered column n := by
  induction f using induction with
  | comparison op negated args =>
    intro n
    simp only [erase, numbered, List.length_map]
  | group op negated children ih =>
    intro n
    simp only [erase, numbered, numberedAll_eraseAll ih]

/-- Filters of one shape have the same predicates. -/
theorem numbered_eq_of_erase {f g : Filter} (h : f.erase = g.erase) (column : Column) (n : Nat) :
    f.numbered column n = g.numbered column n := by
  rw [← numbered_erase, h, numbered_erase]

end FilterPlan.Filter
