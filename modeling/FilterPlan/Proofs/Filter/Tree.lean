import FilterPlan.Filter.Basic

/-!
# Filters as trees

Views of a filter that the theory of the compiler is stated with: its operands in reading order (`Filter.literals`), its
shape without them (`Filter.erase`), how deep its groups nest (`Filter.groupDepth`), the comparisons that stand in it
(`Filter.Compares`), and whether every one has the operands that its operator takes (`Filter.WellFormed`).
-/

namespace FilterPlan

namespace Filter

/-- Induction on filters: what holds of comparisons, and of a group if it holds of its members, holds of all. -/
theorem induction {motive : Filter → Prop}
    (comparison : ∀ op negated args, motive (.comparison op negated args))
    (group : ∀ op negated children, (∀ c ∈ children, motive c) → motive (.group op negated children)) :
    ∀ f, motive f
  | .comparison op negated args => comparison op negated args
  | .group op negated children => group op negated children fun c _ => induction comparison group c

/-! ## Views -/

mutual

/-- The operands of a filter, depth first and from left to right. -/
def literals : Filter → List Literal
  | comparison _ _ args => args
  | group _ _ children => literalsOfAll children

/-- The operands of several filters, in order. -/
def literalsOfAll : List Filter → List Literal
  | [] => []
  | f :: rest => f.literals ++ literalsOfAll rest

end

mutual

/-- The filter with the same empty text for every operand. -/
def erase : Filter → Filter
  | comparison op negated args => comparison op negated (args.map fun _ => .scalar [])
  | group op negated children => group op negated (eraseAll children)

/-- The filters with the same empty text for every operand. -/
def eraseAll : List Filter → List Filter
  | [] => []
  | f :: rest => f.erase :: eraseAll rest

end

mutual

/-- The largest number of groups that stand inside each other. -/
def groupDepth : Filter → Nat
  | comparison _ _ _ => 0
  | group _ _ children => groupDepthOfAll children + 1

/-- The largest number of groups that stand inside each other in one of the filters. -/
def groupDepthOfAll : List Filter → Nat
  | [] => 0
  | f :: rest => max f.groupDepth (groupDepthOfAll rest)

end

@[simp] theorem literalsOfAll_eq : ∀ l : List Filter, literalsOfAll l = l.flatMap literals
  | [] => rfl
  | f :: rest => by rw [literalsOfAll, literalsOfAll_eq rest, List.flatMap_cons]

@[simp] theorem eraseAll_eq : ∀ l : List Filter, eraseAll l = l.map erase
  | [] => rfl
  | f :: rest => by rw [eraseAll, eraseAll_eq rest, List.map_cons]

theorem groupDepthOfAll_le_iff {n : Nat} : ∀ {l : List Filter}, groupDepthOfAll l ≤ n ↔ ∀ f ∈ l, f.groupDepth ≤ n
  | [] => by simp [groupDepthOfAll]
  | f :: rest => by
    rw [groupDepthOfAll, Nat.max_le, groupDepthOfAll_le_iff, List.forall_mem_cons]

theorem length_literals_erase (f : Filter) : f.erase.literals.length = f.literals.length := by
  induction f using induction with
  | comparison op negated args => simp [erase, literals]
  | group op negated children ih =>
    simp only [erase, literals, literalsOfAll_eq, eraseAll_eq, List.length_flatMap, List.map_map]
    exact congrArg List.sum (List.map_congr_left fun c hc => ih c hc)

/-- Filters of one shape have equally many operands. -/
theorem length_literals_eq {f g : Filter} (h : f.erase = g.erase) : f.literals.length = g.literals.length := by
  rw [← length_literals_erase f, h, length_literals_erase]

end Filter

/-! ## Comparisons of a filter -/

/-- A comparison by the operator with the operands stands in the filter, at any depth. -/
inductive Filter.Compares (op : Operator) (args : List Literal) : Filter → Prop
  | here (negated : Bool) : Compares op args (.comparison op negated args)
  | member {connective : Connective} {negated : Bool} {children : List Filter} {c : Filter} (hc : c ∈ children)
      (h : Compares op args c) : Compares op args (.group connective negated children)

/-- The operands of a filter are those of its comparisons. -/
theorem Filter.mem_literals_iff {a : Literal} {f : Filter} :
    a ∈ f.literals ↔ ∃ op args, f.Compares op args ∧ a ∈ args := by
  constructor
  · induction f using induction with
    | comparison op negated args => exact fun ha => ⟨op, args, .here negated, ha⟩
    | group op negated children ih =>
      intro ha
      rw [literals, literalsOfAll_eq] at ha
      obtain ⟨c, hc, ha⟩ := List.mem_flatMap.mp ha
      obtain ⟨op', args, h, ha⟩ := ih c hc ha
      exact ⟨op', args, .member hc h, ha⟩
  · rintro ⟨op, args, h, ha⟩
    induction h with
    | here => exact ha
    | member hc _ ih =>
      rw [literals, literalsOfAll_eq]
      exact List.mem_flatMap.mpr ⟨_, hc, ih⟩

/-! ## Well-formed filters -/

/-- Whether an operator takes the operands: none, one or more, two texts, three, or one. -/
def Operator.Takes : Operator → List Literal → Prop
  | null, args => args = []
  | oneOf, args => args ≠ []
  | between, args => ∃ low high, args = [.scalar low, .scalar high]
  | near, args => ∃ longitude latitude radius, args = [longitude, latitude, radius]
  | _, args => ∃ operand, args = [operand]

/-- Every comparison has the operands that its operator takes, and no group is empty. -/
inductive Filter.WellFormed : Filter → Prop
  | comparison {op : Operator} {negated : Bool} {args : List Literal} (takes : op.Takes args) :
      WellFormed (.comparison op negated args)
  | group {op : Connective} {negated : Bool} {children : List Filter} (nonempty : children ≠ [])
      (members : ∀ c ∈ children, WellFormed c) : WellFormed (.group op negated children)

end FilterPlan
