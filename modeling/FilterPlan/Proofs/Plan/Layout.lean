import FilterPlan.Proofs.Plan.Field
import FilterPlan.Proofs.Predicate.Columns
import FilterPlan.Request

/-!
# The layout of the clauses

The clauses of a plan in closed form. Each filter that becomes a predicate is a `Clause`, and adds a `Block`: the joins
of its key, and its predicate. The blocks stand one behind the other, their joins and parameters numbered in this order
(`blocks`), and they are all that the filters of a request come to (`Clauses.exists_laid_of_ofParams`).
-/

namespace FilterPlan

/-- What one filter adds to a plan. -/
structure Block where
  /-- The key of the filter. -/
  key : Text
  /-- The joins that lead to its column. -/
  joins : List Join
  /-- The condition on the column. -/
  predicate : Predicate

/-- The block is what a filter of a request adds: the joins of its key, and a predicate on the column of its key and on no
other. -/
structure Block.IsOf (schema : Schema) (param : Text × Text) (block : Block) : Prop where
  key : block.key = param.1
  adds : ∃ field names names' column, Field.resolve schema param.1 names = .ok (field, names') ∧
    field.column? = some column ∧ block.joins = field.joins ∧ ∀ c, c ∈ block.predicate.columns ↔ c = column

/-- A filter of a request that has been read: what its key addresses, which has a column, and the condition on it. -/
structure Clause (schema : Schema) where
  key : Text
  field : Field
  filter : Filter
  addressed : Field.ofKey? schema key = some field
  reaches : field.column?.isSome
  wellFormed : filter.WellFormed

namespace Clause

variable {schema : Schema}

/-- The clause is what a parameter of a request is read as. -/
structure Reads (param : Text × Text) (c : Clause schema) : Prop where
  key : c.key = param.1
  filter : Clauses.filterOf param = .ok c.filter

/-- The column of the clause, if its joins have the number `n`. -/
def column (c : Clause schema) (n : Nat) : Column :=
  (c.field.withNumber n).column?.get (by rw [Field.isSome_column?_withNumber]; exact c.reaches)

theorem column?_withNumber (c : Clause schema) (n : Nat) : (c.field.withNumber n).column? = some (c.column n) :=
  (Option.some_get _).symm

/-- What the clause adds, if its joins have the number `n` and its parameters are in the places from `k` on. -/
def block (c : Clause schema) (n k : Nat) : Block where
  key := c.key
  joins := (c.field.withNumber n).joins
  predicate := c.filter.numbered (c.column n) k

/-- How many numbers the joins of the clauses take. -/
def width : List (Clause schema) → Nat
  | [] => 0
  | c :: cs => c.field.width + width cs

/-- The operands of the clauses, in order. -/
def literals (cs : List (Clause schema)) : List Literal :=
  cs.flatMap fun c => c.filter.literals

/-- What the clauses add, with joins numbered from `n` and parameters from `k` on. -/
def blocks (n k : Nat) : List (Clause schema) → List Block
  | [] => []
  | c :: rest => c.block n k :: blocks (n + c.field.width) (k + c.filter.literals.length) rest

@[simp] theorem width_nil : width ([] : List (Clause schema)) = 0 := rfl

@[simp] theorem width_cons (c : Clause schema) (cs : List (Clause schema)) :
    width (c :: cs) = c.field.width + width cs := rfl

@[simp] theorem width_append : ∀ cs ds : List (Clause schema), width (cs ++ ds) = width cs + width ds
  | [], ds => (Nat.zero_add (width ds)).symm
  | c :: cs, ds => by rw [List.cons_append, width, width_append cs ds, width, Nat.add_assoc]

theorem width_perm {cs ds : List (Clause schema)} (h : cs.Perm ds) : width cs = width ds := by
  induction h with
  | nil => rfl
  | cons c _ ih => rw [width, width, ih]
  | swap c d cs =>
    simp only [width]
    omega
  | trans _ _ ih ih' => exact ih.trans ih'

@[simp] theorem literals_nil : literals ([] : List (Clause schema)) = [] := rfl

@[simp] theorem literals_cons (c : Clause schema) (cs : List (Clause schema)) :
    literals (c :: cs) = c.filter.literals ++ literals cs := rfl

@[simp] theorem literals_append (cs ds : List (Clause schema)) :
    literals (cs ++ ds) = literals cs ++ literals ds := by
  simp only [literals, List.flatMap_append]

theorem blocks_append : ∀ (cs ds : List (Clause schema)) (n k : Nat),
    blocks n k (cs ++ ds) = blocks n k cs ++ blocks (n + width cs) (k + (literals cs).length) ds
  | [], ds, n, k => rfl
  | c :: cs, ds, n, k => by
    simp only [List.cons_append, blocks, blocks_append cs ds, width_cons, literals_cons, List.length_append,
      Nat.add_assoc]

/-- Each block is that of a clause. -/
theorem exists_of_mem_blocks {b : Block} : ∀ {cs : List (Clause schema)} {n k : Nat}, b ∈ blocks n k cs →
    ∃ c ∈ cs, ∃ m j, b = c.block m j
  | c :: cs, n, k, h => by
    rcases List.mem_cons.mp h with rfl | h
    · exact ⟨c, List.mem_cons_self, n, k, rfl⟩
    · obtain ⟨d, hd, m, j, rfl⟩ := exists_of_mem_blocks h
      exact ⟨d, List.mem_cons_of_mem c hd, m, j, rfl⟩

/-- A clause that is read from a parameter adds what the parameter does. -/
theorem Reads.isOf {param : Text × Text} {c : Clause schema} (h : Reads param c) (n k : Nat) :
    (c.block n k).IsOf schema param where
  key := h.key
  adds := by
    refine ⟨c.field.withNumber n, { aliases := n }, { aliases := n + c.field.width }, c.column n, ?_,
      c.column?_withNumber n, rfl, fun _ => Filter.mem_columns_numbered c.wellFormed k⟩
    rw [← h.key, Field.resolve_eq, c.addressed]

theorem forall₂_isOf_blocks {params : List (Text × Text)} {cs : List (Clause schema)}
    (h : List.Forall₂ Reads params cs) : ∀ n k, List.Forall₂ (Block.IsOf schema) params (blocks n k cs) := by
  induction h with
  | nil => exact fun _ _ => .nil
  | cons hc _ ih => exact fun n k => .cons (hc.isOf n k) (ih _ _)

theorem map_key_of_reads {params : List (Text × Text)} {cs : List (Clause schema)}
    (h : List.Forall₂ Reads params cs) : cs.map key = params.map Prod.fst := by
  induction h with
  | nil => rfl
  | cons hc _ ih => rw [List.map_cons, List.map_cons, ih, hc.key]

/-- The clauses of a request have different keys. -/
theorem nodup_keys {request : Request} {cs : List (Clause schema)}
    (h : List.Forall₂ Reads (Clauses.reaching schema request.entries) cs) : (cs.map key).Nodup := by
  rw [map_key_of_reads h]
  exact request.params.nodup_keys.sublist ((List.filter_sublist.trans List.filter_sublist).map Prod.fst)

/-- A clause is determined by the parameter that it is read from. -/
theorem Reads.unique {param : Text × Text} : ∀ {c d : Clause schema}, Reads param c → Reads param d → c = d
  | ⟨key, field, filter, ha, _, _⟩, ⟨key', field', filter', ha', _, _⟩, hc, hd => by
    obtain rfl : key = key' := hc.key.trans hd.key.symm
    obtain rfl : field = field' := Option.some.inj (ha.symm.trans ha')
    obtain rfl : filter = filter' := Except.ok.inj (hc.filter.symm.trans hd.filter)
    rfl

end Clause

namespace Clauses

variable {schema : Schema} {resolver : Resolver} {config : Config} {names : Names}

/-- The clauses of a plan, laid out one behind the other. -/
def laid (resolver : Resolver) (names : Names) (cs : List (Clause schema)) : Clauses where
  joins := (Clause.blocks names.aliases 0 cs).flatMap Block.joins
  predicates := (Clause.blocks names.aliases 0 cs).map Block.predicate
  params := Filter.bound resolver (Clause.literals cs) {}
  names := { names with aliases := names.aliases + Clause.width cs }

theorem laid_nil (resolver : Resolver) (names : Names) :
    laid resolver names ([] : List (Clause schema)) = { names := names } := by
  simp only [laid, Clause.blocks, Clause.literals_nil, Clause.width_nil, Filter.bound, List.map_nil,
    ParamTable.extend_nil, List.flatMap_nil, Nat.add_zero]

/-- One more clause stands behind the others. -/
theorem push_laid (cs : List (Clause schema)) (c : Clause schema) :
    (laid resolver names cs).push resolver (c.field.withNumber (names.aliases + Clause.width cs))
        (c.column (names.aliases + Clause.width cs)) c.filter
        { names with aliases := names.aliases + Clause.width cs + c.field.width } =
      laid resolver names (cs ++ [c]) := by
  have hsize : (Filter.bound resolver (Clause.literals cs) {}).size = (Clause.literals cs).length := by
    rw [Filter.size_bound]
    exact Nat.zero_add _
  simp only [push, laid, Clause.blocks_append, Clause.blocks, Clause.block, Clause.literals_append,
    Clause.literals_cons, Clause.literals_nil, Clause.width_append, Clause.width_cons, Clause.width_nil, hsize,
    List.flatMap_append, List.flatMap_cons, List.flatMap_nil, List.map_append, List.map_cons, List.map_nil,
    List.append_nil, Filter.bound_append, Nat.zero_add, Nat.add_zero, Nat.add_assoc]

/-- **The clauses of a request are laid out in the order of its filters**, one for each key that has a column. -/
theorem exists_laid_of_ofParams {params : List (Text × Text)} {clauses : Clauses}
    (h : ofParams schema resolver config names params = .ok clauses) :
    ∃ cs : List (Clause schema), List.Forall₂ Clause.Reads (reaching schema params) cs ∧
      clauses = laid resolver names cs := by
  refine ofParams_run (P := fun seen clauses => ∃ cs : List (Clause schema),
    List.Forall₂ Clause.Reads seen cs ∧ clauses = laid resolver names cs) ?_ ?_ h
  · exact ⟨[], .nil, (laid_nil resolver names).symm⟩
  · rintro seen clauses param field column filter names' ⟨cs, hcs, rfl⟩ hres hcol hf
    rw [Field.resolve_eq] at hres
    cases hk : Field.ofKey? schema param.1 with
    | none =>
      rw [hk] at hres
      cases hres
    | some plain =>
      rw [hk] at hres
      cases hres
      have hreaches : plain.column?.isSome := by
        rw [← Field.isSome_column?_withNumber, hcol]
        rfl
      let c : Clause schema := ⟨param.1, plain, filter, hk, hreaches, Filter.wellFormed_of_parse hf⟩
      obtain rfl : column = c.column _ := Option.some.inj (hcol.symm.trans (c.column?_withNumber _))
      exact ⟨cs ++ [c], List.rel_append hcs (.cons ⟨rfl, hf⟩ .nil), push_laid cs c⟩

end Clauses

end FilterPlan
