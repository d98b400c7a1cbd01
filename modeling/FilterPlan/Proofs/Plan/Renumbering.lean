import FilterPlan.Proofs.Plan.Layout
import Mathlib.Algebra.Group.End

/-!
# Clauses in another order

The layout of clauses in another order has the same blocks, with other numbers: there is a permutation of the numbers of
joins and one of the numbers of parameters that turn one layout into the other (`Clause.exists_renumbers`). Neighbours
change places by a rotation of the numbers that they take (`rotation`).
-/

namespace FilterPlan

open ParamTable Text

/-! ## Rotations -/

/-- The permutation of numbers that exchanges two neighbouring intervals: `a` numbers from `n` on, and the `b` numbers
behind them. -/
def rotation (n a b : Nat) : Equiv.Perm Nat where
  toFun i := if i < n then i else if i < n + a then i + b else if i < n + a + b then i - a else i
  invFun i := if i < n then i else if i < n + b then i + a else if i < n + b + a then i - b else i
  left_inv i := by
    simp only
    split_ifs <;> omega
  right_inv i := by
    simp only
    split_ifs <;> omega

section Rotation

variable {n a b i : Nat}

theorem rotation_before (h : i < n) : rotation n a b i = i := by
  simp only [rotation, Equiv.coe_fn_mk]
  split_ifs
  rfl

theorem rotation_first (h : i < a) : rotation n a b (n + i) = n + b + i := by
  simp only [rotation, Equiv.coe_fn_mk]
  split_ifs <;> omega

theorem rotation_second (h : i < b) : rotation n a b (n + a + i) = n + i := by
  simp only [rotation, Equiv.coe_fn_mk]
  split_ifs <;> omega

theorem rotation_behind (i : Nat) : rotation n a b (n + a + b + i) = n + b + a + i := by
  simp only [rotation, Equiv.coe_fn_mk]
  split_ifs <;> omega

end Rotation

theorem getElem?_append_add {α : Type} (l l' : List α) (i : Nat) : (l ++ l')[l.length + i]? = l'[i]? := by
  rw [List.getElem?_append_right (Nat.le_add_right _ _), Nat.add_sub_cancel_left]

/-- Where neighbouring parts of a list change places, a rotation says where each element has gone. -/
theorem getElem?_rotation {α : Type} (before first second behind : List α) (i : Nat) :
    (before ++ (second ++ (first ++ behind)))[rotation before.length first.length second.length i]? =
      (before ++ (first ++ (second ++ behind)))[i]? := by
  -- which of the four parts `i` falls into
  rcases Nat.lt_or_ge i before.length with h | h
  · rw [rotation_before h, List.getElem?_append_left h, List.getElem?_append_left h]
  obtain ⟨j, rfl⟩ := Nat.exists_eq_add_of_le h
  rcases Nat.lt_or_ge j first.length with hj | hj
  · rw [rotation_first hj, Nat.add_assoc, getElem?_append_add, getElem?_append_add, getElem?_append_add,
      List.getElem?_append_left hj, List.getElem?_append_left hj]
  obtain ⟨k, rfl⟩ := Nat.exists_eq_add_of_le hj
  rcases Nat.lt_or_ge k second.length with hk | hk
  · rw [← Nat.add_assoc, rotation_second hk, Nat.add_assoc, getElem?_append_add, getElem?_append_add,
      getElem?_append_add, List.getElem?_append_left hk, List.getElem?_append_left hk]
  obtain ⟨l, rfl⟩ := Nat.exists_eq_add_of_le hk
  rw [← Nat.add_assoc, ← Nat.add_assoc, rotation_behind]
  simp only [Nat.add_assoc, getElem?_append_add]

/-! ## Names with other numbers -/

theorem renumber_nameAt (f : Nat → Nat) (i : Nat) : renumber f (nameAt i) = nameAt (f i) :=
  renumber_append_ofNat f (s := "v") (by decide) i

/-- The block with other parameter names and other aliases. -/
def Block.rename (paramOf aliasOf : Text → Text) (b : Block) : Block where
  key := b.key
  joins := b.joins.map (Join.rename aliasOf)
  predicate := b.predicate.rename paramOf aliasOf

theorem Block.rename_rename (paramOf paramOf' aliasOf aliasOf' : Text → Text) (b : Block) :
    (b.rename paramOf aliasOf).rename paramOf' aliasOf' = b.rename (paramOf' ∘ paramOf) (aliasOf' ∘ aliasOf) := by
  simp only [Block.rename, List.map_map, Predicate.rename_rename, Block.mk.injEq, true_and, and_true]
  exact List.map_congr_left fun j _ => Join.rename_rename aliasOf aliasOf' j

namespace Field

variable {f : Nat → Nat} {n m : Nat}

theorem renumber_metadataAlias (f : Nat → Nat) (n : Nat) : renumber f (metadataAlias n) = metadataAlias (f n) :=
  renumber_append_ofNat f (by decide) n

theorem renumber_termLinkAlias (f : Nat → Nat) (n : Nat) : renumber f (termLinkAlias n) = termLinkAlias (f n) :=
  renumber_append_ofNat f (by decide) n

theorem renumber_termAlias (f : Nat → Nat) (n : Nat) : renumber f (termAlias n) = termAlias (f n) :=
  renumber_append_ofNat f (by decide) n

theorem rename_joins {field : Field} (h : ∀ i < field.width, f (n + i) = m + i) :
    (field.withNumber n).joins.map (Join.rename (renumber f)) = (field.withNumber m).joins := by
  cases field with
  | metadata | terms =>
    have h₀ : f n = m := h 0 Nat.one_pos
    simp [withNumber, joins, Join.rename, Column.rename, Column.ofRoot, Column.through, renumber_metadataAlias,
      renumber_termLinkAlias, renumber_termAlias, h₀]
  | ownerUser =>
    simp [withNumber, joins, Join.rename, Column.rename, Column.ofRoot, renumber_of_isStem f isStem_ownerAlias]
  | property | owningRelation | entityType | ignored => rfl

theorem rename_column? {field : Field} (h : ∀ i < field.width, f (n + i) = m + i) :
    (field.withNumber n).column?.map (Column.rename (renumber f)) = (field.withNumber m).column? := by
  cases field with
  | metadata | terms =>
    have h₀ : f n = m := h 0 Nat.one_pos
    simp [withNumber, column?, Column.rename, Column.through, renumber_metadataAlias, renumber_termAlias, h₀]
  | ownerUser =>
    simp [withNumber, column?, Column.rename, Column.through, renumber_of_isStem f isStem_ownerAlias]
  | property | owningRelation | entityType | ignored => rfl

end Field

/-! ## The layout with other numbers -/

/-- The block with its joins and its parameters renumbered. -/
def Block.renumber (α π : Nat → Nat) (b : Block) : Block :=
  b.rename (Text.renumber π) (Text.renumber α)

theorem Block.renumber_renumber (α π α' π' : Nat → Nat) (b : Block) :
    (b.renumber α π).renumber α' π' = b.renumber (α' ∘ α) (π' ∘ π) := by
  simp only [Block.renumber, Block.rename_rename]
  congr 1
  · exact funext (Text.renumber_renumber π π')
  · exact funext (Text.renumber_renumber α α')

namespace Clause

variable {schema : Schema} {α π : Nat → Nat} {n m k j : Nat}

theorem rename_column {c : Clause schema} (h : ∀ i < c.field.width, α (n + i) = m + i) :
    (c.column n).rename (renumber α) = c.column m := by
  have hc := Field.rename_column? h
  rw [c.column?_withNumber, c.column?_withNumber] at hc
  exact Option.some.inj hc

/-- To renumber consecutive joins and parameters in step is to lay a clause out from another place on. -/
theorem renumber_block {c : Clause schema} (hα : ∀ i < c.field.width, α (n + i) = m + i)
    (hπ : ∀ i < c.filter.literals.length, π (k + i) = j + i) : (c.block n k).renumber α π = c.block m j := by
  have hp : ∀ i < c.filter.literals.length, renumber π (nameAt (k + i)) = nameAt (j + i) := fun i hi => by
    rw [renumber_nameAt, hπ i hi]
  simp only [Block.renumber, Block.rename, block, Field.rename_joins hα,
    Filter.rename_numbered c.wellFormed (c.column n) k j hp, rename_column hα]

theorem renumber_blocks : ∀ (cs : List (Clause schema)) {n m k j : Nat}, (∀ i < width cs, α (n + i) = m + i) →
    (∀ i < (literals cs).length, π (k + i) = j + i) →
    (blocks n k cs).map (Block.renumber α π) = blocks m j cs
  | [], _, _, _, _, _, _ => rfl
  | c :: cs, n, m, k, j, hα, hπ => by
    rw [width_cons] at hα
    rw [literals_cons, List.length_append] at hπ
    have hc : (c.block n k).renumber α π = c.block m j :=
      renumber_block (fun i hi => hα i (by omega)) fun i hi => hπ i (by omega)
    have hcs : (blocks (n + c.field.width) (k + c.filter.literals.length) cs).map (Block.renumber α π) =
        blocks (m + c.field.width) (j + c.filter.literals.length) cs := by
      refine renumber_blocks cs (fun i hi => ?_) fun i hi => ?_
      · rw [Nat.add_assoc, Nat.add_assoc]
        exact hα _ (by omega)
      · rw [Nat.add_assoc, Nat.add_assoc]
        exact hπ _ (by omega)
    rw [blocks, List.map_cons, hc, hcs]
    rfl

/-! ## Clauses in another order -/

/-- The permutation `α` of the numbers of joins and the permutation `π` of those of parameters turn the layout of the
clauses `cs` into that of the clauses `ds`: the blocks are the same, in another order, and each operand is found under
the new number of its parameter. Numbers that are taken before do not change: those of joins below `n`, and those of the
operands `before`. -/
structure Renumbers (n : Nat) (before : List Literal) (cs ds : List (Clause schema)) (α π : Equiv.Perm Nat) :
    Prop where
  joins_before : ∀ i < n, α i = i
  params_before : ∀ i < before.length, π i = i
  blocks : ((blocks n before.length cs).map (Block.renumber α π)).Perm (blocks n before.length ds)
  operands : ∀ i, (before ++ literals ds)[π i]? = (before ++ literals cs)[i]?

theorem Renumbers.nil (n : Nat) (before : List Literal) : Renumbers n before ([] : List (Clause schema)) [] 1 1 where
  joins_before := fun _ _ => rfl
  params_before := fun _ _ => rfl
  blocks := .nil
  operands := fun _ => rfl

/-- A clause in front keeps its numbers. -/
theorem Renumbers.cons {n : Nat} {before : List Literal} {c : Clause schema} {cs ds : List (Clause schema)}
    {α π : Equiv.Perm Nat} (h : Renumbers (n + c.field.width) (before ++ c.filter.literals) cs ds α π) :
    Renumbers n before (c :: cs) (c :: ds) α π where
  joins_before := fun i hi => h.joins_before i (by omega)
  params_before := fun i hi => h.params_before i (by rw [List.length_append]; omega)
  blocks := by
    have hc : (c.block n before.length).renumber α π = c.block n before.length :=
      renumber_block (fun i hi => h.joins_before _ (by omega))
        fun i hi => h.params_before _ (by rw [List.length_append]; omega)
    have hcs := h.blocks
    rw [List.length_append] at hcs
    rw [Clause.blocks, Clause.blocks, List.map_cons, hc]
    exact hcs.cons _
  operands := fun i => by
    rw [literals_cons, literals_cons, ← List.append_assoc, ← List.append_assoc]
    exact h.operands i

/-- Two clauses that change places exchange the intervals of their numbers. -/
theorem Renumbers.swap (n : Nat) (before : List Literal) (c d : Clause schema) (cs : List (Clause schema)) :
    Renumbers n before (c :: d :: cs) (d :: c :: cs) (rotation n c.field.width d.field.width)
      (rotation before.length c.filter.literals.length d.filter.literals.length) where
  joins_before := fun _ => rotation_before
  params_before := fun _ => rotation_before
  blocks := by
    have hc := renumber_block (c := c) (fun i => rotation_first (n := n) (b := d.field.width))
      fun i => rotation_first (n := before.length) (b := d.filter.literals.length)
    have hd := renumber_block (c := d) (fun i => rotation_second (n := n) (a := c.field.width))
      fun i => rotation_second (n := before.length) (a := c.filter.literals.length)
    have hcs := renumber_blocks cs
      (fun i _ => rotation_behind (n := n) (a := c.field.width) (b := d.field.width) i)
      fun i _ => rotation_behind (n := before.length) (a := c.filter.literals.length)
        (b := d.filter.literals.length) i
    simp only [Clause.blocks, List.map_cons, hc, hd, hcs]
    exact .swap _ _ _
  operands := fun i => by
    simp only [literals_cons]
    exact getElem?_rotation _ _ _ _ i

theorem Renumbers.trans {n : Nat} {before : List Literal} {bs cs ds : List (Clause schema)} {α π α' π' : Equiv.Perm Nat}
    (h : Renumbers n before bs cs α π) (h' : Renumbers n before cs ds α' π') :
    Renumbers n before bs ds (α' * α) (π' * π) where
  joins_before := fun i hi => by rw [Equiv.Perm.mul_apply, h.joins_before i hi, h'.joins_before i hi]
  params_before := fun i hi => by rw [Equiv.Perm.mul_apply, h.params_before i hi, h'.params_before i hi]
  blocks := by
    have hboth := (h.blocks.map (Block.renumber α' π')).trans h'.blocks
    rw [List.map_map] at hboth
    rw [Equiv.Perm.coe_mul, Equiv.Perm.coe_mul]
    refine (List.Perm.of_eq (List.map_congr_left fun b _ => ?_)).trans hboth
    exact (Block.renumber_renumber α π α' π' b).symm
  operands := fun i => by rw [Equiv.Perm.mul_apply, h'.operands, h.operands]

/-- **Clauses in another order have the same layout but for numbers.** -/
theorem exists_renumbers {cs ds : List (Clause schema)} (h : cs.Perm ds) :
    ∀ (n : Nat) (before : List Literal), ∃ α π, Renumbers n before cs ds α π := by
  -- the numbers behind a clause depend on it, so the induction is for all `n` and `before`
  induction h with
  | nil => exact fun n before => ⟨1, 1, .nil n before⟩
  | cons c _ ih =>
    intro n before
    obtain ⟨α, π, h⟩ := ih (n + c.field.width) (before ++ c.filter.literals)
    exact ⟨α, π, h.cons⟩
  | swap d c cs => exact fun n before => ⟨_, _, .swap n before c d cs⟩
  | trans _ _ ih ih' =>
    intro n before
    obtain ⟨α, π, h⟩ := ih n before
    obtain ⟨α', π', h'⟩ := ih' n before
    exact ⟨α' * α, π' * π, h.trans h'⟩

end Clause

end FilterPlan
