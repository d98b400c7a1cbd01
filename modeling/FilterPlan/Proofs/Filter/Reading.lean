import FilterPlan.Filter.Parser
import FilterPlan.Proofs.Filter.Tree
import FilterPlan.Proofs.Outcome

/-!
# What reading a filter gives

An expression is accepted where its head is followed by a balanced parenthesis and the text inside is that of the
operands of a comparison or of the members of a group (`read_eq_ok_iff`). Accepted filters are well formed
(`wellFormed_of_parse`), and how much room was left while reading shows only in how deep they may be
(`groupDepth_le_of_read`, `read_of_groupDepth_le`).
-/

namespace FilterPlan.Filter

variable {room : Nat} {t : Text} {f : Filter}

/-! ## The parts of an accepted expression -/

/-- The meaning of the name of a head, for the text inside its parentheses: `f` is the comparison with the operands
that stand there, or the group of the filters that stand there and are read with less room. -/
def IsBody (room : Nat) (head : Head) (inner : Text) (f : Filter) : Prop :=
  (∃ op args, Symbol.ofName? head.name = some (.operator op) ∧ operands op inner = .ok args ∧
    f = comparison op head.negated args) ∨
  ∃ op less children, Symbol.ofName? head.name = some (.connective op) ∧ room = less + 1 ∧
    List.Forall₂ (fun s c => read less s = .ok c) inner.segments children ∧ children ≠ [] ∧
    f = group op head.negated children

theorem read_eq_ok_iff : read room t = .ok f ↔
    ∃ head inner rest, Head.ofText? t = some head ∧ Text.enclosed? head.rest = some (inner, rest) ∧
      IsBody room head inner f := by
  constructor
  · intro h
    unfold read at h
    split at h
    · cases h
    · next head hh =>
      split at h
      · cases h
      · next inner rest he =>
        refine ⟨head, inner, rest, hh, he, ?_⟩
        split at h
        · cases h
        · next op hs =>
          split at h
          · cases h
          · next args ha => exact Or.inl ⟨op, args, hs, ha, (Except.ok.inj h).symm⟩
        · next op hs =>
          split at h
          · cases h
          · next less =>
            split at h
            · cases h
            · cases h
            · next children hne hc =>
              exact Or.inr ⟨op, less, children, hs, rfl, Outcome.mapM_eq_ok_iff.mp hc, hne, (Except.ok.inj h).symm⟩
  · rintro ⟨head, inner, rest, hh, he, ⟨op, args, hs, ha, rfl⟩ | ⟨op, less, children, hs, rfl, hc, hne, rfl⟩⟩
    · unfold read
      simp only [hh, he, hs, ha]
    · unfold read
      simp only [hh, he, hs, Outcome.mapM_eq_ok_iff.mpr hc]

theorem parse_eq_ok_iff {key : Text} :
    parse key t = .ok f ↔ t.byteSize ≤ maxExpressionSize ∧ read (maxExpressionDepth - 1) t = .ok f := by
  unfold parse
  split
  · next h => exact ⟨nofun, fun h' => absurd h'.1 (Nat.not_le.mpr h)⟩
  · next h =>
    cases hr : read (maxExpressionDepth - 1) t with
    | error r => simp [Except.mapError]
    | ok g => simp [Except.mapError, Nat.not_lt.mp h]

/-- The operands of every comparison in an accepted filter are those that some text stands for. -/
theorem operands_of_read {op : Operator} {args : List Literal} (hc : f.Compares op args) :
    ∀ {room : Nat} {t : Text}, read room t = .ok f → ∃ inner, operands op inner = .ok args := by
  induction hc with
  | here negated =>
    intro room t h
    obtain ⟨head, inner, rest, -, -, ⟨op', args', -, ha, hf⟩ | ⟨op', less, children, -, -, -, -, hf⟩⟩ :=
      read_eq_ok_iff.mp h
    · cases hf
      exact ⟨inner, ha⟩
    · cases hf
  | member hm _ ih =>
    intro room t h
    obtain ⟨head, inner, rest, -, -, ⟨op', args', -, -, hf⟩ | ⟨op', less, children, -, -, hread, -, hf⟩⟩ :=
      read_eq_ok_iff.mp h
    · cases hf
    · cases hf
      obtain ⟨s, -, hs⟩ := Outcome.exists_of_mem_right hread hm
      exact ih hs

/-! ## Accepted filters are well formed -/

/-- The operands of a comparison are as many and of such a kind as its operator takes. -/
theorem takes_of_operands {op : Operator} {inner : Text} {args : List Literal} (h : operands op inner = .ok args) :
    op.Takes args := by
  cases op with
  | eq | gt | gte | lt | lte | like | ilike | null =>
    cases h
    first | exact ⟨_, rfl⟩ | rfl
  | oneOf =>
    simp only [operands] at h
    split at h
    · cases h
    · next hne =>
      cases h
      intro he
      rw [List.map_eq_nil_iff] at he
      exact hne (by rw [he]; rfl)
  | between =>
    simp only [operands] at h
    split at h
    · cases h
    · next hl =>
      split at h
      · cases h
      · cases h
        obtain ⟨low, high, he⟩ := List.length_eq_two.mp (Decidable.not_not.mp hl)
        exact ⟨low, high, by rw [he]; rfl⟩
  | near =>
    simp only [operands] at h
    split at h
    · cases h
    · next hl =>
      cases h
      obtain ⟨a, b, c, he⟩ := List.length_eq_three.mp (Decidable.not_not.mp hl)
      exact ⟨_, _, _, by rw [he]; rfl⟩

theorem wellFormed_of_read : ∀ {room : Nat} {t : Text} {f : Filter}, read room t = .ok f → f.WellFormed
  | room, t, f, h => by
    obtain ⟨head, inner, rest, -, -, ⟨op, args, -, ha, rfl⟩ | ⟨op, less, children, -, rfl, hc, hne, rfl⟩⟩ :=
      read_eq_ok_iff.mp h
    · exact .comparison (takes_of_operands ha)
    · refine .group hne fun c hm => ?_
      obtain ⟨s, -, hs⟩ := Outcome.exists_of_mem_right hc hm
      exact wellFormed_of_read hs
  termination_by room => room

theorem wellFormed_of_parse {key : Text} (h : parse key t = .ok f) : f.WellFormed :=
  wellFormed_of_read (parse_eq_ok_iff.mp h).2

/-! ## Room and depth -/

theorem groupDepth_le_of_read : ∀ {room : Nat} {t : Text} {f : Filter}, read room t = .ok f → f.groupDepth ≤ room
  | room, t, f, h => by
    obtain ⟨head, inner, rest, -, -, ⟨op, args, -, -, rfl⟩ | ⟨op, less, children, -, rfl, hc, -, rfl⟩⟩ :=
      read_eq_ok_iff.mp h
    · exact Nat.zero_le _
    · refine Nat.succ_le_succ (groupDepthOfAll_le_iff.mpr fun c hm => ?_)
      obtain ⟨s, -, hs⟩ := Outcome.exists_of_mem_right hc hm
      exact groupDepth_le_of_read hs
  termination_by room => room

/-- A text that is read with some room is read in the same way with any room that its filter fits in. -/
theorem read_of_groupDepth_le : ∀ {room : Nat} {t : Text} {f : Filter} {room' : Nat}, read room t = .ok f →
    f.groupDepth ≤ room' → read room' t = .ok f
  | room, t, f, room', h, hd => by
    obtain ⟨head, inner, rest, hh, he, ⟨op, args, hs, ha, rfl⟩ | ⟨op, less, children, hs, rfl, hc, hne, rfl⟩⟩ :=
      read_eq_ok_iff.mp h
    · exact read_eq_ok_iff.mpr ⟨head, inner, rest, hh, he, Or.inl ⟨op, args, hs, ha, rfl⟩⟩
    · rw [groupDepth] at hd
      obtain ⟨less', rfl⟩ := Nat.exists_eq_add_of_le' hd
      have hm := groupDepthOfAll_le_iff.mp (Nat.le_of_succ_le_succ hd)
      refine read_eq_ok_iff.mpr ⟨head, inner, rest, hh, he, Or.inr ⟨op, _, children, hs, rfl, ?_, hne, rfl⟩⟩
      exact Outcome.forall₂_of_mem hc fun s _ c hcm hs => read_of_groupDepth_le hs (hm c hcm)
  termination_by room => room

end FilterPlan.Filter
