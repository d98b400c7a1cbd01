import FilterPlan.Proofs.Filter.Reading
import FilterPlan.Proofs.Filter.Writing
import FilterPlan.Proofs.Predicate.Numbering

/-!
# Which scalars look like references

A text is an operand of its own if it does not begin with `@` behind any blanks (`Literal.ofText_eq_scalar_iff`). So are
all scalars that are read, but for the bounds of a range: they are refused only where the first character is `@`, and
one with blanks in front of its `@` becomes a scalar, although it would be a reference elsewhere (`scalars_of_parse`).
-/

namespace FilterPlan

/-! ## Blanks in front -/

/-- The text is `@` with something behind it, and with blanks in front of it. -/
def Literal.IsIndented (t : Text) : Prop :=
  ∃ blanks rest, blanks ≠ [] ∧ (∀ c ∈ blanks, Text.isBlank c) ∧ t = blanks ++ '@' :: rest

theorem Literal.isIndented_iff {t : Text} :
    IsIndented t ↔ t.head? ≠ some '@' ∧ t.trim.head? = some '@' := by
  have hat : Text.isBlank '@' = false := by decide
  constructor
  · rintro ⟨blanks, rest, hne, hblanks, rfl⟩
    obtain ⟨c, blanks, rfl⟩ := List.exists_cons_of_ne_nil hne
    refine ⟨fun he => ?_, ?_⟩
    · cases he
      exact Bool.false_ne_true (hat.symm.trans (hblanks '@' List.mem_cons_self))
    · rw [Text.head?_trim, Text.dropWhile_append_of_stops hblanks (Text.stops_cons hat rest)]
      rfl
  · rintro ⟨hhead, htrim⟩
    rw [Text.head?_trim] at htrim
    obtain ⟨rest, hrest⟩ := List.head?_eq_some_iff.mp htrim
    refine ⟨t.takeWhile Text.isBlank, rest, fun hnil => ?_, fun c hc => List.mem_takeWhile_imp hc, ?_⟩
    · have ht := List.takeWhile_append_dropWhile (p := Text.isBlank) (l := t)
      rw [hnil, List.nil_append, hrest] at ht
      exact hhead (ht ▸ rfl)
    · rw [← hrest, List.takeWhile_append_dropWhile]

/-! ## Reading operands -/

namespace Literal

theorem isReference_of_lookup? {t : Text} {a : Literal} (h : lookup? t = some a) : a.isReference := by
  unfold lookup? at h
  split at h
  · simp only at h
    split at h
    · obtain ⟨-, h⟩ := Option.ite_none_left_eq_some.mp h
      obtain ⟨id, -, rfl⟩ := Option.map_eq_some_iff.mp h
      rfl
    · cases h
  · cases h

theorem isReference_of_reference? {t : Text} {a : Literal} (h : reference? t = some a) : a.isReference := by
  unfold reference? at h
  split at h
  · cases h
    rfl
  split at h
  · cases h
    rfl
  split at h
  · cases h
    rfl
  split at h
  · next found hf =>
    cases h
    exact isReference_of_lookup? hf
  · obtain ⟨-, h⟩ := Option.ite_none_right_eq_some.mp h
    cases h
    rfl

theorem reference?_isSome {t : Text} (h : t.head? = some '@') : (reference? t).isSome := by
  unfold reference?
  split
  · rfl
  split
  · rfl
  split
  · rfl
  split
  · rfl
  · rfl

/-- A text stands for itself, unless its first character that is not blank is `@`. -/
theorem ofText_eq_scalar_iff {t s : Text} : ofText t = scalar s ↔ s = t ∧ t.trim.head? ≠ some '@' := by
  constructor
  · intro h
    cases hr : reference? t.trim with
    | none =>
      rw [ofText, hr] at h
      cases h
      refine ⟨rfl, fun hat => ?_⟩
      have hsome := reference?_isSome hat
      rw [hr] at hsome
      cases hsome
    | some a =>
      rw [ofText, hr] at h
      cases h
      exact absurd (isReference_of_reference? hr) Bool.false_ne_true
  · rintro ⟨rfl, hat⟩
    rw [ofText, reference?_eq_none hat]
    rfl

theorem ofText_scalar_of_ofText {t s : Text} (h : ofText t = scalar s) : ofText s = scalar s := by
  obtain ⟨rfl, -⟩ := ofText_eq_scalar_iff.mp h
  exact h

end Literal

namespace Filter

open Literal (IsIndented)

/-- A scalar operand stands for itself wherever it is read, or it is a bound of a range without `@` at its beginning. -/
theorem scalar_of_operands {op : Operator} {inner s : Text} {args : List Literal} (h : operands op inner = .ok args)
    (hs : .scalar s ∈ args) : Literal.ofText s = .scalar s ∨ op = .between ∧ s.head? ≠ some '@' := by
  have hlist : ∀ {texts : List Text}, .scalar s ∈ texts.map Literal.ofText → Literal.ofText s = .scalar s := by
    intro texts hm
    obtain ⟨t, -, ht⟩ := List.mem_map.mp hm
    exact Literal.ofText_scalar_of_ofText ht
  cases op with
  | eq | gt | gte | lt | lte | like | ilike =>
    cases h
    exact Or.inl (Literal.ofText_scalar_of_ofText (List.mem_singleton.mp hs).symm)
  | null =>
    cases h
    cases hs
  | oneOf =>
    simp only [operands] at h
    split at h
    · cases h
    · cases h
      exact Or.inl (hlist hs)
  | near =>
    simp only [operands] at h
    split at h
    · cases h
    · cases h
      exact Or.inl (hlist hs)
  | between =>
    simp only [operands] at h
    split at h
    · cases h
    split at h
    · cases h
    · next hany =>
      cases h
      obtain ⟨t, ht, he⟩ := List.mem_map.mp hs
      cases he
      refine Or.inr ⟨rfl, fun hat => hany (List.any_eq_true.mpr ⟨s, ht, ?_⟩)⟩
      exact beq_iff_eq.mpr hat

theorem resolve_eq_scalar_iff {resolver : Resolver} {a : Literal} {s : Text} :
    resolver.resolve a = .scalar s ↔ a = .scalar s := by
  have hentity : ∀ ref? : Option EntityRef, (ref?.map ParamValue.entity).getD .null ≠ .scalar s := by
    intro ref?
    cases ref? <;> exact nofun
  cases a with
  | scalar t => simp [Resolver.resolve]
  | currentUser => simpa [Resolver.resolve] using hentity resolver.user?
  | userProperty name => cases h : resolver.property? name <;> simp [Resolver.resolve, h]
  | userProfile => simpa [Resolver.resolve] using hentity resolver.profile?
  | lookup kind id => simpa [Resolver.resolve] using hentity (resolver.find? kind id)
  | unresolvable => simp [Resolver.resolve]

/-- **References that are taken for texts.** A scalar of an accepted filter would be a reference in a list or for an
equality exactly where it is a bound of a range with blanks in front of its `@`; and the texts that compilation binds
are those of scalars, with the same exception. -/
theorem scalars_of_parse {key t : Text} {f : Filter} (h : parse key t = .ok f) :
    (∀ op args s, f.Compares op args → .scalar s ∈ args →
      (Literal.ofText s ≠ .scalar s ↔ op = .between ∧ IsIndented s)) ∧
    ∀ (resolver : Resolver) (column : Column) (table : ParamTable) (s : Text),
      .scalar s ∈ (f.compile resolver column table).2.values.drop table.size →
      (Literal.ofText s ≠ .scalar s ↔ IsIndented s ∧ ∃ args, f.Compares .between args ∧ .scalar s ∈ args) := by
  have hscalar : ∀ op args s, f.Compares op args → .scalar s ∈ args →
      (Literal.ofText s ≠ .scalar s ↔ op = .between ∧ IsIndented s) := by
    intro op args s hc hs
    obtain ⟨inner, hinner⟩ := operands_of_read hc (parse_eq_ok_iff.mp h).2
    have hplain : Literal.ofText s = .scalar s ↔ s.trim.head? ≠ some '@' :=
      Literal.ofText_eq_scalar_iff.trans (and_iff_right rfl)
    rw [Literal.isIndented_iff, Ne, hplain, not_not]
    refine ⟨fun hat => ?_, fun hr => hr.2.2⟩
    obtain ⟨hop, hhead⟩ := (scalar_of_operands hinner hs).resolve_left fun he => hplain.mp he hat
    exact ⟨hop, hhead, hat⟩
  refine ⟨hscalar, fun resolver column table s hs => ?_⟩
  rw [compile_eq resolver column (wellFormed_of_parse h), bound, ParamTable.values_extend] at hs
  rw [← ParamTable.length_values, List.drop_left] at hs
  obtain ⟨a, ha, hvalue⟩ := List.mem_map.mp hs
  obtain rfl := resolve_eq_scalar_iff.mp hvalue
  obtain ⟨op, args, hc, hargs⟩ := mem_literals_iff.mp ha
  constructor
  · intro hne
    obtain ⟨rfl, hindented⟩ := (hscalar op args s hc hargs).mp hne
    exact ⟨hindented, args, hc, hargs⟩
  · rintro ⟨hindented, args, hc, hargs⟩
    exact (hscalar .between args s hc hargs).mpr ⟨rfl, hindented⟩

/-- The same token in a list and as a bound of a range. -/
theorem scalars_of_parse_range :
    parse "id" "OR(IN(1, @me),!BET(1, @me))" = .ok (group .or false
      [comparison .oneOf false [.scalar "1", .currentUser], comparison .between true [.scalar "1", .scalar " @me"]]) ∧
    Literal.ofText " @me" ≠ .scalar " @me" := by
  have hparse : parse "id" "OR(IN(1, @me),!BET(1, @me))" = .ok (group .or false
      [comparison .oneOf false [.scalar "1", .currentUser], comparison .between true [.scalar "1", .scalar " @me"]]) :=
    rfl
  have hbound : Compares .between [.scalar "1", .scalar " @me"] (group .or false
      [comparison .oneOf false [.scalar "1", .currentUser], comparison .between true [.scalar "1", .scalar " @me"]]) :=
    .member (List.mem_cons_of_mem _ List.mem_cons_self) (.here true)
  have hblank : ∀ c ∈ [' '], Text.isBlank c := List.forall_mem_singleton.mpr rfl
  have hindented : IsIndented " @me" := ⟨[' '], ['m', 'e'], List.cons_ne_nil _ _, hblank, rfl⟩
  have hmem : .scalar " @me" ∈ [Literal.scalar "1", .scalar " @me"] := List.mem_cons_of_mem _ List.mem_cons_self
  exact ⟨hparse, ((scalars_of_parse hparse).1 .between _ " @me" hbound hmem).mpr ⟨rfl, hindented⟩⟩

/-- A reference is taken for a text where blanks stand in front of it. -/
theorem range_takes_reference_for_text :
    parse "id" "BET(1, @me)" = .ok (comparison .between false [.scalar "1", .scalar " @me"]) ∧
    Literal.ofText " @me" = .currentUser :=
  ⟨rfl, by decide⟩

end Filter

end FilterPlan
