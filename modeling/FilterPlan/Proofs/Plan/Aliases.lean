import FilterPlan.Proofs.Plan.Build
import FilterPlan.Proofs.Plan.Layout
import FilterPlan.Proofs.Plan.Selection
import FilterPlan.Proofs.Plan.Settings

/-!
# The aliases of a plan

An alias is a fixed one or has a number, and the numbers of joins, of sub-selections and of the nested query are counted.
So in every plan the aliases differ, and every column is read through the root or through an entity that has been joined
(`build_wellScoped`).
-/

namespace FilterPlan

/-! ## Columns in scope -/

/-- The column is read through the root, or through an entity with one of the aliases. -/
def Column.ReadsThrough (aliases : List Text) (c : Column) : Prop :=
  ∀ via, c.via? = some via → via ∈ aliases

theorem Column.ReadsThrough.mono {aliases aliases' : List Text} {c : Column} (h : c.ReadsThrough aliases)
    (hsub : aliases ⊆ aliases') : c.ReadsThrough aliases' :=
  fun via hvia => hsub (h via hvia)

theorem Column.readsThrough_ofRoot (aliases : List Text) (name : Text) : (Column.ofRoot name).ReadsThrough aliases :=
  nofun

/-- The source of every join is read through the root, or through an entity that is joined before. -/
inductive Join.InOrder : List Join → Prop
  | nil : InOrder []
  | concat {joins : List Join} {j : Join} (h : InOrder joins)
      (hsource : j.source.ReadsThrough (joins.map Join.aliasName)) : InOrder (joins ++ [j])

theorem Join.InOrder.append {joins joins' : List Join} (h : InOrder joins) (h' : InOrder joins') :
    InOrder (joins ++ joins') := by
  induction h' with
  | nil => rwa [List.append_nil]
  | concat _ hsource ih =>
    rw [← List.append_assoc]
    refine ih.concat (hsource.mono ?_)
    rw [List.map_append]
    exact List.subset_append_right _ _

/-! ## The aliases of one field -/

namespace Field

theorem inOrder_joins (field : Field) : Join.InOrder field.joins := by
  cases field with
  | ownerUser | metadata => exact .concat .nil (Column.readsThrough_ofRoot _ _)
  | terms n taxonomy =>
    refine .concat (.concat .nil (Column.readsThrough_ofRoot _ _)) fun via hvia => ?_
    cases hvia
    exact List.mem_cons_self
  | property | owningRelation | entityType | ignored => exact .nil

/-- The column of a field is read through the root or through one of its own joins. -/
theorem readsThrough_of_column? {field : Field} {column : Column} (h : field.column? = some column) :
    column.ReadsThrough (field.joins.map Join.aliasName) := by
  cases field with
  | ownerUser | metadata =>
    cases h
    intro via hvia
    cases hvia
    exact List.mem_cons_self
  | terms =>
    cases h
    intro via hvia
    cases hvia
    exact List.mem_cons_of_mem _ List.mem_cons_self
  | property | owningRelation | entityType =>
    cases h
    exact Column.readsThrough_ofRoot _ _
  | ignored => cases h

/-- An alias of a field is that of the owner, or the number of the field is in it. -/
theorem alias_cases {field : Field} {n : Nat} {a : Text} (h : a ∈ (field.withNumber n).joins.map Join.aliasName) :
    (field = ownerUser ∧ a = ownerAlias) ∨ (field.width = 1 ∧ ∃ s ∈ aliasStems, a = s ++ Text.ofNat n) := by
  cases field with
  | ownerUser => exact Or.inl ⟨rfl, List.mem_singleton.mp h⟩
  | metadata _ key => exact Or.inr ⟨rfl, "m", by decide, List.mem_singleton.mp h⟩
  | terms _ taxonomy =>
    rcases List.mem_cons.mp h with h | h
    · exact Or.inr ⟨rfl, "tr", by decide, h⟩
    · exact Or.inr ⟨rfl, "t", by decide, List.mem_singleton.mp h⟩
  | property | owningRelation | entityType | ignored => cases h

theorem nodup_aliases (field : Field) : (field.joins.map Join.aliasName).Nodup := by
  cases field with
  | ownerUser | metadata => exact List.nodup_singleton _
  | terms n taxonomy =>
    refine List.nodup_cons.mpr ⟨fun h => ?_, List.nodup_singleton _⟩
    have hne : ("tr" : Text) = ("t" : Text) :=
      ((Text.append_ofNat_inj (by decide) (by decide)).mp (List.mem_singleton.mp h)).1
    exact absurd hne (by decide)
  | property | owningRelation | entityType | ignored => exact List.nodup_nil

/-- Only one key leads to the user behind the owner. -/
theorem eq_userKey_of_ofKey? {schema : Schema} {key : Text} (h : ofKey? schema key = some ownerUser) :
    key = userKey := by
  unfold ofKey? resolve at h
  by_contra hk
  rw [if_neg fun hu => hk hu.1] at h
  repeat' split at h
  all_goals cases h

end Field

/-! ## The aliases of all joins -/

namespace Clause

variable {schema : Schema}

/-- The aliases of the joins of clauses, in order. -/
def aliases (n k : Nat) (cs : List (Clause schema)) : List Text :=
  ((blocks n k cs).flatMap Block.joins).map Join.aliasName

theorem aliases_cons (n k : Nat) (c : Clause schema) (cs : List (Clause schema)) : aliases n k (c :: cs) =
    (c.field.withNumber n).joins.map Join.aliasName ++
      aliases (n + c.field.width) (k + c.filter.literals.length) cs := by
  simp only [aliases, blocks, block, List.flatMap_cons, List.map_append]

theorem alias_cases {a : Text} : ∀ {cs : List (Clause schema)} {n k : Nat}, a ∈ aliases n k cs →
    (a = ownerAlias ∧ Field.userKey ∈ cs.map Clause.key) ∨
      ∃ s ∈ Field.aliasStems, ∃ i, n ≤ i ∧ i < n + width cs ∧ a = s ++ Text.ofNat i
  | [], _, _, h => by cases h
  | c :: cs, n, k, h => by
    rw [aliases_cons] at h
    rw [width_cons]
    rcases List.mem_append.mp h with h | h
    · rcases Field.alias_cases h with ⟨hf, rfl⟩ | ⟨hw, s, hs, rfl⟩
      · have hkey := Field.eq_userKey_of_ofKey? (hf ▸ c.addressed)
        exact Or.inl ⟨rfl, hkey ▸ List.mem_cons_self⟩
      · exact Or.inr ⟨s, hs, n, Nat.le_refl n, by omega, rfl⟩
    · rcases alias_cases h with ⟨rfl, hkey⟩ | ⟨s, hs, i, hi, hlt, rfl⟩
      · exact Or.inl ⟨rfl, List.mem_cons_of_mem _ hkey⟩
      · exact Or.inr ⟨s, hs, i, by omega, by omega, rfl⟩

/-- The alias of a join is no fixed name but that of the owner. -/
theorem alias_ne_of_isStem {cs : List (Clause schema)} {n k : Nat} {a t : Text} (h : a ∈ aliases n k cs)
    (ht : Text.IsStem t) (hne : t ≠ ownerAlias) : a ≠ t := by
  rcases alias_cases h with ⟨rfl, -⟩ | ⟨s, hs, i, -, -, rfl⟩
  · exact hne.symm
  · exact Text.append_ofNat_ne (Field.isStem_of_mem_aliasStems s hs) ht i

/-- The alias of a join is no numbered name with a stem of another use. -/
theorem alias_ne_numbered {cs : List (Clause schema)} {n k : Nat} {a s : Text} (h : a ∈ aliases n k cs)
    (hs : Text.IsStem s) (hstem : s ∉ Field.aliasStems) (m : Nat) : a ≠ s ++ Text.ofNat m := by
  rcases alias_cases h with ⟨rfl, -⟩ | ⟨s', hs', i, -, -, rfl⟩
  · exact (Text.append_ofNat_ne hs Field.isStem_ownerAlias m).symm
  · intro he
    have hsame := ((Text.append_ofNat_inj (Field.isStem_of_mem_aliasStems s' hs') hs).mp he).1
    exact hstem (hsame ▸ hs')

/-- Clauses with different keys have joins with different aliases. -/
theorem nodup_aliases : ∀ {cs : List (Clause schema)} {n k : Nat}, (cs.map Clause.key).Nodup → (aliases n k cs).Nodup
  | [], _, _, _ => List.nodup_nil
  | c :: cs, n, k, h => by
    obtain ⟨hkey, hrest⟩ := List.nodup_cons.mp h
    rw [aliases_cons]
    refine List.nodup_append'.mpr ⟨Field.nodup_aliases _, nodup_aliases hrest, fun a hhead htail => ?_⟩
    rcases Field.alias_cases hhead with ⟨hf, rfl⟩ | ⟨hw, s, hs, rfl⟩
    · -- the alias of the owner has no number, but only one key leads to it
      have hu := Field.eq_userKey_of_ofKey? (hf ▸ c.addressed)
      rcases alias_cases htail with ⟨-, hmem⟩ | ⟨s, hs, i, -, -, he⟩
      · exact hkey (hu ▸ hmem)
      · exact Text.append_ofNat_ne (Field.isStem_of_mem_aliasStems s hs) Field.isStem_ownerAlias i he.symm
    · rcases alias_cases htail with ⟨he, -⟩ | ⟨s', hs', i, hi, -, he⟩
      · exact Text.append_ofNat_ne (Field.isStem_of_mem_aliasStems s hs) Field.isStem_ownerAlias n he
      · have := ((Text.append_ofNat_inj (Field.isStem_of_mem_aliasStems s hs)
          (Field.isStem_of_mem_aliasStems s' hs')).mp he).2
        omega

theorem inOrder_joins : ∀ (cs : List (Clause schema)) (n k : Nat), Join.InOrder ((blocks n k cs).flatMap Block.joins)
  | [], _, _ => .nil
  | c :: cs, n, k => by
    rw [blocks, List.flatMap_cons]
    exact (Field.inOrder_joins _).append (inOrder_joins cs _ _)

/-- Every column of a predicate is read through the root or through a join. -/
theorem readsThrough_aliases {cs : List (Clause schema)} {n k : Nat} {b : Block} (hb : b ∈ blocks n k cs) {column : Column}
    (hc : column ∈ b.predicate.columns) : column.ReadsThrough (aliases n k cs) := by
  obtain ⟨c, -, m, j, rfl⟩ := exists_of_mem_blocks hb
  obtain rfl := (Filter.mem_columns_numbered c.wellFormed j).mp hc
  refine (Field.readsThrough_of_column? (c.column?_withNumber m)).mono (List.map_subset _ fun join hj => ?_)
  exact List.mem_flatMap.mpr ⟨_, hb, hj⟩

end Clause

/-! ## Sub-selections -/

/-- What the aliases of sub-selections begin with. -/
def SubSelect.aliasStem : Text := "sq"

/-- What is generated for numbered sub-selections is a name for each of their numbers. -/
theorem SubSelect.map_numberedFrom {f : SubSelect → Text} {stem : Text}
    (h : ∀ i path member, f (numbered i path member) = stem ++ Text.ofNat i) (n : Nat) (pairs : List (Text × Text)) :
    (numberedFrom n pairs).map f = (List.range' n pairs.length).map fun i => stem ++ Text.ofNat i := by
  rw [← List.zipIdx_map_snd, numberedFrom, List.map_map, List.map_map]
  exact List.map_congr_left fun ((path, member), i) _ => h i path member

/-- The sub-selections of a selection are numbered consecutively. -/
theorem Selection.subSelects_of_parse {schema : Schema} {t : Text} {names : Names} {selection : Selection}
    (h : (parse schema t names).1 = .ok selection) : ∃ n pairs, selection.subSelects = SubSelect.numberedFrom n pairs := by
  obtain ⟨choices, -, rfl⟩ := exists_choices_of_parse h
  refine ⟨names.subSelects, choices.filterMap Choice.member?, ?_⟩
  rw [ofChoices, SubSelect.generate_eq]

/-- What the directives select is read from one of them. -/
theorem Settings.exists_parse_of_selected {schema : Schema} {params : List (Text × Text)} {selection : Selection}
    (h : (selected schema params).1 = some selection) : ∃ t names,
      (Selection.parse schema t names).1 = .ok selection := by
  unfold selected at h
  rcases List.eq_nil_or_concat (said [.select] params) with hs | ⟨before, p, hs⟩
  · rw [hs] at h
    cases h
  · rw [hs, List.concat_eq_append, List.foldl_concat] at h
    exact ⟨p.2, _, Outcome.toOption_eq_some_iff.mp h⟩

/-- With or without a directive, the sub-selections are numbered consecutively. -/
theorem Settings.subSelects_selection {schema : Schema} {config : Config} {params : List (Text × Text)}
    {settings : Settings} (h : ofParams schema config params = .ok settings) : ∃ n pairs,
      (settings.selection?.getD Plan.defaultSelection).subSelects = SubSelect.numberedFrom n pairs := by
  obtain ⟨-, rfl⟩ := ofParams_eq_ok_iff.mp h
  cases hs : (ofLast schema config params).selection? with
  | none => exact ⟨0, [], rfl⟩
  | some selection =>
    obtain ⟨t, names, hp⟩ := exists_parse_of_selected hs
    exact Selection.subSelects_of_parse hp

theorem Settings.aliases_selection {schema : Schema} {config : Config} {params : List (Text × Text)}
    {settings : Settings} (h : ofParams schema config params = .ok settings) : ∃ n count,
      (settings.selection?.getD Plan.defaultSelection).subSelects.map SubSelect.aliasName =
        (List.range' n count).map fun i => SubSelect.aliasStem ++ Text.ofNat i := by
  obtain ⟨n, pairs, hsub⟩ := subSelects_selection h
  exact ⟨n, pairs.length, by rw [hsub]; exact SubSelect.map_numberedFrom (fun _ _ _ => rfl) n pairs⟩

/-! ## Plans -/

namespace Plan

/-- The alias of the metadata rows in the query that fetches them. -/
def metadataRoot : Text := "m"

/-- The aliases of the plan differ, and its columns are read through the root or through an entity that is joined. -/
structure WellScoped (p : Plan) : Prop where
  nodup_joins : (p.joins.map Join.aliasName).Nodup
  joins_ne_roots : ∀ a ∈ p.joins.map Join.aliasName, a ≠ rootAlias ∧ a ≠ metadataRoot ∧ a ≠ p.subqueryRoot
  joins_ne_subSelects : ∀ a ∈ p.joins.map Join.aliasName, a ∉ p.subSelects.map SubSelect.aliasName
  subqueryRoot_ne : p.subqueryRoot ≠ rootAlias ∧ p.subqueryRoot ≠ metadataRoot
  subqueryRoot_ne_subSelects : p.subqueryRoot ∉ p.subSelects.map SubSelect.aliasName
  nodup_subSelects : (p.subSelects.map SubSelect.aliasName).Nodup
  subSelects_ne_root : rootAlias ∉ p.subSelects.map SubSelect.aliasName
  joins_inOrder : Join.InOrder p.joins
  columns_readThrough : ∀ predicate ∈ p.predicates, ∀ column ∈ predicate.columns,
    column.ReadsThrough (p.joins.map Join.aliasName)

/-- What the root alias of the nested query begins with. -/
def subqueryStem : Text := rootAlias ++ "_"

/-- The aliases of a plan with consecutively numbered sub-selections and laid out clauses. -/
theorem wellScoped_assemble {schema : Schema} {config : Config} {settings : Settings} {resolver : Resolver}
    {cs : List (Clause schema)} (hkeys : (cs.map Clause.key).Nodup) {first count : Nat}
    (hsub : (settings.selection?.getD defaultSelection).subSelects.map SubSelect.aliasName =
      (List.range' first count).map fun i => SubSelect.aliasStem ++ Text.ofNat i) :
    (assemble schema config settings (Clauses.laid resolver settings.names cs)).WellScoped := by
  have hmem : ∀ a, a ∈ (settings.selection?.getD defaultSelection).subSelects.map SubSelect.aliasName →
      ∃ i, a = SubSelect.aliasStem ++ Text.ofNat i := fun a ha => by
    rw [hsub] at ha
    obtain ⟨i, -, rfl⟩ := List.mem_map.mp ha
    exact ⟨i, rfl⟩
  have hq : Text.IsStem SubSelect.aliasStem := by decide
  have hr : Text.IsStem subqueryStem := by decide
  have he : Text.IsStem rootAlias := by decide
  have hm : Text.IsStem metadataRoot := by decide
  constructor
  · exact Clause.nodup_aliases hkeys
  · intro a ha
    exact ⟨Clause.alias_ne_of_isStem ha he (by decide), Clause.alias_ne_of_isStem ha hm (by decide),
      Clause.alias_ne_numbered ha hr (by decide) _⟩
  · intro a ha hs
    obtain ⟨i, rfl⟩ := hmem a hs
    exact Clause.alias_ne_numbered ha hq (by decide) i rfl
  · exact ⟨Text.append_ofNat_ne hr he _, Text.append_ofNat_ne hr hm _⟩
  · intro hs
    obtain ⟨i, hi⟩ := hmem _ hs
    have hstem := ((Text.append_ofNat_inj hr hq).mp hi).1
    exact absurd hstem (by decide)
  · show ((settings.selection?.getD defaultSelection).subSelects.map SubSelect.aliasName).Nodup
    rw [hsub]
    exact Text.nodup_numbered hq first count
  · intro hs
    obtain ⟨i, hi⟩ := hmem _ hs
    exact Text.append_ofNat_ne hq he i hi.symm
  · exact Clause.inOrder_joins cs _ 0
  · intro predicate hp column hc
    obtain ⟨b, hb, rfl⟩ := List.mem_map.mp hp
    exact Clause.readsThrough_aliases hb hc

/-- **Aliases are fresh, and all columns are in scope**, in every plan. -/
theorem build_wellScoped {registry : Registry} {kind : Text} {resolver : Resolver} {config : Config}
    {request : Request} {plan : Plan} (h : build registry kind resolver config request = .ok plan) :
    plan.WellScoped := by
  obtain ⟨schema, settings, clauses, -, hs, hc, rfl⟩ := build_eq_ok_iff.mp h
  obtain ⟨first, count, hsub⟩ := Settings.aliases_selection hs
  obtain ⟨cs, hcs, rfl⟩ := Clauses.exists_laid_of_ofParams hc
  exact wellScoped_assemble (Clause.nodup_keys hcs) hsub

/-- Joins of all kinds, with two members of a related entity. -/
def joinedRequest : Request :=
  .ofList [("user", "EQ(@me)"), ("@select", "owner.\x7bid,name\x7d"), ("site", "LIKE(a)"), ("term:area", "OR(EQ(1),EQ(2))"),
    ("id", "GT(3)")]

theorem build_wellScoped_joined : ∃ plan, build agents "agent" .anonymous {} joinedRequest = .ok plan ∧
    plan.joins.map Join.aliasName = ["__user_agent__", "m0", "tr1", "t1"] ∧ plan.WellScoped := by
  have hjoins : (build agents "agent" .anonymous {} joinedRequest).map (fun plan => plan.joins.map Join.aliasName) =
      .ok ["__user_agent__", "m0", "tr1", "t1"] := by decide +kernel
  obtain ⟨plan, hb, hj⟩ := Outcome.map_eq_ok_iff.mp hjoins
  exact ⟨plan, hb, hj, build_wellScoped hb⟩

end Plan

end FilterPlan
