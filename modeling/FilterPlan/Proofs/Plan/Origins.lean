import FilterPlan.Proofs.Plan.Aliases
import FilterPlan.Proofs.Plan.Order

/-!
# Where the names of a plan come from

What a request says in free text reaches a plan in few places: as a name that the schema has, or as an identifier that
names a member of a related entity. Every other name is a fixed one or a generated alias. So no text of a request stands
in query text without having been checked (`build_isDrawnFrom`).
-/

namespace FilterPlan

/-! ## What a schema supports -/

/-- The schema has what the join is restricted to. -/
def JoinCondition.IsKnown (schema : Schema) : JoinCondition → Prop
  | metadataKey key => schema.capabilities.usesMetadata ∧ key ∈ schema.metadataKeys
  | taxonomy id => schema.capabilities.usesTaxonomies ∧ ∃ slug, schema.taxonomies.get? slug = some id

/-- The column is one that the schema lets a filter compare: it is the root's own, or it is the one column of a joined
entity that its join is made for. -/
inductive Column.IsKnown (schema : Schema) (joins : List Join) : Column → Prop
  | owningRelation {name : Text} (h : schema.isOwningRelation name) : IsKnown schema joins (.ofRoot name)
  | property {name : Text} (h : schema.hasProperty name) : IsKnown schema joins (.ofRoot name)
  | entityType (h : schema.capabilities.usesTypes) : IsKnown schema joins (.ofRoot "_type")
  | ownerUser (h : schema.capabilities.usesOwnerAgent)
      (hj : { aliasName := ownerAlias, source := .ofRoot "owner" } ∈ joins) :
      IsKnown schema joins (.through ownerAlias "user")
  | metadataValue {j : Join} {key : Text} (hj : j ∈ joins) (hc : j.condition? = some (.metadataKey key)) :
      IsKnown schema joins (.through j.aliasName "value")
  | term {j : Join} {id : Nat} (hj : j ∈ joins) (hc : j.condition? = some (.taxonomy id)) :
      IsKnown schema joins (.through j.aliasName "term")

namespace Field

variable {schema : Schema} {field : Field}

/-- The schema has what the field is about. -/
def IsKnown (schema : Schema) : Field → Prop
  | property name => schema.hasProperty name
  | ownerUser => schema.capabilities.usesOwnerAgent
  | owningRelation name => schema.isOwningRelation name
  | metadata _ key => (JoinCondition.metadataKey key).IsKnown schema
  | terms _ id => (JoinCondition.taxonomy id).IsKnown schema
  | entityType => schema.capabilities.usesTypes
  | ignored => True

theorem isKnown_taxonomy {key : Text} {id : Nat} (h : schema.taxonomy? key = some id) :
    (JoinCondition.taxonomy id).IsKnown schema := by
  obtain ⟨hu, h⟩ := Option.ite_none_right_eq_some.mp h
  obtain ⟨slug, -, hs⟩ := Option.bind_eq_some_iff.mp h
  exact ⟨hu, slug, hs⟩

/-- A key addresses what the schema has. -/
theorem isKnown_of_ofKey? {key : Text} (h : ofKey? schema key = some field) : field.IsKnown schema := by
  obtain ⟨⟨f, names⟩, hr, rfl⟩ := Option.map_eq_some_iff.mp h
  rw [Outcome.toOption_eq_some_iff] at hr
  unfold resolve at hr
  split at hr
  · next hk =>
    cases hr
    exact hk.2
  split at hr
  · next hk =>
    cases hr
    exact hk
  split at hr
  · next hk =>
    cases hr
    exact hk
  split at hr
  · next hk =>
    cases hr
    exact hk.2
  split at hr
  · next id ht =>
    cases hr
    exact isKnown_taxonomy ht
  split at hr
  · next hk =>
    cases hr
    obtain ⟨hu, hm⟩ := Bool.and_eq_true_iff.mp hk
    exact ⟨hu, of_decide_eq_true hm⟩
  split at hr
  · cases hr
    trivial
  · cases hr

theorem isKnown_withNumber (h : field.IsKnown schema) (n : Nat) : (field.withNumber n).IsKnown schema := by
  cases field <;> exact h

/-- The column of a field that the schema has is known where the joins of the field are. -/
theorem isKnown_of_column? {column : Column} {joins : List Join} (h : field.IsKnown schema)
    (hc : field.column? = some column) (hjoins : field.joins ⊆ joins) : column.IsKnown schema joins := by
  cases field with
  | property =>
    cases hc
    exact .property h
  | ownerUser =>
    cases hc
    exact .ownerUser h (hjoins List.mem_cons_self)
  | owningRelation =>
    cases hc
    exact .owningRelation h
  | metadata =>
    cases hc
    exact .metadataValue (hjoins List.mem_cons_self) rfl
  | terms =>
    cases hc
    exact .term (hjoins (List.mem_cons_of_mem _ List.mem_cons_self)) rfl
  | entityType =>
    cases hc
    exact .entityType h
  | ignored => cases hc

theorem isKnown_of_mem_joins {j : Join} {condition : JoinCondition} (h : field.IsKnown schema) (hj : j ∈ field.joins)
    (hc : j.condition? = some condition) : condition.IsKnown schema := by
  cases field with
  | metadata =>
    obtain rfl := List.mem_singleton.mp hj
    cases hc
    exact h
  | terms =>
    rcases List.mem_cons.mp hj with rfl | hj
    · cases hc
    · obtain rfl := List.mem_singleton.mp hj
      cases hc
      exact h
  | ownerUser =>
    obtain rfl := List.mem_singleton.mp hj
    cases hc
  | property | owningRelation | entityType | ignored => cases hj

end Field

/-! ## Clauses -/

namespace Clause

variable {schema : Schema} {cs : List (Clause schema)} {n k : Nat} {b : Block}

theorem isKnown (c : Clause schema) (n : Nat) : (c.field.withNumber n).IsKnown schema :=
  Field.isKnown_withNumber (Field.isKnown_of_ofKey? c.addressed) n

/-- The columns of predicates are known, with the joins of the clauses. -/
theorem isKnown_columns (hb : b ∈ blocks n k cs) {column : Column} (hc : column ∈ b.predicate.columns) :
    column.IsKnown schema ((blocks n k cs).flatMap Block.joins) := by
  obtain ⟨c, -, m, j, rfl⟩ := exists_of_mem_blocks hb
  obtain rfl := (Filter.mem_columns_numbered c.wellFormed j).mp hc
  exact Field.isKnown_of_column? (c.isKnown m) (c.column?_withNumber m) fun join hj =>
    List.mem_flatMap.mpr ⟨_, hb, hj⟩

theorem isKnown_conditions (hb : b ∈ blocks n k cs) {j : Join} (hj : j ∈ b.joins) {condition : JoinCondition}
    (hc : j.condition? = some condition) : condition.IsKnown schema := by
  obtain ⟨c, -, m, i, rfl⟩ := exists_of_mem_blocks hb
  exact Field.isKnown_of_mem_joins (c.isKnown m) hj hc

end Clause

/-! ## Selections and orders -/

/-- The schema has what the selection asks for, and the members of relations are identifiers. -/
structure Selection.IsKnown (schema : Schema) (s : Selection) : Prop where
  properties : ∀ name ∈ s.properties, schema.hasProperty name ∨ name = idProperty
  metadata : ∀ key ∈ s.metadata, (JoinCondition.metadataKey key).IsKnown schema
  subSelects : ∀ sub ∈ s.subSelects, schema.hasRelation sub.path ∧ sub.member.isIdentifier

namespace Selection

variable {schema : Schema}

/-- The schema has what is chosen. -/
def Choice.IsKnown (schema : Schema) : Choice → Prop
  | property name => schema.hasProperty name
  | metadata key => (JoinCondition.metadataKey key).IsKnown schema
  | member path name => schema.hasRelation path ∧ name.isIdentifier
  | nothing => True

theorem isKnown_of_mem_choices {item : Text} {choice : Choice} (h : .ok choice ∈ choices schema item) :
    choice.IsKnown schema := by
  unfold choices at h
  split at h
  · split at h
    · next hp =>
      obtain ⟨m, -, hm⟩ := List.mem_map.mp h
      split at hm
      · next hi =>
        cases hm
        exact ⟨hp, hi⟩
      · cases hm
    · cases List.mem_singleton.mp h
  · split at h
    · next hp =>
      cases List.mem_singleton.mp h
      exact hp
    split at h
    · next hk =>
      cases List.mem_singleton.mp h
      obtain ⟨hu, hm⟩ := Bool.and_eq_true_iff.mp hk
      exact ⟨hu, of_decide_eq_true hm⟩
    split at h
    · next hp =>
      cases List.mem_singleton.mp h
      exact ⟨hp, rfl⟩
    · cases List.mem_singleton.mp h
      trivial

theorem isKnown_ofChoices {choices : List Choice} (names : Names) (h : ∀ c ∈ choices, c.IsKnown schema) :
    (ofChoices choices names).1.IsKnown schema where
  properties name hn := by
    obtain ⟨c, hc, hp⟩ := List.mem_filterMap.mp (List.mem_eraseDups.mp hn)
    cases c with
    | property =>
      cases hp
      exact Or.inl (h _ hc)
    | metadata | member | nothing => cases hp
  metadata key hk := by
    obtain ⟨c, hc, hp⟩ := List.mem_filterMap.mp (List.mem_eraseDups.mp hk)
    cases c with
    | metadata =>
      cases hp
      exact h _ hc
    | property | member | nothing => cases hp
  subSelects sub hs := by
    rw [ofChoices, SubSelect.generate_eq] at hs
    obtain ⟨⟨⟨path, name⟩, i⟩, hi, rfl⟩ := List.mem_map.mp hs
    obtain ⟨c, hc, hp⟩ := List.mem_filterMap.mp (List.fst_mem_of_mem_zipIdx hi)
    cases c with
    | member =>
      cases hp
      exact h _ hc
    | property | metadata | nothing => cases hp

theorem isKnown_of_parse {t : Text} {names : Names} {selection : Selection}
    (h : (parse schema t names).1 = .ok selection) : selection.IsKnown schema := by
  obtain ⟨choices, hc, rfl⟩ := exists_choices_of_parse h
  refine isKnown_ofChoices names fun c hm => ?_
  obtain ⟨item, -, hitem⟩ := List.mem_flatMap.mp (hc ▸ List.mem_map_of_mem hm)
  exact isKnown_of_mem_choices hitem

theorem isKnown_defaultSelection : Plan.defaultSelection.IsKnown schema where
  properties _ h := Or.inr (List.mem_singleton.mp h)
  metadata _ h := nomatch h
  subSelects _ h := nomatch h

end Selection

/-- Rows are sorted by properties only, be it by the request or by the configuration. -/
theorem Plan.SortedBy.hasProperty {schema : Schema} {config : Config} {params : List (Text × Text)} {orders : List OrderBy}
    (h : SortedBy schema config params orders) : ∀ o ∈ orders, schema.hasProperty o.column := by
  cases h with
  | asked _ h | configured _ h =>
    cases h with
    | order _ hcolumns => exact hcolumns
  | unsorted => exact nofun

theorem Settings.isKnown_selection {schema : Schema} {config : Config} {params : List (Text × Text)} {settings : Settings}
    (h : ofParams schema config params = .ok settings) :
    (settings.selection?.getD Plan.defaultSelection).IsKnown schema := by
  obtain ⟨-, rfl⟩ := ofParams_eq_ok_iff.mp h
  cases hs : (ofLast schema config params).selection? with
  | none => exact Selection.isKnown_defaultSelection
  | some selection =>
    obtain ⟨t, names, hp⟩ := exists_parse_of_selected hs
    exact Selection.isKnown_of_parse hp

/-! ## Plans -/

namespace Plan

variable {schema : Schema} {config : Config}

/-- Properties are added by configuration only if the schema has them. -/
theorem mem_addImplicit {name : Text} : ∀ {implicitSelect properties : List Text},
    name ∈ addImplicit schema implicitSelect properties → name ∈ properties ∨ schema.hasProperty name
  | [], _, h => Or.inl h
  | a :: rest, properties, h => by
    rw [addImplicit, List.foldl_cons] at h
    rcases mem_addImplicit h with h | h
    · split at h
      · next ha =>
        rcases List.mem_append.mp h with h | h
        · exact Or.inl h
        · obtain rfl := List.mem_singleton.mp h
          exact Or.inr (Bool.and_eq_true_iff.mp ha).1
      · exact Or.inl h
    · exact Or.inr h

theorem mem_selectedProperties {selection : Selection} (h : selection.IsKnown schema) {name : Text}
    (hn : name ∈ selectedProperties schema config selection) : schema.hasProperty name ∨ name = idProperty := by
  have hadded : name ∈ addImplicit schema config.implicitSelect selection.properties →
      schema.hasProperty name ∨ name = idProperty := fun hn => by
    rcases mem_addImplicit hn with hn | hn
    · exact h.properties name hn
    · exact Or.inl hn
  unfold selectedProperties at hn
  simp only at hn
  split at hn
  · rcases List.mem_cons.mp hn with hn | hn
    · exact Or.inr hn
    · exact hadded hn
  · exact hadded hn

/-- The names in the plan are those of the schema, but for fixed ones and for members of related entities, which are
identifiers. -/
structure IsDrawnFrom (schema : Schema) (p : Plan) : Prop where
  properties : ∀ name ∈ p.properties, schema.hasProperty name ∨ name = idProperty
  metadata : ∀ key ∈ p.metadata, schema.capabilities.usesMetadata ∧ key ∈ schema.metadataKeys
  subSelects : ∀ sub ∈ p.subSelects, schema.hasRelation sub.path ∧ sub.member.isIdentifier
  order : ∀ o ∈ p.order, schema.hasProperty o.column
  columns : ∀ predicate ∈ p.predicates, ∀ column ∈ predicate.columns, column.IsKnown schema p.joins
  conditions : ∀ j ∈ p.joins, ∀ condition, j.condition? = some condition → condition.IsKnown schema

/-- **Only names of the schema and identifiers reach a plan**, whatever the request says. -/
theorem build_isDrawnFrom {registry : Registry} {kind : Text} {resolver : Resolver} {request : Request} {plan : Plan}
    (h : build registry kind resolver config request = .ok plan) :
    ∃ schema, registry.get? kind = some schema ∧ plan.IsDrawnFrom schema := by
  obtain ⟨schema, settings, clauses, hk, hs, hc, rfl⟩ := build_eq_ok_iff.mp h
  obtain ⟨cs, -, rfl⟩ := Clauses.exists_laid_of_ofParams hc
  have hselection := Settings.isKnown_selection hs
  refine ⟨schema, hk, ?_, hselection.metadata, hselection.subSelects, (sortedBy_of_ofParams hs).hasProperty, ?_, ?_⟩
  · exact fun name hn => mem_selectedProperties hselection hn
  · intro predicate hp column hcolumn
    obtain ⟨b, hb, rfl⟩ := List.mem_map.mp hp
    exact Clause.isKnown_columns hb hcolumn
  · intro j hj condition hcondition
    obtain ⟨b, hb, hj⟩ := List.mem_flatMap.mp hj
    exact Clause.isKnown_conditions hb hj hcondition

/-- Names of every kind: some the schema has, some fixed, some generated, and one that is only an identifier. -/
def variedRequest : Request :=
  .ofList [("@select", "name, site, owner.\x7bid, password\x7d, nothing"), ("@order", "name desc"),
    ("type", "EQ(person)"), ("owner", "EQ(@me)"), ("user", "EQ(@me)"), ("site", "LIKE('x)"),
    ("term:area", "IN(1,2)"), ("_cursor", "e.secret = 1")]

theorem build_isDrawnFrom_varied : ∃ plan, build agents "agent" .anonymous {} variedRequest = .ok plan ∧
    plan.predicates.flatMap Predicate.columns = [.ofRoot "_type", .ofRoot "owner", .through ownerAlias "user",
      .through "m0" "value", .through "t1" "term"] ∧
    ∃ schema, agents.get? "agent" = some schema ∧ plan.IsDrawnFrom schema := by
  have hcolumns : (build agents "agent" .anonymous {} variedRequest).map
      (fun plan => plan.predicates.flatMap Predicate.columns) = .ok [.ofRoot "_type", .ofRoot "owner",
        .through ownerAlias "user", .through "m0" "value", .through "t1" "term"] := by decide +kernel
  obtain ⟨plan, hb, hc⟩ := Outcome.map_eq_ok_iff.mp hcolumns
  exact ⟨plan, hb, hc, build_isDrawnFrom hb⟩

end Plan

end FilterPlan
