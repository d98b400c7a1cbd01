import FilterPlan.Proofs.Plan.Build
import FilterPlan.Proofs.Plan.Settings
import FilterPlan.Proofs.Plan.Selection
import Mathlib.Data.List.Nodup

/-!
# The properties of a plan

The properties that a plan reads are those chosen by the last directive about it (`Plan.chosen`), then the configured
ones that are missing (`Plan.added`), and the number of the entity is put in front where rows are attached by it or
nothing else is left. Each stage adds nothing that is there (`addImplicit_eq`, `selectedProperties_cases`), so there are
no repetitions, and what every plan reads follows from the two lists (`build_properties`).
-/

namespace FilterPlan

theorem nodup_eraseDups {α : Type} [BEq α] [LawfulBEq α] : ∀ l : List α, l.eraseDups.Nodup
  | [] => List.nodup_nil
  | a :: l => by
    rw [List.eraseDups_cons, List.nodup_cons, List.mem_eraseDups]
    refine ⟨fun ha => ?_, nodup_eraseDups _⟩
    simpa using (List.mem_filter.mp ha).2
  termination_by l => l.length
  decreasing_by exact Nat.lt_succ_of_le (List.length_filter_le _ l)

/-! ## What a selection chooses -/

namespace Selection

/-- The items of a selection that are properties, each once. -/
def propertyNames (schema : Schema) (t : Text) : List Text :=
  ((items t.squeeze).filter fun item => !item.contains '.' && schema.hasProperty item).eraseDups

variable {schema : Schema}

theorem property?_memberIn (path item m : Text) : (memberIn path item m).toOption.bind Choice.property? = none := by
  unfold memberIn
  split <;> rfl

/-- Only a name is read as a property, and only if it is one. -/
theorem property?_choices (item : Text) : (choices schema item).filterMap (fun c => c.toOption.bind Choice.property?) =
    [item].filter fun item => !item.contains '.' && schema.hasProperty item := by
  rw [List.filter_singleton]
  by_cases hdot : '.' ∈ item
  · have hcontains : item.contains '.' = true := List.contains_iff_mem.mpr hdot
    obtain ⟨path, rest, hitem, hpath⟩ := List.eq_append_cons_of_mem hdot
    rw [hcontains, hitem, choices_append_dot hpath]
    split
    · rw [List.filterMap_map]
      exact List.filterMap_eq_nil_iff.mpr fun m _ => property?_memberIn path _ m
    · rfl
  · have hcontains : item.contains '.' = false := Bool.eq_false_iff.mpr fun h => hdot (List.contains_iff_mem.mp h)
    rw [choices_of_not_mem hdot, named, hcontains]
    cases schema.hasProperty item <;> cases schema.hasMetadataKey item <;> cases schema.hasRelation item <;> rfl

theorem properties_of_parse {t : Text} {names : Names} {selection : Selection}
    (h : (parse schema t names).1 = .ok selection) : selection.properties = propertyNames schema t := by
  obtain ⟨cs, hread, rfl⟩ := exists_choices_of_parse h
  have hproperties : cs.filterMap Choice.property? =
      ((items t.squeeze).flatMap (choices schema)).filterMap fun c => c.toOption.bind Choice.property? := by
    rw [hread, List.filterMap_map]
    rfl
  rw [ofChoices, hproperties, List.filterMap_flatMap]
  simp only [property?_choices]
  rw [← List.filter_flatMap, List.flatMap_singleton']
  rfl

end Selection

namespace Plan

variable {schema : Schema} {config : Config}

/-- The properties that the last directive about it selects, or the number of the entity if there is none. -/
def chosen (schema : Schema) (params : List (Text × Text)) : List Text :=
  match (Settings.said [.select] params).getLast? with
  | some param => Selection.propertyNames schema param.2
  | none => [idProperty]

/-- The configured properties that the entity has and that are not chosen, each once. -/
def added (schema : Schema) (config : Config) (chosen : List Text) : List Text :=
  (config.implicitSelect.filter fun name => schema.hasProperty name && !chosen.contains name).eraseDups

/-- What a request asks for: the chosen properties in their order, and then the added ones in the configured order. -/
def asked (schema : Schema) (config : Config) (params : List (Text × Text)) : List Text :=
  chosen schema params ++ added schema config (chosen schema params)

theorem nodup_chosen (params : List (Text × Text)) : (chosen schema params).Nodup := by
  unfold chosen
  split
  · exact nodup_eraseDups _
  · exact List.nodup_singleton _

theorem mem_added_iff {chosen : List Text} {name : Text} : name ∈ added schema config chosen ↔
    name ∈ config.implicitSelect ∧ schema.hasProperty name ∧ name ∉ chosen := by
  rw [added, List.mem_eraseDups, List.mem_filter, Bool.and_eq_true, Bool.not_eq_true', Bool.eq_false_iff, ne_eq,
    List.contains_iff_mem]

theorem nodup_asked (params : List (Text × Text)) : (asked schema config params).Nodup := by
  refine List.nodup_append'.mpr ⟨nodup_chosen params, nodup_eraseDups _, fun name hchosen hadded => ?_⟩
  exact (mem_added_iff.mp hadded).2.2 hchosen

theorem mem_asked_iff {params : List (Text × Text)} {name : Text} : name ∈ asked schema config params ↔
    name ∈ chosen schema params ∨ name ∈ config.implicitSelect ∧ schema.hasProperty name := by
  rw [asked, List.mem_append, mem_added_iff]
  by_cases h : name ∈ chosen schema params <;> simp [h]

end Plan

/-- What the settings select are the chosen properties. -/
theorem Settings.properties_selection {schema : Schema} {config : Config} {params : List (Text × Text)}
    {settings : Settings} (h : ofParams schema config params = .ok settings) :
    (settings.selection?.getD Plan.defaultSelection).properties = Plan.chosen schema params := by
  obtain ⟨hfault, rfl⟩ := ofParams_eq_ok_iff.mp h
  show ((selected schema params).1.getD Plan.defaultSelection).properties = Plan.chosen schema params
  rcases List.eq_nil_or_concat (said [.select] params) with hs | ⟨before, param, hs⟩
  · rw [selected, Plan.chosen, hs]
    rfl
  · rw [List.concat_eq_append] at hs
    have hsaid : param ∈ said [.select] params := hs ▸ List.mem_append_right before List.mem_cons_self
    -- the numbers that earlier selections have taken do not matter, neither for the fault nor for the properties
    obtain ⟨names, hnames⟩ : ∃ names, (selected schema params).1 =
        (Selection.parse schema param.2 names).1.toOption := ⟨_, by rw [selected, hs, List.foldl_concat]⟩
    obtain ⟨selection, hp⟩ : ∃ selection, (Selection.parse schema param.2 names).1 = .ok selection := by
      have hvalid : Outcome.error? (Selection.parse schema param.2 {}).1 = none := fault?_of_mem_said hfault hsaid
      exact Outcome.error?_eq_none_iff.mp ((Selection.error?_parse schema param.2 names).trans hvalid)
    rw [hnames, hp, Plan.chosen, hs, List.getLast?_concat]
    exact Selection.properties_of_parse hp

namespace Plan

variable {schema : Schema} {config : Config}

/-! ## The stages -/

/-- Configured properties come behind the others, those that are there or unknown left out. -/
theorem addImplicit_eq : ∀ implicitSelect properties : List Text, addImplicit schema implicitSelect properties =
    properties ++ (implicitSelect.filter fun name => schema.hasProperty name && !properties.contains name).eraseDups
  | [], properties => (List.append_nil properties).symm
  | name :: rest, properties => by
    cases hname : schema.hasProperty name && !properties.contains name with
    | false =>
      have hstep : addImplicit schema (name :: rest) properties = addImplicit schema rest properties := by
        rw [addImplicit, List.foldl_cons, hname]
        rfl
      rw [hstep, addImplicit_eq, List.filter_cons_of_neg (by rw [hname]; exact Bool.false_ne_true)]
    | true =>
      have hstep : addImplicit schema (name :: rest) properties =
          addImplicit schema rest (properties ++ [name]) := by
        rw [addImplicit, List.foldl_cons, hname]
        rfl
      -- behind the name, what is missing is what was missing before except for the name itself
      have hrest : (rest.filter fun b => schema.hasProperty b && !(properties ++ [name]).contains b) =
          (rest.filter fun b => schema.hasProperty b && !properties.contains b).filter fun b => !b == name := by
        rw [List.filter_filter]
        refine List.filter_congr fun b _ => ?_
        have hcontains : (properties ++ [name]).contains b = (properties.contains b || b == name) := by
          rw [List.contains_append, List.contains_cons, List.contains_nil, Bool.or_false]
        rw [hcontains, Bool.not_or, ← Bool.and_assoc, Bool.and_comm (!b == name)]
      have hcons : ((name :: rest).filter fun b => schema.hasProperty b && !properties.contains b) =
          name :: rest.filter fun b => schema.hasProperty b && !properties.contains b := List.filter_cons_of_pos hname
      rw [hstep, addImplicit_eq, hrest, hcons, List.eraseDups_cons, List.append_assoc]
      rfl

section Stages

variable {selection : Selection} {properties : List Text}

/-- At most the number of the entity is put in front of the properties that are asked for. -/
theorem selectedProperties_arranged
    (h : selection.properties ++ added schema config selection.properties = properties) :
    selectedProperties schema config selection = properties ∨
      idProperty ∉ properties ∧ selectedProperties schema config selection = idProperty :: properties := by
  have himplicit : addImplicit schema config.implicitSelect selection.properties = properties :=
    (addImplicit_eq _ _).trans h
  unfold selectedProperties
  rw [himplicit]
  dsimp only
  split
  · next hfront =>
    rw [Bool.and_eq_true, Bool.not_eq_true', Bool.eq_false_iff, ne_eq, List.contains_iff_mem] at hfront
    exact Or.inr ⟨hfront.2, rfl⟩
  · exact Or.inl rfl

/-- The number of the entity is there where rows are attached by it, or nothing is left. -/
theorem id_mem_selectedProperties
    (h : selection.properties ++ added schema config selection.properties = properties)
    (hid : properties = [] ∨ selection.metadata ≠ [] ∨ selection.subSelects ≠ [] ∨ idProperty ∈ properties) :
    idProperty ∈ selectedProperties schema config selection := by
  have himplicit : addImplicit schema config.implicitSelect selection.properties = properties :=
    (addImplicit_eq _ _).trans h
  unfold selectedProperties
  rw [himplicit]
  by_cases hmem : idProperty ∈ properties
  · dsimp only
    split
    · exact List.mem_cons_self
    · exact hmem
  · have hneeds : properties = [] ∨ selection.metadata ≠ [] ∨ selection.subSelects ≠ [] := by tauto
    have hfront : ((properties.isEmpty || !selection.metadata.isEmpty || !selection.subSelects.isEmpty) &&
        !properties.contains idProperty) = true := by simpa [hmem, or_assoc] using hneeds
    dsimp only
    rw [if_pos hfront]
    exact List.mem_cons_self

end Stages

/-! ## The properties of built plans -/

/-- The properties are complete and without repetition, and in the order in which they are asked for. -/
structure ReadsProperties (schema : Schema) (config : Config) (params : List (Text × Text)) (p : Plan) : Prop where
  nonempty : p.properties ≠ []
  nodup : p.properties.Nodup
  id_mem : p.metadata ≠ [] ∨ p.subSelects ≠ [] ∨ Settings.said [.select] params = [] → idProperty ∈ p.properties
  chosen_mem : ∀ name ∈ chosen schema params, name ∈ p.properties
  implicit_mem : ∀ name ∈ config.implicitSelect, schema.hasProperty name → name ∈ p.properties
  mem_only : ∀ name ∈ p.properties, name ∈ chosen schema params ∨
    (name ∈ config.implicitSelect ∧ schema.hasProperty name) ∨ name = idProperty
  arranged : p.properties = asked schema config params ∨
    idProperty ∉ asked schema config params ∧ p.properties = idProperty :: asked schema config params

/-- All of it follows from the arrangement, and from when the number of the entity is there. -/
theorem ReadsProperties.of_arranged {params : List (Text × Text)} {p : Plan}
    (harranged : p.properties = asked schema config params ∨
      idProperty ∉ asked schema config params ∧ p.properties = idProperty :: asked schema config params)
    (hid : asked schema config params = [] ∨ p.metadata ≠ [] ∨ p.subSelects ≠ [] ∨ Settings.said [.select] params = [] →
      idProperty ∈ p.properties) : p.ReadsProperties schema config params := by
  have hasked : ∀ name ∈ asked schema config params, name ∈ p.properties := fun name hn => by
    rcases harranged with h | ⟨-, h⟩
    · exact h ▸ hn
    · exact h ▸ List.mem_cons_of_mem _ hn
  refine ⟨fun he => ?_, ?_, fun h => hid (Or.inr h), fun name hn => hasked name (mem_asked_iff.mpr (Or.inl hn)),
    fun name hn hp => hasked name (mem_asked_iff.mpr (Or.inr ⟨hn, hp⟩)), fun name hn => ?_, harranged⟩
  · have hnone : asked schema config params = [] :=
      List.eq_nil_iff_forall_not_mem.mpr fun name hn => absurd (he ▸ hasked name hn) List.not_mem_nil
    exact absurd (he ▸ hid (Or.inl hnone)) List.not_mem_nil
  · rcases harranged with h | ⟨hn, h⟩
    · exact h ▸ nodup_asked params
    · exact h ▸ List.nodup_cons.mpr ⟨hn, nodup_asked params⟩
  · rcases harranged with h | ⟨-, h⟩
    · exact (mem_asked_iff.mp (h ▸ hn)).imp_right Or.inl
    · rcases List.mem_cons.mp (h ▸ hn) with hn | hn
      · exact Or.inr (Or.inr hn)
      · exact (mem_asked_iff.mp hn).imp_right Or.inl

/-- **The properties of every plan are complete and without repetition.** -/
theorem build_properties {registry : Registry} {kind : Text} {resolver : Resolver} {request : Request} {plan : Plan}
    (h : build registry kind resolver config request = .ok plan) : ∃ schema, registry.get? kind = some schema ∧
      plan.ReadsProperties schema config request.entries := by
  obtain ⟨schema, settings, clauses, hschema, hsettings, -, rfl⟩ := build_eq_ok_iff.mp h
  have hasked : (settings.selection?.getD defaultSelection).properties ++
      added schema config (settings.selection?.getD defaultSelection).properties =
        asked schema config request.entries := by
    rw [Settings.properties_selection hsettings, asked]
  refine ⟨schema, hschema, .of_arranged (selectedProperties_arranged hasked) fun hid => ?_⟩
  refine id_mem_selectedProperties hasked (hid.imp id (Or.imp id (Or.imp id fun hunsaid => ?_)))
  rw [mem_asked_iff, chosen, hunsaid]
  exact Or.inl List.mem_cons_self

/-- The later one of two selections counts. What it selects is attached by the number of the entity, which is put in
front; of the configured properties, one is selected and one unknown. -/
theorem build_properties_twice : ∃ schema plan, agents.get? "agent" = some schema ∧
    build agents "agent" .anonymous { implicitSelect := ["name", "none", "name"] }
      (.ofList [("@SELECT", "id,owner.name"), ("name", "EQ(1)"), ("@select", "site,name")]) = .ok plan ∧
    plan.properties = ["id", "name"] ∧ plan.properties.Nodup := by
  have hproperties : (build agents "agent" .anonymous { implicitSelect := ["name", "none", "name"] }
      (.ofList [("@SELECT", "id,owner.name"), ("name", "EQ(1)"), ("@select", "site,name")])).map Plan.properties =
        .ok ["id", "name"] := by decide +kernel
  obtain ⟨plan, hb, hp⟩ := Outcome.map_eq_ok_iff.mp hproperties
  obtain ⟨schema, hschema, hreads⟩ := build_properties hb
  exact ⟨schema, plan, hschema, hb, hp, hreads.nodup⟩

end Plan

end FilterPlan
