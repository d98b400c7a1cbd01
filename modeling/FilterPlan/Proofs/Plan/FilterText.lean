import FilterPlan.Plan.Render
import FilterPlan.Proofs.Plan.Origins
import FilterPlan.Proofs.Predicate.Unambiguous

/-!
# The conditions of a plan can be read back

Parameters and aliases have names that are generated. If properties and relations have identifiers for names too, all
predicates of a plan are legible (`build_legible`), and so the text behind `WHERE` determines them: two plans for one
kind of entities have the same text exactly if they have the same conditions (`filterText_eq_iff`).
-/

namespace FilterPlan

open ParamTable
open Text (IsName Stops isNameChar)

/-! ## Names in predicates -/

theorem ParamTable.isName_nameAt (n : Nat) : IsName (nameAt n) :=
  Text.IsName.append (by decide : IsName "v") (Text.isName_ofNat n)

namespace Filter

variable {root : Text} {column : Column}

theorem legible_numberedComparison {op : Operator} (hc : column.Legible root) (negated : Bool) (count n : Nat) :
    (numberedComparison column op negated count n).Legible root := by
  cases op with
  | eq | gt | gte | lt | lte => exact .compare hc _ (isName_nameAt n)
  | like | ilike => exact .like hc negated _ (isName_nameAt n)
  | oneOf =>
    refine .oneOf hc negated fun name h => ?_
    obtain ⟨i, -, -, rfl⟩ := mem_namesFrom.mp h
    exact isName_nameAt i
  | between => exact .between hc negated (isName_nameAt n) (isName_nameAt _)
  | null => exact .isNull hc negated
  | near => exact .near hc negated (isName_nameAt n) (isName_nameAt _) (isName_nameAt _)

theorem legible_of_mem_numberedAll {p : Predicate} : ∀ {children : List Filter},
    (∀ c ∈ children, ∀ n, (c.numbered column n).Legible root) →
    ∀ {n}, p ∈ numberedAll column children n → p.Legible root
  | f :: rest, h, n, hp => by
    rw [numberedAll] at hp
    rcases List.mem_cons.mp hp with rfl | hp
    · exact h f List.mem_cons_self n
    · exact legible_of_mem_numberedAll (fun c hc => h c (List.mem_cons_of_mem f hc)) hp

/-- The predicate of a filter is legible if its column is. -/
theorem legible_numbered {f : Filter} (h : f.WellFormed) (hc : column.Legible root) :
    ∀ n, (f.numbered column n).Legible root := by
  induction h with
  | comparison => exact legible_numberedComparison hc _ _
  | @group op negated children hne _ ih =>
    intro n
    rw [numbered]
    refine .group op (fun hnil => hne ?_) fun p hp => legible_of_mem_numberedAll ih hp
    cases children with
    | nil => rfl
    | cons => cases hnil

end Filter

/-! ## Names in columns -/

/-- Properties and relations have identifiers for names. -/
structure Schema.HasIdentifiers (s : Schema) : Prop where
  properties : ∀ name ∈ s.properties, name.isIdentifier
  relations : ∀ name ∈ s.relations.keys, name.isIdentifier

instance (s : Schema) : Decidable s.HasIdentifiers :=
  decidable_of_iff ((∀ name ∈ s.properties, name.isIdentifier) ∧ ∀ name ∈ s.relations.keys, name.isIdentifier)
    ⟨fun h => ⟨h.1, h.2⟩, fun h => ⟨h.properties, h.relations⟩⟩

theorem Schema.mem_keys_of_isOwningRelation {s : Schema} {name : Text} (h : s.isOwningRelation name) :
    name ∈ s.relations.keys := by
  unfold isOwningRelation at h
  by_contra hmem
  rw [Dict.get?_eq_none_iff.mpr hmem] at h
  cases h

theorem Column.IsKnown.isName {schema : Schema} {joins : List Join} {c : Column} (hs : schema.HasIdentifiers)
    (h : c.IsKnown schema joins) : IsName c.name := by
  cases h with
  | owningRelation h =>
    exact Text.isName_of_isIdentifier (hs.relations _ (Schema.mem_keys_of_isOwningRelation h))
  | property h => exact Text.isName_of_isIdentifier (hs.properties _ (of_decide_eq_true h))
  | entityType => exact (by decide : IsName "_type")
  | ownerUser => exact (by decide : IsName "user")
  | metadataValue => exact (by decide : IsName "value")
  | term => exact (by decide : IsName "term")

namespace Clause

variable {schema : Schema} {cs : List (Clause schema)} {n k : Nat}

theorem isName_of_mem_aliases {a : Text} (h : a ∈ aliases n k cs) : IsName a := by
  rcases alias_cases h with ⟨rfl, -⟩ | ⟨s, hs, i, -, -, rfl⟩
  · exact (by decide : IsName ownerAlias)
  · exact Text.IsName.append ((by decide : ∀ s ∈ Field.aliasStems, IsName s) s hs) (Text.isName_ofNat i)

/-- The predicates of clauses are legible in the query itself. -/
theorem legible_predicate (hs : schema.HasIdentifiers) {b : Block} (hb : b ∈ blocks n k cs) :
    b.predicate.Legible rootAlias := by
  have hcolumn : ∀ column ∈ b.predicate.columns, column.Legible rootAlias := fun column hc => {
    via := fun a ha => by
      have hmem := readsThrough_aliases hb hc a ha
      exact ⟨isName_of_mem_aliases hmem, alias_ne_of_isStem hmem (by decide) (by decide)⟩
    name := (isKnown_columns hb hc).isName hs }
  obtain ⟨c, -, m, j, rfl⟩ := exists_of_mem_blocks hb
  exact Filter.legible_numbered c.wellFormed (hcolumn _ ((Filter.mem_columns_numbered c.wellFormed j).mpr rfl)) j

end Clause

/-! ## Plans -/

namespace Plan

variable {registry registry' : Registry} {kind kind' : Text} {resolver resolver' : Resolver} {config config' : Config}
  {request request' : Request} {schema : Schema} {p q : Plan}

/-- The predicates of a plan are legible. -/
theorem build_legible (hs : schema.HasIdentifiers) (hk : registry.get? kind = some schema)
    (h : build registry kind resolver config request = .ok p) :
    ∀ predicate ∈ p.predicates, predicate.Legible rootAlias := by
  obtain ⟨schema', settings, clauses, hk', -, hc, rfl⟩ := build_eq_ok_iff.mp h
  obtain rfl : schema = schema' := Option.some.inj (hk.symm.trans hk')
  obtain ⟨cs, -, rfl⟩ := Clauses.exists_laid_of_ofParams hc
  intro predicate hp
  obtain ⟨b, hb, rfl⟩ := List.mem_map.mp hp
  exact Clause.legible_predicate hs hb

theorem filterText?_eq (p : Plan) (root : Text) : p.filterText? root =
    if p.predicates = [] then none
    else some (Text.joinWith (' ' :: (p.combinator.name ++ "\n\t")) (p.predicates.map (Predicate.render root))) := by
  simp only [filterText?, Predicate.renderAll_eq_map, List.isEmpty_iff]
  rfl

/-- The text depends on the predicates up to the connectives of groups with a single member, and on how several of them
combine. -/
theorem filterText?_congr (root : Text)
    (h : p.predicates.map Predicate.normalize = q.predicates.map Predicate.normalize)
    (hop : 1 < p.predicates.length → p.combinator = q.combinator) : p.filterText? root = q.filterText? root := by
  have hnil : p.predicates = [] ↔ q.predicates = [] := by
    rw [← List.map_eq_nil_iff (f := Predicate.normalize), h, List.map_eq_nil_iff]
  have htexts : p.predicates.map (Predicate.render root) = q.predicates.map (Predicate.render root) := by
    have := congrArg (List.map (Predicate.render root)) h
    simpa only [List.map_map, Function.comp_def, Predicate.render_normalize] using this
  simp only [filterText?_eq, hnil, htexts]
  by_cases hmany : 1 < p.predicates.length
  · rw [hop hmany]
  · -- a single predicate shows nothing of the connective
    rw [← List.length_map (Predicate.render root), htexts, List.length_map] at hmany
    rcases hq : q.predicates with _ | ⟨a, _ | ⟨b, rest⟩⟩
    · rfl
    · rfl
    · rw [hq] at hmany
      exact absurd (Nat.succ_lt_succ (Nat.succ_pos _)) hmany

/-- Legible predicates are determined by the text, and so is how several of them combine. -/
theorem filterText?_inj {root : Text} (hroot : IsName root) (hp : ∀ predicate ∈ p.predicates, predicate.Legible root)
    (hq : ∀ predicate ∈ q.predicates, predicate.Legible root) (h : p.filterText? root = q.filterText? root) :
    p.predicates.map Predicate.normalize = q.predicates.map Predicate.normalize ∧
      (1 < p.predicates.length → p.combinator = q.combinator) := by
  rw [filterText?_eq, filterText?_eq] at h
  by_cases hpn : p.predicates = []
  · rw [if_pos hpn] at h
    have hqn : q.predicates = [] := by
      by_contra hqn
      rw [if_neg hqn] at h
      cases h
    rw [hpn, hqn]
    exact ⟨rfl, fun hlt => absurd hlt (Nat.not_lt_zero 1)⟩
  · rw [if_neg hpn] at h
    by_cases hqn : q.predicates = []
    · rw [if_pos hqn] at h
      cases h
    · rw [if_neg hqn] at h
      have htext := congrArg (· ++ ([] : Text)) (Option.some.inj h)
      obtain ⟨hsame, hop, -⟩ := Text.joinWith_append_inj (R := fun p q => p.normalize = q.normalize) _ _ rfl
        (fun _ _ h => Connective.separator_append_inj h) (Text.stops_nil isNameChar) (Text.stops_nil isNameChar)
        nofun nofun hpn hqn
        (fun a ha b hb _ _ hr hs => Predicate.render_append_inj hroot (hp a ha) (hq b hb) hr hs) htext
      exact ⟨Predicate.map_normalize_of_forall₂ hsame, fun hmany => (Connective.name_append_inj (hop hmany)).1⟩

/-- **Different conditions read differently**: with identifiers for names, two plans for the same kind have the same
text behind `WHERE` exactly if they have the same predicates, up to the connectives of groups with a single member, and
combine them in the same way. -/
theorem filterText_eq_iff (hs : schema.HasIdentifiers) (hk : registry.get? kind = some schema)
    (hk' : registry'.get? kind' = some schema) (hp : build registry kind resolver config request = .ok p)
    (hq : build registry' kind' resolver' config' request' = .ok q) :
    p.filterText? rootAlias = q.filterText? rootAlias ↔
      p.predicates.map Predicate.normalize = q.predicates.map Predicate.normalize ∧
        (1 < p.predicates.length → p.combinator = q.combinator) :=
  ⟨filterText?_inj (by decide) (build_legible hs hk hp) (build_legible hs hk' hq),
    fun h => filterText?_congr rootAlias h.1 h.2⟩

/-- A range, as the single member of a group, and a group of two. -/
def rangesRequest (group : Text) : Request :=
  .ofList [("id", group ++ "(BET(1,2))"), ("name", "AND(LIKE(a),NULL())")]

theorem filterText_eq_iff_ranges : ∃ p q, build agents "agent" .anonymous {} (rangesRequest "AND") = .ok p ∧
    build agents "agent" .anonymous {} (rangesRequest "OR") = .ok q ∧
    p.filterText? rootAlias = q.filterText? rootAlias ∧
    p.predicates.map Predicate.normalize = q.predicates.map Predicate.normalize := by
  have htext : ∀ group ∈ ["AND", "OR"], (build agents "agent" .anonymous {} (rangesRequest group)).map
      (fun plan => plan.filterText? rootAlias) = .ok (some ("(e.id BETWEEN :v0 AND :v1) AND\n\t" ++
        "(unaccent(e.name) LIKE unaccent(:v2) AND (e.name IS NULL))")) := by decide +kernel
  obtain ⟨p, hp, htp⟩ := Outcome.map_eq_ok_iff.mp (htext "AND" (by decide))
  obtain ⟨q, hq, htq⟩ := Outcome.map_eq_ok_iff.mp (htext "OR" (by decide))
  have hk : agents.get? "agent" = some ((agents.get? "agent").get rfl) := (Option.some_get _).symm
  have hsame : p.filterText? rootAlias = q.filterText? rootAlias := htp.trans htq.symm
  exact ⟨p, q, hp, hq, hsame, ((filterText_eq_iff (by decide +kernel) hk hk hp hq).mp hsame).1⟩

end Plan

end FilterPlan
