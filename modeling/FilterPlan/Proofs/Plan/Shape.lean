import FilterPlan.Plan.Render
import FilterPlan.Proofs.Plan.Build
import FilterPlan.Proofs.Plan.Clauses

/-!
# The shape of a request

Two requests have the same shape if they have the same keys, the same directives, and filters that differ in their
operands only. Their plans differ in the values of their parameters only, whatever references stand for
(`build_of_sameShape`). So no text that a user puts into an operand, and nothing about who the user is, reaches the text
of a query.
-/

namespace FilterPlan

/-! ## Filters that differ in their operands -/

/-- Two filters of a request under the same key, which differ in their operands at most. Where the key has no column
their values do not count. -/
def Clauses.SameFilter (schema : Schema) (p q : Text × Text) : Prop :=
  p.1 = q.1 ∧ (Field.reaches schema p.1 → ∃ f g, filterOf p = .ok f ∧ filterOf q = .ok g ∧ f.erase = g.erase)

/-- Two parameters of a request under the same key: the same directive, or filters that differ in their operands. -/
def SameShape (schema : Schema) (p q : Text × Text) : Prop :=
  p.1 = q.1 ∧ (Clauses.isFilter p = false → p.2 = q.2) ∧
    (Clauses.isFilter p → Field.reaches schema p.1 →
      ∃ f g, Clauses.filterOf p = .ok f ∧ Clauses.filterOf q = .ok g ∧ f.erase = g.erase)

namespace Clauses

variable {schema : Schema} {config : Config}

/-- The same clauses but for the values of the parameters, of which there are equally many. -/
structure SameButValues (c c' : Clauses) : Prop where
  joins : c.joins = c'.joins
  predicates : c.predicates = c'.predicates
  names : c.names = c'.names
  size : c.params.size = c'.params.size

theorem SameButValues.push {c c' : Clauses} (h : SameButValues c c') {f g : Filter} (hfg : f.erase = g.erase)
    (resolver resolver' : Resolver) (field : Field) (column : Column) (names : Names) :
    SameButValues (c.push resolver field column f names) (c'.push resolver' field column g names) where
  joins := by simp only [Clauses.push, h.joins]
  predicates := by simp only [Clauses.push, h.predicates, h.size, Filter.numbered_eq_of_erase hfg]
  names := rfl
  size := by simp only [Clauses.push, Filter.size_bound, h.size, Filter.length_literals_eq hfg]

theorem add_alike (resolver resolver' : Resolver) {c c' : Clauses} (h : SameButValues c c') {p q : Text × Text}
    (hpq : SameFilter schema p q) :
    Outcome.Alike SameButValues (add schema resolver config c p) (add schema resolver' config c' q) := by
  obtain ⟨key, value⟩ := p
  obtain ⟨key', value'⟩ := q
  obtain ⟨hkey, hfilter⟩ := hpq
  obtain rfl : key = key' := hkey
  have hcount : c.predicates.length = c'.predicates.length := by rw [h.predicates]
  unfold add
  simp only [← h.names, ← hcount]
  cases hr : Field.resolve schema key c.names with
  | error e => exact .error e
  | ok found =>
    obtain ⟨field, names⟩ := found
    have hreach := Field.reaches_of_resolve hr
    cases hc : field.column? with
    | none =>
      simp only [hc]
      exact .ok h
    | some column =>
      obtain ⟨f, g, hf, hg, hfg⟩ := hfilter (by rw [hreach, hc]; rfl)
      simp only [hc]
      split
      · exact .error _
      · have hf' : Filter.parse key value = .ok f := hf
        have hg' : Filter.parse key value' = .ok g := hg
        simp only [hf', hg', Filter.compile_eq _ _ (Filter.wellFormed_of_parse hf'),
          Filter.compile_eq _ _ (Filter.wellFormed_of_parse hg')]
        exact .ok (h.push hfg resolver resolver' field column names)

theorem forall₂_sameFilter {params params' : List (Text × Text)} (h : List.Forall₂ (SameShape schema) params params') :
    List.Forall₂ (SameFilter schema) (params.filter isFilter) (params'.filter isFilter) := by
  have hkeys : ∀ p q, SameShape schema p q → (isFilter p ↔ isFilter q) := fun p q hpq => by
    unfold isFilter
    rw [hpq.1]
  refine Outcome.forall₂_of_mem (List.rel_filter (fun p q hpq => hkeys p q hpq) h) fun p hp q _ hpq => ?_
  exact ⟨hpq.1, hpq.2.2 (List.mem_filter.mp hp).2⟩

theorem ofParams_alike (resolver resolver' : Resolver) (names : Names) {params params' : List (Text × Text)}
    (h : List.Forall₂ (SameShape schema) params params') :
    Outcome.Alike SameButValues (ofParams schema resolver config names params)
      (ofParams schema resolver' config names params') := by
  unfold ofParams
  exact Outcome.Alike.foldlM (R := SameButValues) (S := SameFilter schema)
    (fun _ _ _ _ hc hpq => add_alike resolver resolver' hc hpq) (forall₂_sameFilter h) ⟨rfl, rfl, rfl, rfl⟩

end Clauses

/-! ## Settings and plans -/

theorem Settings.ofParams_eq_of_sameShape {schema : Schema} {config : Config} {params params' : List (Text × Text)}
    (h : List.Forall₂ (SameShape schema) params params') :
    ofParams schema config params = ofParams schema config params' := by
  refine Outcome.alike_eq_iff.mp (Outcome.Alike.foldlM ?_ h rfl)
  rintro s _ ⟨key, value⟩ ⟨key', value'⟩ rfl ⟨hkey, hdirective, -⟩
  obtain rfl : key = key' := hkey
  apply Outcome.alike_eq_iff.mpr
  unfold step
  cases hd : Directive.ofKey? key with
  | none => rfl
  | some directive =>
    have hf : Clauses.isFilter (key, value) = false := by
      rw [Clauses.isFilter, hd]
      rfl
    obtain rfl : value = value' := hdirective hf
    rfl

namespace Plan

/-- The same plan but for the values of the parameters: they have the same names, and all query text is the same. -/
structure SameButValues (p q : Plan) : Prop where
  fields : { p with params := q.params } = q
  names : p.params.entries.map Prod.fst = q.params.entries.map Prod.fst
  find : p.findText = q.findText
  count : p.countText = q.countText
  metadata : p.metadataText? = q.metadataText?
  subquery : ∀ property, p.subqueryText property = q.subqueryText property
  subSelect : ∀ token, p.subSelectText? token = q.subSelectText? token

/-- No query text depends on the values of the parameters. -/
theorem sameButValues_of_fields {p q : Plan} (h : { p with params := q.params } = q)
    (hsize : p.params.size = q.params.size) : SameButValues p q where
  fields := h
  names := by rw [ParamTable.map_fst_entries, ParamTable.map_fst_entries, hsize]
  find := by
    rw [← h]
    rfl
  count := by
    rw [← h]
    rfl
  metadata := by
    rw [← h]
    rfl
  subquery := by
    rw [← h]
    exact fun _ => rfl
  subSelect := by
    rw [← h]
    exact fun _ => rfl

theorem assemble_sameButValues {c c' : Clauses} (h : Clauses.SameButValues c c') (schema : Schema) (config : Config)
    (settings : Settings) :
    SameButValues (assemble schema config settings c) (assemble schema config settings c') := by
  refine sameButValues_of_fields ?_ h.size
  simp only [assemble, h.joins, h.predicates, h.names]

/-- **Query text depends on the shape of a request only.** Two requests of the same shape, made by anyone, end in the
same error, or they have plans that differ in the values of their parameters at most, and whose texts are the same. -/
theorem build_of_sameShape {registry : Registry} {kind : Text} {config : Config} (resolver resolver' : Resolver)
    {request request' : Request} (h : ∀ schema, registry.get? kind = some schema →
      List.Forall₂ (SameShape schema) request.entries request'.entries) :
    Outcome.Alike SameButValues (build registry kind resolver config request)
      (build registry kind resolver' config request') := by
  unfold build
  cases hk : registry.get? kind with
  | none => exact .error _
  | some schema =>
    have hshape := h schema hk
    simp only [ofSchema, Settings.ofParams_eq_of_sameShape hshape]
    cases Settings.ofParams schema config request'.entries with
    | error e => exact .error e
    | ok settings =>
      exact (Clauses.ofParams_alike resolver resolver' settings.names hshape).bind fun c c' hc =>
        .ok (assemble_sameButValues hc schema config settings)

/-- A request with the given operands, and any value under a key without a column. -/
def shapedRequest (first second ignored : Text) : Request :=
  .ofList [("name", "OR(!EQ(" ++ first ++ "),IN(a," ++ second ++ "))"), ("_ts", ignored), ("@limit", "5")]

/-- The filter of such a request. -/
def shapedFilter (first second : Literal) : Filter :=
  .group .or false [.comparison .eq true [first], .comparison .oneOf false [.scalar "a", second]]

/-- What references stand for where a user is logged in. -/
def loggedIn : Resolver :=
  { Resolver.anonymous with user? := some ⟨"user", 7⟩ }

theorem build_of_sameShape_operands : ∃ plan plan',
    build agents "agent" .anonymous {} (shapedRequest "@me" "b" "(") = .ok plan ∧
    build agents "agent" loggedIn {} (shapedRequest "1' OR 1=1" "@me" "") = .ok plan' ∧ SameButValues plan plan' := by
  have hts : (agents.get? "agent").map (Field.reaches · "_ts") = some false := by decide +kernel
  have hsize : (build agents "agent" .anonymous {} (shapedRequest "@me" "b" "(")).map (fun plan => plan.params.size) =
      .ok 3 := by decide +kernel
  have hshape : ∀ schema, agents.get? "agent" = some schema → List.Forall₂ (SameShape schema)
      (shapedRequest "@me" "b" "(").entries (shapedRequest "1' OR 1=1" "@me" "").entries := by
    intro schema hschema
    rw [hschema] at hts
    have hreach : Field.reaches schema "_ts" = false := Option.some.inj hts
    refine .cons ⟨rfl, nofun, fun _ _ => ?_⟩ (.cons ⟨rfl, nofun, fun _ h => ?_⟩ (.cons ⟨rfl, fun _ => rfl, nofun⟩ .nil))
    · exact ⟨shapedFilter .currentUser (.scalar "b"), shapedFilter (.scalar "1' OR 1=1") .currentUser, rfl, rfl, rfl⟩
    · exact absurd (hreach.symm.trans h) Bool.false_ne_true
  obtain ⟨plan, hb, -⟩ := Outcome.map_eq_ok_iff.mp hsize
  have halike : Outcome.Alike SameButValues (build agents "agent" .anonymous {} (shapedRequest "@me" "b" "("))
      (build agents "agent" loggedIn {} (shapedRequest "1' OR 1=1" "@me" "")) :=
    build_of_sameShape .anonymous loggedIn hshape
  rw [hb] at halike
  obtain ⟨plan', hb', hsame⟩ := halike.exists_right
  exact ⟨plan, plan', hb, hb', hsame⟩

end Plan

end FilterPlan
