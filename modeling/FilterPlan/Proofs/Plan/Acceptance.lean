import FilterPlan.Proofs.Plan.Build
import FilterPlan.Proofs.Plan.Layout
import FilterPlan.Proofs.Plan.Settings

/-!
# Which requests have a plan

A request has a plan exactly where its kind has a schema, no directive has a fault, and its filters are admitted: every
key is known, those with a column are not too many, and their filters can be read. If not, the first directive with a
fault decides about the error, and if there is none the first filter that offends (`build_outcome`).
-/

namespace FilterPlan

/-- The request with only some of its parameters. -/
def Request.keep (r : Request) (keep : Text × Text → Bool) : Request where
  params :=
    { entries := r.entries.filter keep
      nodup_keys := r.params.nodup_keys.sublist (List.filter_sublist.map Prod.fst) }

namespace Clauses

variable {schema : Schema} {resolver : Resolver} {config : Config} {names : Names}

/-- The filters whose keys have a column. -/
def withColumn (schema : Schema) (filters : List (Text × Text)) : List (Text × Text) :=
  filters.filter fun p => Field.reaches schema p.1

/-- Every filter has a key that addresses something, those with a column are not too many and can be read. -/
structure Admits (schema : Schema) (config : Config) (filters : List (Text × Text)) : Prop where
  known : ∀ p ∈ filters, (Field.ofKey? schema p.1).isSome
  count : (withColumn schema filters).length ≤ config.maxFilters
  readable : ∀ p ∈ withColumn schema filters, ∃ f, filterOf p = .ok f

/-- What is wrong with a filter that stands behind others: its key addresses nothing; or its key has a column, and there
are as many filters with a column before it as are allowed; or there are fewer, and the filter cannot be read. -/
inductive Offends (schema : Schema) (config : Config) (before : List (Text × Text)) (p : Text × Text) :
    QueryError → Prop
  | unknown (h : Field.ofKey? schema p.1 = none) : Offends schema config before p (.unknownField p.1)
  | tooMany (h : Field.reaches schema p.1) (hcount : config.maxFilters ≤ (withColumn schema before).length) :
      Offends schema config before p (.invalidArgument p.1 (.tooManyFilters config.maxFilters))
  | unreadable {e : QueryError} (h : Field.reaches schema p.1)
      (hcount : (withColumn schema before).length < config.maxFilters) (hread : filterOf p = .error e) :
      Offends schema config before p e

theorem withColumn_append (l l' : List (Text × Text)) :
    withColumn schema (l ++ l') = withColumn schema l ++ withColumn schema l' :=
  List.filter_append ..

@[simp] theorem withColumn_nil (schema : Schema) : withColumn schema [] = [] := rfl

theorem withColumn_cons (p : Text × Text) (l : List (Text × Text)) :
    withColumn schema (p :: l) = if Field.reaches schema p.1 then p :: withColumn schema l else withColumn schema l :=
  List.filter_cons

/-! ## One filter -/

theorem add_of_unknown {p : Text × Text} (h : Field.ofKey? schema p.1 = none) (clauses : Clauses) :
    add schema resolver config clauses p = .error (.unknownField p.1) := by
  unfold add
  rw [Field.resolve_eq, h]

theorem add_of_ignored {p : Text × Text} {field : Field} (h : Field.ofKey? schema p.1 = some field)
    (hc : field.column? = none) (clauses : Clauses) : add schema resolver config clauses p = .ok clauses := by
  have hn : (field.withNumber clauses.names.aliases).column? = none := by
    rw [← Option.not_isSome_iff_eq_none, Field.isSome_column?_withNumber, hc]
    exact Bool.false_ne_true
  unfold add
  simp only [Field.resolve_eq, h, hn]

/-- A filter whose key has a column is counted, and then read. -/
theorem add_of_reaches {p : Text × Text} (h : Field.reaches schema p.1) (clauses : Clauses) :
    Outcome.error? (add schema resolver config clauses p) =
      if clauses.predicates.length = config.maxFilters then
        some (.invalidArgument p.1 (.tooManyFilters config.maxFilters))
      else Outcome.error? (filterOf p) := by
  obtain ⟨field, hk, hc⟩ := Field.reaches_iff.mp h
  rw [← Field.isSome_column?_withNumber field clauses.names.aliases] at hc
  obtain ⟨column, hc⟩ := Option.isSome_iff_exists.mp hc
  unfold add
  simp only [Field.resolve_eq, hk, hc]
  split
  · rfl
  · have hread : filterOf p = Filter.parse p.1 p.2 := rfl
    rw [hread]
    cases Filter.parse p.1 p.2 <;> rfl

/-- The step at a filter fails where the filter offends. -/
theorem add_eq_error_iff {clauses : Clauses} {before : List (Text × Text)} {p : Text × Text} {e : QueryError}
    (hlength : clauses.predicates.length = (withColumn schema before).length)
    (hcount : (withColumn schema before).length ≤ config.maxFilters) :
    add schema resolver config clauses p = .error e ↔ Offends schema config before p e := by
  constructor
  · intro h
    by_cases hr : Field.reaches schema p.1
    · rw [← Outcome.error?_eq_some_iff, add_of_reaches hr, hlength] at h
      split at h
      · next hmax =>
        cases h
        exact .tooMany hr (Nat.le_of_eq hmax.symm)
      · next hmax => exact .unreadable hr (by omega) (Outcome.error?_eq_some_iff.mp h)
    · cases hk : Field.ofKey? schema p.1 with
      | none =>
        rw [add_of_unknown hk] at h
        cases h
        exact .unknown hk
      | some field =>
        have hc : field.column? = none :=
          Option.not_isSome_iff_eq_none.mp fun hc => hr (Field.reaches_iff.mpr ⟨field, hk, hc⟩)
        rw [add_of_ignored hk hc] at h
        cases h
  · rintro (hk | ⟨hr, hmax⟩ | ⟨hr, hroom, hread⟩)
    · exact add_of_unknown hk clauses
    · rw [← Outcome.error?_eq_some_iff, add_of_reaches hr, hlength, if_pos (by omega)]
    · rw [← Outcome.error?_eq_some_iff, add_of_reaches hr, hlength, if_neg (by omega), hread]
      rfl

/-- A filter that does not offend is admitted. -/
theorem Admits.concat {before : List (Text × Text)} {p : Text × Text} (h : Admits schema config before)
    (hp : ∀ e, ¬ Offends schema config before p e) : Admits schema config (before ++ [p]) := by
  have hknown : (Field.ofKey? schema p.1).isSome :=
    Option.isSome_iff_ne_none.mpr fun hk => hp _ (.unknown hk)
  have hroom : Field.reaches schema p.1 → (withColumn schema before).length < config.maxFilters :=
    fun hr => Nat.lt_of_not_le fun hcount => hp _ (.tooMany hr hcount)
  have hread : Field.reaches schema p.1 → ∃ f, filterOf p = .ok f := fun hr => by
    cases hf : filterOf p with
    | error e => exact absurd (.unreadable hr (hroom hr) hf) (hp e)
    | ok f => exact ⟨f, rfl⟩
  constructor
  · intro q hq
    rcases List.mem_append.mp hq with hq | hq
    · exact h.known q hq
    · exact List.mem_singleton.mp hq ▸ hknown
  · rw [withColumn_append, withColumn_cons, List.length_append]
    split
    · next hr => exact hroom hr
    · exact h.count
  · intro q hq
    rw [withColumn_append, withColumn_cons] at hq
    rcases List.mem_append.mp hq with hq | hq
    · exact h.readable q hq
    · split at hq
      · next hr => exact List.mem_singleton.mp hq ▸ hread hr
      · cases hq

/-- No filter of an admitted request offends. -/
theorem Admits.not_offends {before after : List (Text × Text)} {p : Text × Text} {e : QueryError}
    (h : Admits schema config (before ++ p :: after)) : ¬ Offends schema config before p e := by
  have hmem : Field.reaches schema p.1 → p ∈ withColumn schema (before ++ p :: after) := fun hr =>
    List.mem_filter.mpr ⟨List.mem_append_right before List.mem_cons_self, hr⟩
  rintro (hk | ⟨hr, hcount⟩ | ⟨hr, -, hread⟩)
  · have hknown := h.known p (List.mem_append_right before List.mem_cons_self)
    rw [hk] at hknown
    cases hknown
  · have hlength := h.count
    rw [withColumn_append, withColumn_cons, if_pos hr, List.length_append, List.length_cons] at hlength
    omega
  · obtain ⟨f, hf⟩ := h.readable p (hmem hr)
    rw [hread] at hf
    cases hf

/-- Whether filters are admitted does not depend on their order. -/
theorem Admits.of_perm {filters filters' : List (Text × Text)} (h : Admits schema config filters)
    (hperm : filters.Perm filters') : Admits schema config filters' where
  known := fun p hp => h.known p (hperm.mem_iff.mpr hp)
  count := (hperm.filter _).length_eq ▸ h.count
  readable := fun p hp => h.readable p ((hperm.filter _).mem_iff.mpr hp)

/-! ## All filters -/

/-- A run that has succeeded so far has admitted the filters met, and has one predicate for each of them with a column. -/
theorem admits_of_run {filters : List (Text × Text)} {clauses : Clauses}
    (h : filters.foldlM (add schema resolver config) { names := names } = .ok clauses) :
    Admits schema config filters ∧ clauses.predicates.length = (withColumn schema filters).length := by
  refine Outcome.foldlM_run (P := fun seen clauses =>
    Admits schema config seen ∧ clauses.predicates.length = (withColumn schema seen).length) ?_ filters [] ?_ h
  · rintro seen p clauses clauses' ⟨hadmits, hlength⟩ hadd
    refine ⟨hadmits.concat fun e he => ?_, ?_⟩
    · have hfails : add schema resolver config clauses p = .error e :=
        (add_eq_error_iff hlength hadmits.count).mpr he
      rw [hadd] at hfails
      cases hfails
    · rw [withColumn_append, withColumn_cons]
      rcases add_cases hadd with ⟨hr, rfl⟩ | ⟨field, column, names', filter, hr, -, -, -, -, rfl⟩
      · rw [hr, hlength]
        simp
      · rw [hr, push, List.length_append, hlength]
        simp
  · exact ⟨⟨fun _ h => absurd h List.not_mem_nil, Nat.zero_le _, fun _ h => absurd h List.not_mem_nil⟩, rfl⟩

/-- Where a run fails, the filters before have been admitted, and the next one offends. -/
theorem exists_offends_of_run {filters : List (Text × Text)} {e : QueryError}
    (h : filters.foldlM (add schema resolver config) { names := names } = .error e) :
    ∃ before p after, filters = before ++ p :: after ∧ Admits schema config before ∧
      Offends schema config before p e := by
  obtain ⟨before, p, after, clauses, hsplit, hrun, hadd⟩ := Outcome.foldlM_eq_error_iff.mp h
  obtain ⟨hadmits, hlength⟩ := admits_of_run hrun
  exact ⟨before, p, after, hsplit, hadmits, (add_eq_error_iff hlength hadmits.count).mp hadd⟩

/-- A run succeeds where the filters are admitted. -/
theorem run_ok_iff {filters : List (Text × Text)} :
    (∃ clauses, filters.foldlM (add schema resolver config) { names := names } = .ok clauses) ↔
      Admits schema config filters := by
  constructor
  · rintro ⟨clauses, h⟩
    exact (admits_of_run h).1
  · intro hadmits
    cases h : filters.foldlM (add schema resolver config) { names := names } with
    | ok clauses => exact ⟨clauses, rfl⟩
    | error e =>
      obtain ⟨before, p, after, rfl, -, hoffends⟩ := exists_offends_of_run h
      exact absurd hoffends hadmits.not_offends

/-- A run fails at the first filter that offends. -/
theorem run_eq_error_iff {filters : List (Text × Text)} {e : QueryError} :
    filters.foldlM (add schema resolver config) { names := names } = .error e ↔
      ∃ before p after, filters = before ++ p :: after ∧ Admits schema config before ∧
        Offends schema config before p e := by
  constructor
  · exact exists_offends_of_run
  · rintro ⟨before, p, after, hsplit, hadmits, hoffends⟩
    obtain ⟨clauses, hrun⟩ : ∃ clauses, before.foldlM (add schema resolver config) { names := names } = .ok clauses :=
      run_ok_iff.mpr hadmits
    have hadd : add schema resolver config clauses p = .error e :=
      (add_eq_error_iff (admits_of_run hrun).2 hadmits.count).mpr hoffends
    exact Outcome.foldlM_eq_error_iff.mpr ⟨before, p, after, clauses, hsplit, hrun, hadd⟩

/-- Whether a parameter is a filter that the query is not concerned with. -/
def isIgnored (schema : Schema) (p : Text × Text) : Bool :=
  isFilter p && Field.ofKey? schema p.1 = some .ignored

/-- The clauses do not depend on ignored parameters. -/
theorem ofParams_filter_ignored (params : List (Text × Text)) :
    ofParams schema resolver config names (params.filter (!isIgnored schema ·)) =
      ofParams schema resolver config names params := by
  unfold ofParams
  rw [List.filter_comm]
  refine Outcome.foldlM_filter (fun clauses p hp => ?_) (params.filter isFilter) _
  simp only [isIgnored, Bool.not_eq_false', Bool.and_eq_true, decide_eq_true_eq] at hp
  exact add_of_ignored hp.2 rfl clauses

end Clauses

/-! ## Requests -/

/-- A request that has a plan: no directive has a fault, and the filters are admitted. -/
structure Request.Sound (schema : Schema) (config : Config) (request : Request) : Prop where
  directives : ∀ p ∈ request.entries, Settings.fault? schema config p = none
  filters : Clauses.Admits schema config (request.entries.filter Clauses.isFilter)

/-- Whether a request has a plan does not depend on the order of its parameters. -/
theorem Request.Sound.of_perm {schema : Schema} {config : Config} {request request' : Request}
    (h : request.Sound schema config) (hperm : request.entries.Perm request'.entries) : request'.Sound schema config where
  directives := fun p hp => h.directives p (hperm.mem_iff.mpr hp)
  filters := h.filters.of_perm (hperm.filter _)

/-- The error of a request without a plan: that of the first directive with a fault, or if there is none, that of the
first filter that offends. -/
inductive Request.FailsWith (schema : Schema) (config : Config) (request : Request) (e : QueryError) : Prop
  | directive (h : request.entries.findSome? (Settings.fault? schema config) = some e)
  | filter {before after : List (Text × Text)} {p : Text × Text}
      (directives : ∀ q ∈ request.entries, Settings.fault? schema config q = none)
      (split : request.entries.filter Clauses.isFilter = before ++ p :: after)
      (admits : Clauses.Admits schema config before) (offends : Clauses.Offends schema config before p e)

namespace Plan

variable {schema : Schema} {resolver : Resolver} {config : Config} {request : Request}

theorem exists_ofSchema_iff : (∃ plan, ofSchema schema resolver config request = .ok plan) ↔
    request.Sound schema config := by
  constructor
  · rintro ⟨plan, h⟩
    obtain ⟨settings, clauses, hs, hc, -⟩ := ofSchema_eq_ok_iff.mp h
    exact ⟨(Settings.ofParams_eq_ok_iff.mp hs).1, Clauses.run_ok_iff.mp ⟨clauses, hc⟩⟩
  · rintro ⟨hdirectives, hfilters⟩
    have hs := Settings.ofParams_eq_ok_iff.mpr ⟨hdirectives, rfl⟩
    obtain ⟨clauses, hc⟩ := Clauses.run_ok_iff.mpr hfilters
    exact ⟨_, ofSchema_eq_ok_iff.mpr ⟨_, clauses, hs, hc, rfl⟩⟩

theorem ofSchema_eq_error_iff {e : QueryError} : ofSchema schema resolver config request = .error e ↔
    request.FailsWith schema config e := by
  unfold ofSchema
  rw [Outcome.bind_eq_error_iff]
  constructor
  · rintro (hs | ⟨settings, hs, h⟩)
    · exact .directive (Settings.ofParams_eq_error_iff.mp hs)
    · rcases Outcome.bind_eq_error_iff.mp h with hc | ⟨clauses, -, h⟩
      · obtain ⟨before, p, after, hsplit, hadmits, hoffends⟩ := Clauses.run_eq_error_iff.mp hc
        exact .filter (Settings.ofParams_eq_ok_iff.mp hs).1 hsplit hadmits hoffends
      · cases h
  · rintro (h | ⟨hdirectives, hsplit, hadmits, hoffends⟩)
    · exact Or.inl (Settings.ofParams_eq_error_iff.mpr h)
    · have hs := Settings.ofParams_eq_ok_iff.mpr ⟨hdirectives, rfl⟩
      have hc : Clauses.ofParams schema resolver config (Settings.ofLast schema config request.entries).names
          request.entries = .error e := Clauses.run_eq_error_iff.mpr ⟨_, _, _, hsplit, hadmits, hoffends⟩
      exact Or.inr ⟨_, hs, Outcome.bind_eq_error_iff.mpr (Or.inl hc)⟩

/-- Requests with the same parameters in different orders have both a plan or neither; the plans are related if the
schema relates them. -/
theorem build_agree_of_perm {registry : Registry} {kind : Text} {request' : Request} {R : Plan → Plan → Prop}
    (hperm : request.entries.Perm request'.entries)
    (h : ∀ schema plan plan', registry.get? kind = some schema → ofSchema schema resolver config request = .ok plan →
      ofSchema schema resolver config request' = .ok plan' → R plan plan') :
    Outcome.Agree R (build registry kind resolver config request) (build registry kind resolver config request') := by
  unfold build
  cases hk : registry.get? kind with
  | none => exact .error _ _
  | some schema =>
    refine .of_iff ?_ fun plan plan' => h schema plan plan' hk
    rw [exists_ofSchema_iff, exists_ofSchema_iff]
    exact ⟨fun hs => hs.of_perm hperm, fun hs => hs.of_perm hperm.symm⟩

/-- Parameters that the query is not concerned with can be left out. -/
theorem ofSchema_keep (schema : Schema) (resolver : Resolver) (config : Config) (request : Request) :
    ofSchema schema resolver config (request.keep (!Clauses.isIgnored schema ·)) =
      ofSchema schema resolver config request := by
  have hs : Settings.ofParams schema config (request.keep (!Clauses.isIgnored schema ·)).entries =
      Settings.ofParams schema config request.entries := by
    refine Settings.ofParams_filter (fun p hp => ?_) request.entries
    simp only [Clauses.isIgnored, Bool.not_eq_false', Bool.and_eq_true] at hp
    exact Option.isNone_iff_eq_none.mp hp.1
  have hc : ∀ names, Clauses.ofParams schema resolver config names
      (request.keep (!Clauses.isIgnored schema ·)).entries =
        Clauses.ofParams schema resolver config names request.entries := fun names =>
    Clauses.ofParams_filter_ignored request.entries
  simp only [ofSchema, hs, hc]

/-- **Which requests have a plan, and what becomes of the others.** A request for a known kind has a plan exactly if it
is sound, and otherwise fails with the error of what is wrong first. The plan has one block for each filter whose key
has a column, in the order of arrival; parameters that the query is not concerned with leave no trace. -/
theorem build_outcome (registry : Registry) (kind : Text) (resolver : Resolver) (config : Config) (request : Request) :
    ((∃ plan, build registry kind resolver config request = .ok plan) ↔
      ∃ schema, registry.get? kind = some schema ∧ request.Sound schema config) ∧
    (∀ e, build registry kind resolver config request = .error e ↔
      registry.get? kind = none ∧ e = .unknownEntity kind ∨
        ∃ schema, registry.get? kind = some schema ∧ request.FailsWith schema config e) ∧
    (∀ plan, build registry kind resolver config request = .ok plan → ∃ schema blocks,
      registry.get? kind = some schema ∧
        List.Forall₂ (Block.IsOf schema) (Clauses.reaching schema request.entries) blocks ∧
        plan.joins = blocks.flatMap Block.joins ∧ plan.predicates = blocks.map Block.predicate) ∧
    ∀ schema, registry.get? kind = some schema →
      build registry kind resolver config (request.keep (!Clauses.isIgnored schema ·)) =
        build registry kind resolver config request := by
  refine ⟨?_, ?_, ?_, ?_⟩
  · unfold build
    cases registry.get? kind with
    | none => simp
    | some schema => simp [exists_ofSchema_iff]
  · intro e
    unfold build
    cases registry.get? kind with
    | none => simp [eq_comm]
    | some schema => simp [ofSchema_eq_error_iff]
  · intro plan h
    obtain ⟨schema, settings, clauses, hk, -, hc, rfl⟩ := build_eq_ok_iff.mp h
    obtain ⟨cs, hcs, rfl⟩ := Clauses.exists_laid_of_ofParams hc
    exact ⟨schema, _, hk, Clause.forall₂_isOf_blocks hcs settings.names.aliases 0, rfl, rfl⟩
  · intro schema hk
    unfold build
    rw [hk]
    exact ofSchema_keep schema resolver config request

/-- As many filters as are allowed, with an ignored parameter between them. -/
def mixedRequest : Request :=
  .ofList [("name", "EQ(a)"), ("_ts", "?"), ("@limit", "5"), ("site", "NULL()")]

/-- The filters among them. -/
def mixedFilters : List (Text × Text) :=
  [("name", "EQ(a)"), ("site", "NULL()")]

theorem build_outcome_mixed : ∃ schema plan, agents.get? "agent" = some schema ∧
    build agents "agent" .anonymous { maxFilters := 2 } mixedRequest = .ok plan ∧
    (∃ blocks, List.Forall₂ (Block.IsOf schema) mixedFilters blocks ∧
      plan.predicates = blocks.map Block.predicate) ∧
    build agents "agent" .anonymous { maxFilters := 2 } (mixedRequest.keep (!Clauses.isIgnored schema ·)) = .ok plan := by
  have hcount : (build agents "agent" .anonymous { maxFilters := 2 } mixedRequest).map
      (fun plan => plan.predicates.length) = .ok 2 := by decide +kernel
  have hreaching : (agents.get? "agent").map (Clauses.reaching · mixedRequest.entries) =
      some mixedFilters := by decide +kernel
  obtain ⟨plan, hb, -⟩ := Outcome.map_eq_ok_iff.mp hcount
  obtain ⟨-, -, hblocks, hkeep⟩ := build_outcome agents "agent" .anonymous { maxFilters := 2 } mixedRequest
  obtain ⟨schema, blocks, hk, hall, -, hpredicates⟩ := hblocks plan hb
  rw [hk, Option.map_some, Option.some_inj] at hreaching
  rw [hreaching] at hall
  exact ⟨schema, plan, hk, hb, ⟨blocks, hall, hpredicates⟩, (hkeep schema hk).trans hb⟩

end Plan

end FilterPlan
