import FilterPlan.Plan.Directive
import FilterPlan.Proofs.Outcome

/-!
# What the directives of a request come to

Whether the value of a directive is valid does not depend on the other directives (`Settings.fault?`): the directives
fail as the first one with a fault (`Settings.ofParams_eq_error_iff`). If there is none, each setting is what the last
directive about it says, and those about other settings do not matter (`Settings.ofParams_eq_ok_iff`).
-/

namespace FilterPlan

open Outcome (error?)

/-! ## Faults -/

namespace Settings

/-- What is wrong with an integer. -/
def integerFault? (key value : Text) : Option QueryError :=
  if (Text.nat64? value.trim).isSome then none else some (.invalidArgument key (.notNatural value))

/-- What is wrong with a limit: it is no integer, or beyond the configured one. -/
def limitFault? (config : Config) (key value : Text) : Option QueryError :=
  match Text.nat64? value.trim with
  | none => some (.invalidArgument key (.notNatural value))
  | some n => (config.maxLimit?.filter (· < n)).map fun max => .invalidArgument key (.limitExceeded max)

end Settings

/-- What is wrong with the value of a directive, if anything. -/
def Directive.fault? (schema : Schema) (config : Config) (key value : Text) : Directive → Option QueryError
  | select => error? (Selection.parse schema value {}).1
  | order => error? (OrderBy.parseList schema key value)
  | offset | page => Settings.integerFault? key value
  | limit => Settings.limitFault? config key value
  | seals => value.entries.findSome? (Settings.integerFault? key)
  | keyword | permissions | verified | or | files => none

/-- Whether a selection is valid does not depend on the numbers of its sub-selections. -/
theorem Selection.error?_parse (schema : Schema) (t : Text) (names : Names) :
    error? (parse schema t names).1 = error? (parse schema t {}).1 := by
  simp only [parse, Outcome.error?_map]

namespace Settings

variable {schema : Schema} {config : Config}

/-- What is wrong with a parameter of the request if its key is that of a directive. -/
def fault? (schema : Schema) (config : Config) (param : Text × Text) : Option QueryError :=
  (Directive.ofKey? param.1).bind (Directive.fault? schema config param.1 param.2)

/-- A parameter that is no directive changes nothing. -/
theorem step_of_isNone {param : Text × Text} (h : Directive.ofKey? param.1 = none) (s : Settings) :
    step schema config s param = .ok s := by
  unfold step
  rw [h]

/-- Settings do not depend on parameters that are no directives. -/
theorem ofParams_filter {keep : Text × Text → Bool} (h : ∀ p, keep p = false → Directive.ofKey? p.1 = none)
    (params : List (Text × Text)) : ofParams schema config (params.filter keep) = ofParams schema config params :=
  Outcome.foldlM_filter (fun s p hp => step_of_isNone (h p hp) s) params {}

theorem error?_integer (key value : Text) : error? (integer key value) = integerFault? key value := by
  unfold integer integerFault?
  cases Text.nat64? value.trim <;> rfl

theorem error?_limit (config : Config) (key value : Text) :
    error? (limit config key value) = limitFault? config key value := by
  unfold limit limitFault? integer
  cases Text.nat64? value.trim with
  | none => rfl
  | some n =>
    cases config.maxLimit? with
    | none => rfl
    | some max => by_cases h : max < n <;> simp [h, error?, bind, Except.bind, Option.filter]

/-- A directive fails by its own fault, whatever others have said. -/
theorem error?_step (s : Settings) (param : Text × Text) :
    error? (step schema config s param) = fault? schema config param := by
  unfold step fault?
  cases Directive.ofKey? param.1 with
  | none => rfl
  | some directive =>
    cases directive with
    | select => exact (Outcome.error?_map _ _).trans (Selection.error?_parse schema param.2 s.names)
    | order => exact Outcome.error?_map _ _
    | offset | page => exact (Outcome.error?_map _ _).trans (error?_integer param.1 param.2)
    | limit => exact (Outcome.error?_map _ _).trans (error?_limit config param.1 param.2)
    | seals =>
      refine (Outcome.error?_map _ _).trans ((Outcome.error?_mapM _ _).trans ?_)
      simp only [error?_integer]
      rfl
    | keyword | permissions | verified | or | files => rfl

theorem error?_ofParams (params : List (Text × Text)) :
    error? (ofParams schema config params) = params.findSome? (fault? schema config) :=
  Outcome.error?_foldlM error?_step params {}

/-- **The directives fail as the first one with a fault.** -/
theorem ofParams_eq_error_iff {params : List (Text × Text)} {e : QueryError} :
    ofParams schema config params = .error e ↔ params.findSome? (fault? schema config) = some e := by
  rw [← error?_ofParams, Outcome.error?_eq_some_iff]

/-! ## The last directive about a setting -/

/-- The parameters whose keys are those of some directives. -/
def said (ds : List Directive) (params : List (Text × Text)) : List (Text × Text) :=
  params.filter fun p => (Directive.ofKey? p.1).any ds.contains

theorem mem_said_singleton {d : Directive} {params : List (Text × Text)} {p : Text × Text} :
    p ∈ said [d] params ↔ p ∈ params ∧ Directive.ofKey? p.1 = some d := by
  rw [said, List.mem_filter]
  refine and_congr_right fun _ => ?_
  cases Directive.ofKey? p.1 <;> simp

/-- Where nothing is wrong, nothing is wrong with what is said about a directive. -/
theorem fault?_of_mem_said {d : Directive} {params : List (Text × Text)} {p : Text × Text}
    (h : ∀ p ∈ params, fault? schema config p = none) (hp : p ∈ said [d] params) :
    d.fault? schema config p.1 p.2 = none := by
  obtain ⟨hmem, hkey⟩ := mem_said_singleton.mp hp
  have hvalid := h p hmem
  rwa [fault?, hkey] at hvalid

/-- One selection after the other: what the last one selects, and the names that are taken then. -/
def selected (schema : Schema) (params : List (Text × Text)) : Option Selection × Names :=
  (said [.select] params).foldl
    (fun s p => ((Selection.parse schema p.2 s.2).1.toOption, (Selection.parse schema p.2 s.2).2)) (none, {})

/-- The seals that a directive about seals asks for. -/
def sealsOf (config : Config) (param : Text × Text) : List Nat :=
  if Directive.ofKey? param.1 = some .verified then config.verifiedSeals
  else param.2.entries.filterMap fun item => Text.nat64? item.trim

/-- Each setting as the last directive about it says. -/
def ofLast (schema : Schema) (config : Config) (params : List (Text × Text)) : Settings where
  selection? := (selected schema params).1
  order? := (said [.order] params).getLast?.bind fun p => (OrderBy.parseList schema p.1 p.2).toOption
  offset? := (said [.offset] params).getLast?.bind fun p => Text.nat64? p.2.trim
  page? := (said [.page] params).getLast?.bind fun p => Text.nat64? p.2.trim
  limit? := (said [.limit] params).getLast?.bind fun p => Text.nat64? p.2.trim
  keyword? := (said [.keyword] params).getLast?.map Prod.snd
  permissions := ((said [.permissions] params).getLast?.map fun p => p.2.entries).getD []
  seals := ((said [.seals, .verified] params).getLast?.map (sealsOf config)).getD []
  combinator := if (said [.or] params).isEmpty then .and else .or
  names := (selected schema params).2

theorem nat64?_of_integer {key value : Text} {n : Nat} (h : integer key value = .ok n) :
    Text.nat64? value.trim = some n := by
  unfold integer at h
  split at h
  · next m hm => rw [hm, Except.ok.inj h]
  · cases h

theorem nat64?_of_limit {key value : Text} {n : Nat} (h : limit config key value = .ok n) :
    Text.nat64? value.trim = some n := by
  obtain ⟨m, hm, h⟩ := Outcome.bind_eq_ok_iff.mp h
  rw [nat64?_of_integer hm]
  split at h
  · split at h
    · cases h
    · exact congrArg some (Except.ok.inj h)
  · exact congrArg some (Except.ok.inj h)

theorem numbers_of_mapM_integer {key : Text} {items : List Text} {numbers : List Nat}
    (h : items.mapM (integer key) = .ok numbers) : (items.filterMap fun item => Text.nat64? item.trim) = numbers := by
  have hread := Outcome.mapM_eq_ok_iff.mp h
  clear h
  induction hread with
  | nil => rfl
  | cons hn _ ih => rw [List.filterMap_cons, nat64?_of_integer hn, ih]

theorem said_concat_of_isNone {param : Text × Text} (h : Directive.ofKey? param.1 = none) (ds : List Directive)
    (seen : List (Text × Text)) : said ds (seen ++ [param]) = said ds seen := by
  simp [said, List.filter_append, h]

theorem said_concat {param : Text × Text} {d : Directive} (h : Directive.ofKey? param.1 = some d) (ds : List Directive)
    (seen : List (Text × Text)) :
    said ds (seen ++ [param]) = if d ∈ ds then said ds seen ++ [param] else said ds seen := by
  rw [said, List.filter_append, List.filter_singleton, h, Option.any_some, List.contains_eq_mem]
  split
  · next hd => simp [hd, said]
  · next hd => simp [hd, said]

theorem selected_concat {param : Text × Text} (h : Directive.ofKey? param.1 = some .select)
    (seen : List (Text × Text)) : selected schema (seen ++ [param]) =
      ((Selection.parse schema param.2 (selected schema seen).2).1.toOption,
        (Selection.parse schema param.2 (selected schema seen).2).2) := by
  rw [selected, said_concat h, if_pos List.mem_cons_self, List.foldl_concat]
  rfl

/-- One more directive decides about its own setting, and about no other. -/
theorem step_ofLast {seen : List (Text × Text)} {param : Text × Text} {s : Settings}
    (h : step schema config (ofLast schema config seen) param = .ok s) :
    s = ofLast schema config (seen ++ [param]) := by
  unfold step at h
  cases hd : Directive.ofKey? param.1 with
  | none =>
    rw [hd] at h
    cases h
    simp only [ofLast, selected, said_concat_of_isNone hd]
  | some directive =>
    rw [hd] at h
    cases directive with
    | select =>
      have hparse : (Selection.parse schema param.2 (selected schema seen).2).1.map (fun selection =>
          { ofLast schema config seen with
            selection? := some selection
            names := (Selection.parse schema param.2 (selected schema seen).2).2 }) = .ok s := h
      obtain ⟨selection, hp, rfl⟩ := Outcome.map_eq_ok_iff.mp hparse
      simp [ofLast, selected_concat hd, said_concat hd, hp, Except.toOption]
    | order =>
      obtain ⟨order, hp, rfl⟩ := Outcome.map_eq_ok_iff.mp h
      simp [ofLast, selected, said_concat hd, hp, Except.toOption]
    | offset | page =>
      obtain ⟨n, hp, rfl⟩ := Outcome.map_eq_ok_iff.mp h
      simp [ofLast, selected, said_concat hd, nat64?_of_integer hp]
    | limit =>
      obtain ⟨n, hp, rfl⟩ := Outcome.map_eq_ok_iff.mp h
      simp [ofLast, selected, said_concat hd, nat64?_of_limit hp]
    | seals =>
      obtain ⟨numbers, hp, rfl⟩ := Outcome.map_eq_ok_iff.mp h
      simp [ofLast, selected, said_concat hd, sealsOf, hd, numbers_of_mapM_integer hp]
    | verified =>
      cases h
      simp [ofLast, selected, said_concat hd, sealsOf, hd]
    | keyword | permissions | or | files =>
      cases h
      simp [ofLast, selected, said_concat hd]

/-- **Each setting is what the last directive about it says**, if no directive has a fault. -/
theorem ofParams_eq_ok_iff {params : List (Text × Text)} {s : Settings} :
    ofParams schema config params = .ok s ↔
      (∀ p ∈ params, fault? schema config p = none) ∧ s = ofLast schema config params := by
  have hrun : ∀ s', ofParams schema config params = .ok s' → s' = ofLast schema config params := fun s' h =>
    Outcome.foldlM_run (P := fun seen s' => s' = ofLast schema config seen)
      (fun seen p b b' hb h => step_ofLast (hb ▸ h)) params [] rfl h
  rw [← List.findSome?_eq_none_iff, ← error?_ofParams, Outcome.error?_eq_none_iff]
  constructor
  · exact fun h => ⟨⟨s, h⟩, hrun s h⟩
  · rintro ⟨⟨s', h⟩, rfl⟩
    rwa [← hrun s' h]

end Settings

end FilterPlan
