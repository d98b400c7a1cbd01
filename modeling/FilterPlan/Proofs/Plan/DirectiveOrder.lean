import FilterPlan.Proofs.Plan.Acceptance

/-!
# The places of directives

It does not matter where a directive stands among the parameters of a request in which none is repeated, with one
exception: `@seals` and `@verified` are about the same setting, and the last of them decides
(`build_of_directives_moved`). So `@verified` has no effect in front of `@seals` (`seals_behind_verified`).
-/

namespace FilterPlan

namespace Settings

variable {params params' : List (Text × Text)}

/-- No directive is repeated, whatever the letter case of its key. -/
def Once (params : List (Text × Text)) : Prop :=
  (params.filterMap fun p => Directive.ofKey? p.1).Nodup

instance (params : List (Text × Text)) : Decidable (Once params) :=
  inferInstanceAs (Decidable (List.Nodup _))

/-- A directive that is not repeated stands at most once. -/
theorem length_said_le_one (h : Once params) (d : Directive) : (said [d] params).length ≤ 1 := by
  have hcount : (params.filterMap fun p => Directive.ofKey? p.1).count d ≤ 1 := List.nodup_iff_count_le_one.mp h d
  rw [List.count, List.countP_filterMap] at hcount
  rw [said, ← List.countP_eq_length_filter]
  refine le_of_eq_of_le (List.countP_congr fun p _ => ?_) hcount
  cases Directive.ofKey? p.1 <;> simp

/-- What is said about one directive does not depend on its place. -/
theorem said_eq_of_perm (h : params.Perm params') (honce : Once params) (d : Directive) :
    said [d] params = said [d] params' := by
  have hperm : (said [d] params).Perm (said [d] params') := h.filter _
  have hlength := length_said_le_one honce d
  cases hs : said [d] params with
  | nil => exact (List.nil_perm.mp (hs ▸ hperm)).symm
  | cons p rest =>
    rw [hs] at hlength hperm
    obtain rfl : rest = [] := List.eq_nil_of_length_eq_zero (by simpa using hlength)
    exact List.singleton_perm.mp hperm

/-- The seals that the last directive about them asks for. -/
def sealsSaid (config : Config) (params : List (Text × Text)) : List Nat :=
  ((said [.seals, .verified] params).getLast?.map (sealsOf config)).getD []

/-- Apart from the seals, settings do not depend on the places of directives that are not repeated. -/
theorem ofLast_eq_of_perm (schema : Schema) (config : Config) (h : params.Perm params') (honce : Once params) :
    { ofLast schema config params with seals := sealsSaid config params' } = ofLast schema config params' := by
  simp only [ofLast, selected, said_eq_of_perm h honce, sealsSaid]

end Settings

namespace Plan

variable {registry : Registry} {kind : Text} {resolver : Resolver} {config : Config} {request request' : Request}

/-- **The places of directives do not matter, but for the seals.** If the parameters of a request are put in another
order, with no directive repeated and the filters in the same order, the request still has a plan if it had one. The
plan is the same except for its seals, which are those that the last directive about them asks for; so it is the same
altogether if the directives about seals have kept their order. -/
theorem build_of_directives_moved (hperm : request.entries.Perm request'.entries)
    (hfilters : request.entries.filter Clauses.isFilter = request'.entries.filter Clauses.isFilter)
    (honce : Settings.Once request.entries) :
    Outcome.Agree (fun plan plan' => { plan with seals := plan'.seals } = plan' ∧
        plan.seals = Settings.sealsSaid config request.entries ∧
        plan'.seals = Settings.sealsSaid config request'.entries ∧
        (Settings.said [.seals, .verified] request.entries = Settings.said [.seals, .verified] request'.entries →
          plan = plan'))
      (build registry kind resolver config request) (build registry kind resolver config request') := by
  refine build_agree_of_perm hperm fun schema plan plan' _ h h' => ?_
  obtain ⟨settings, clauses, hs, hc, rfl⟩ := ofSchema_eq_ok_iff.mp h
  obtain ⟨settings', clauses', hs', hc', rfl⟩ := ofSchema_eq_ok_iff.mp h'
  obtain ⟨-, rfl⟩ := Settings.ofParams_eq_ok_iff.mp hs
  obtain ⟨-, rfl⟩ := Settings.ofParams_eq_ok_iff.mp hs'
  have hlast := Settings.ofLast_eq_of_perm schema config hperm honce
  have hnames := congrArg Settings.names hlast
  have hclauses : clauses = clauses' := by
    have hsame : Clauses.ofParams schema resolver config (Settings.ofLast schema config request.entries).names
        request.entries = .ok clauses' := by
      rw [← hc', ← hnames]
      unfold Clauses.ofParams
      rw [hfilters]
    rw [hc] at hsame
    exact Except.ok.inj hsame
  subst hclauses
  have hplan := congrArg (assemble schema config · clauses) hlast
  refine ⟨hplan, rfl, rfl, fun hsaid => ?_⟩
  have hseals : Settings.sealsSaid config request.entries = Settings.sealsSaid config request'.entries := by
    rw [Settings.sealsSaid, hsaid]
    rfl
  refine Eq.trans ?_ hplan
  simp only
  rw [← hseals]
  rfl

/-- Directives before and between filters. -/
def spreadRequest : Request :=
  .ofList [("@seals", "4"), ("name", "EQ(a)"), ("@verified", "1"), ("@limit", "5"), ("site", "NULL()"), ("@OR", "")]

/-- The same parameters, with the directives in other places. -/
def gatheredRequest : Request :=
  .ofList [("name", "EQ(a)"), ("@OR", ""), ("@seals", "4"), ("@limit", "5"), ("@verified", "1"), ("site", "NULL()")]

theorem build_of_directives_moved_gathered : ∃ plan,
    build agents "agent" .anonymous { verifiedSeals := [1, 2] } spreadRequest = .ok plan ∧
    build agents "agent" .anonymous { verifiedSeals := [1, 2] } gatheredRequest = .ok plan ∧ plan.seals = [1, 2] := by
  have hseals : (build agents "agent" .anonymous { verifiedSeals := [1, 2] } spreadRequest).map Plan.seals =
      .ok [1, 2] := by decide +kernel
  obtain ⟨plan, hb, hs⟩ := Outcome.map_eq_ok_iff.mp hseals
  have hagree := @build_of_directives_moved agents "agent" .anonymous { verifiedSeals := [1, 2] } spreadRequest
    gatheredRequest (by decide +kernel) (by decide +kernel) (by decide +kernel)
  rw [hb] at hagree
  obtain ⟨plan', hb', -, -, -, heq⟩ := hagree.exists_right
  obtain rfl : plan = plan' := heq (by decide +kernel)
  exact ⟨plan, hb, hb', hs⟩

/-- Verified seals asked for in front of others. -/
def verifiedFirst : Request :=
  .ofList [("@verified", "1"), ("@seals", "4,5")]

/-- Verified seals asked for behind others. -/
def verifiedLast : Request :=
  .ofList [("@seals", "4,5"), ("@verified", "1")]

/-- Seals behind `@verified` take the place of the verified ones. -/
theorem seals_behind_verified : verifiedFirst.entries.Perm verifiedLast.entries ∧
    verifiedFirst.entries.filter Clauses.isFilter = verifiedLast.entries.filter Clauses.isFilter ∧
    Settings.Once verifiedFirst.entries ∧
    (build agents "agent" .anonymous { verifiedSeals := [1, 2] } verifiedFirst).map Plan.seals = .ok [4, 5] ∧
    (build agents "agent" .anonymous { verifiedSeals := [1, 2] } verifiedLast).map Plan.seals = .ok [1, 2] := by
  decide +kernel

end Plan

end FilterPlan
