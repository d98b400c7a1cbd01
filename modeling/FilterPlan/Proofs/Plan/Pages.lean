import FilterPlan.Plan.Render
import FilterPlan.Proofs.Plan.Build
import FilterPlan.Proofs.Plan.Settings

/-!
# Pages

Three numbers say which rows a plan finds, and each is what the last directive about it gives (`Settings.Gives`). The rows
of the pages before are counted exactly, and only the result is kept within 64 bits (`Plan.skipped`), so the number of
skipped rows does not wrap around.

Requests that differ in nothing but the page have plans that differ in nothing else (`Plan.build_of_sameButPage`). What
remains is how the number of skipped rows depends on the page alone: it grows with the page (`Plan.skipped_mono`), and by
the limit from one page to the next (`Plan.skipped_next`).
-/

namespace FilterPlan

namespace Text

theorem wordBound_pos : 0 < wordBound := Nat.two_pow_pos 64

theorem lt_wordBound_of_digits64? {t : Text} {n : Nat} (h : digits64? t = some n) : n < wordBound := by
  unfold digits64? at h
  split at h
  · cases h
  · obtain ⟨hn, heq⟩ := Option.ite_none_right_eq_some.mp h
    exact Option.some.inj heq ▸ hn

/-- An unsigned 64-bit integer is within its bound. -/
theorem lt_wordBound_of_nat64? {t : Text} {n : Nat} (h : nat64? t = some n) : n < wordBound := by
  unfold nat64? at h
  split at h <;> exact lt_wordBound_of_digits64? h

end Text

/-! ## The numbers that directives give -/

namespace Settings

variable {schema : Schema} {config : Config} {params params' : List (Text × Text)}

/-- What the directives of a kind give: nothing where there is none, or else the number of the last one. -/
inductive Gives (d : Directive) (params : List (Text × Text)) : Option Nat → Prop
  | nothing (h : said [d] params = []) : Gives d params none
  | last {before : List (Text × Text)} {p : Text × Text} {n : Nat} (h : said [d] params = before ++ [p])
      (hn : Text.nat64? p.2.trim = some n) : Gives d params (some n)

theorem Gives.lt_wordBound {d : Directive} {n : Nat} (h : Gives d params (some n)) : n < Text.wordBound := by
  cases h with
  | last _ hn => exact Text.lt_wordBound_of_nat64? hn

/-- Where all directives of a kind can be read as numbers, the last one gives its number. -/
theorem gives_getLast? {d : Directive} (h : ∀ p ∈ said [d] params, ∃ n, Text.nat64? p.2.trim = some n) :
    Gives d params ((said [d] params).getLast?.bind fun p => Text.nat64? p.2.trim) := by
  rcases List.eq_nil_or_concat' (said [d] params) with hs | ⟨before, p, hs⟩
  · rw [hs]
    exact .nothing hs
  · obtain ⟨n, hn⟩ := h p (hs ▸ List.mem_concat_self)
    rw [hs, List.getLast?_concat, Option.bind_some, hn]
    exact .last hs hn

theorem exists_nat64?_of_integerFault? {key value : Text} (h : integerFault? key value = none) :
    ∃ n, Text.nat64? value.trim = some n := by
  unfold integerFault? at h
  split at h
  · next hn => exact Option.isSome_iff_exists.mp hn
  · cases h

/-- A limit without a fault is a number that is not beyond the configured one. -/
theorem exists_nat64?_of_limitFault? {key value : Text} (h : limitFault? config key value = none) :
    ∃ n, Text.nat64? value.trim = some n ∧ ∀ max, config.maxLimit? = some max → n ≤ max := by
  unfold limitFault? at h
  cases hn : Text.nat64? value.trim with
  | none =>
    rw [hn] at h
    cases h
  | some n =>
    refine ⟨n, rfl, fun max hmax => ?_⟩
    simpa [hn, hmax, Option.filter_eq_none_iff] using h

/-- Each of the three numbers of a plan is given by the directives about it. -/
theorem gives_of_ofParams {settings : Settings} (h : ofParams schema config params = .ok settings) :
    Gives .offset params settings.offset? ∧ Gives .page params settings.page? ∧ Gives .limit params settings.limit? := by
  obtain ⟨hfault, rfl⟩ := ofParams_eq_ok_iff.mp h
  refine ⟨gives_getLast? fun p hp => ?_, gives_getLast? fun p hp => ?_, gives_getLast? fun p hp => ?_⟩
  · exact exists_nat64?_of_integerFault? (fault?_of_mem_said hfault hp)
  · exact exists_nat64?_of_integerFault? (fault?_of_mem_said hfault hp)
  · obtain ⟨n, hn, -⟩ := exists_nat64?_of_limitFault? (fault?_of_mem_said hfault hp)
    exact ⟨n, hn⟩

theorem limit_le_of_ofParams {settings : Settings} (h : ofParams schema config params = .ok settings) {limit max : Nat}
    (hlimit : settings.limit? = some limit) (hmax : config.maxLimit? = some max) : limit ≤ max := by
  obtain ⟨hfault, rfl⟩ := ofParams_eq_ok_iff.mp h
  obtain ⟨p, hp, hn⟩ := Option.bind_eq_some_iff.mp hlimit
  obtain ⟨n, hn', hle⟩ := exists_nat64?_of_limitFault? (fault?_of_mem_said hfault (List.mem_of_getLast? hp))
  rw [hn] at hn'
  exact Option.some.inj hn' ▸ hle max hmax

/-! ## Requests that differ in nothing but the page -/

/-- Whether the key of a parameter is not that of a page. -/
def notPage (p : Text × Text) : Bool :=
  Directive.ofKey? p.1 ≠ some .page

/-- The parameters are the same in the same order, but for those about the page. -/
def SameButPage (params params' : List (Text × Text)) : Prop :=
  params.filter notPage = params'.filter notPage

instance (params params' : List (Text × Text)) : Decidable (SameButPage params params') :=
  inferInstanceAs (Decidable (_ = _))

/-- Parameters other than pages are kept without the pages. -/
theorem filter_filter_notPage {keep : Text × Text → Bool} (h : ∀ p, keep p = true → notPage p = true)
    (params : List (Text × Text)) : (params.filter notPage).filter keep = params.filter keep := by
  rw [List.filter_filter]
  refine List.filter_congr fun p _ => ?_
  cases hk : keep p with
  | false => rfl
  | true => rw [h p hk, Bool.and_self]

theorem SameButPage.filter_eq (h : SameButPage params params') {keep : Text × Text → Bool}
    (hkeep : ∀ p, keep p = true → notPage p = true) : params.filter keep = params'.filter keep := by
  rw [← filter_filter_notPage hkeep, h, filter_filter_notPage hkeep]

theorem SameButPage.said_eq (h : SameButPage params params') {ds : List Directive} (hds : Directive.page ∉ ds) :
    said ds params = said ds params' := by
  refine h.filter_eq fun p hp => decide_eq_true fun hkey => hds ?_
  rw [hkey, Option.any_some] at hp
  exact List.contains_iff_mem.mp hp

/-- Apart from the page, the settings are the same. -/
theorem SameButPage.ofLast_eq (h : SameButPage params params') (schema : Schema) (config : Config) :
    { ofLast schema config params with page? := (ofLast schema config params').page? } =
      ofLast schema config params' := by
  have hsaid := fun ds (hds : Directive.page ∉ ds) => h.said_eq hds
  simp only [ofLast, selected, hsaid [.select] (by decide), hsaid [.order] (by decide), hsaid [.offset] (by decide),
    hsaid [.limit] (by decide), hsaid [.keyword] (by decide), hsaid [.permissions] (by decide),
    hsaid [.seals, .verified] (by decide), hsaid [.or] (by decide)]

end Settings

namespace Plan

open Settings (Gives SameButPage)

/-! ## Skipped rows -/

/-- How many rows are skipped: as many as the request says, or else those of the pages before, as far as 64 bits can count
them. There are no pages without a limit, and none before the first. -/
def skipped : Option Nat → Option Nat → Option Nat → Nat
  | some offset, _, _ => offset
  | none, some (page + 1), some limit => min (limit * page) (Text.wordBound - 1)
  | none, _, _ => 0

/-- Without a number of rows to skip, those of the pages before the asked one are skipped. -/
theorem skipped_none (page? limit? : Option Nat) :
    skipped none page? limit? = min (limit?.getD 0 * (page?.getD 0 - 1)) (Text.wordBound - 1) := by
  rcases page? with _ | _ | page <;> cases limit? <;> simp [skipped]

theorem offset_eq_skipped (p : Plan) : p.offset = skipped p.offset? p.page? p.limit? := by
  unfold offset
  cases p.offset? with
  | some offset => rfl
  | none =>
    rw [skipped_none]
    cases p.page? with
    | none => simp
    | some page =>
      cases p.limit? with
      | none => simp
      | some limit =>
        dsimp only [Option.getD_some]
        split
        · rfl
        · next hpage => simp [show page - 1 = 0 by omega]

/-- More rows are skipped for later pages. -/
theorem skipped_mono (offset? limit? : Option Nat) {page? page'? : Option Nat} (h : page?.getD 0 ≤ page'?.getD 0) :
    skipped offset? page? limit? ≤ skipped offset? page'? limit? := by
  cases offset? with
  | some offset => exact Nat.le_refl offset
  | none =>
    have hrows : limit?.getD 0 * (page?.getD 0 - 1) ≤ limit?.getD 0 * (page'?.getD 0 - 1) :=
      Nat.mul_le_mul_left _ (Nat.sub_le_sub_right h 1)
    rw [skipped_none, skipped_none]
    omega

/-- The next page begins where the page ends. -/
theorem skipped_next {page limit : Nat} (hpage : 1 ≤ page) (h : limit * page < Text.wordBound) :
    skipped none (some (page + 1)) (some limit) = skipped none (some page) (some limit) + limit := by
  obtain ⟨page, rfl⟩ := Nat.exists_eq_add_of_le' hpage
  show min (limit * (page + 1)) (Text.wordBound - 1) = min (limit * page) (Text.wordBound - 1) + limit
  have hstep : limit * (page + 1) = limit * page + limit := Nat.mul_succ limit page
  omega

theorem skipped_lt {offset? page? limit? : Option Nat} (h : ∀ n, offset? = some n → n < Text.wordBound) :
    skipped offset? page? limit? < Text.wordBound := by
  cases offset? with
  | some offset => exact h offset rfl
  | none =>
    have hpos := Text.wordBound_pos
    rw [skipped_none]
    omega

example : skipped none (some 9223372036854775809) (some 3) = 18446744073709551615 := by decide

/-! ## Plans -/

/-- The rows that the queries of a plan ask for, by the directives among the parameters. -/
structure Paged (config : Config) (params : List (Text × Text)) (p : Plan) : Prop where
  offset : Gives .offset params p.offset?
  page : Gives .page params p.page?
  limit : Gives .limit params p.limit?
  limit_le : ∀ limit max, p.limit? = some limit → config.maxLimit? = some max → limit ≤ max
  find_offset : p.find.offset = skipped p.offset? p.page? p.limit?
  find_offset_lt : p.find.offset < Text.wordBound
  find_limit : p.find.limit? = p.limit?
  count_offset : p.count.offset = 0
  count_limit : p.count.limit? = none

theorem paged_assemble {schema : Schema} {config : Config} {params : List (Text × Text)} {settings : Settings}
    (h : Settings.ofParams schema config params = .ok settings) (clauses : Clauses) :
    (assemble schema config settings clauses).Paged config params := by
  obtain ⟨hoffset, hpage, hlimit⟩ := Settings.gives_of_ofParams h
  have hskipped := offset_eq_skipped (assemble schema config settings clauses)
  refine ⟨hoffset, hpage, hlimit, fun limit max hl hmax => Settings.limit_le_of_ofParams h hl hmax, hskipped, ?_, rfl, rfl,
    rfl⟩
  refine lt_of_eq_of_lt hskipped (skipped_lt fun n hn => ?_)
  exact (hn ▸ hoffset : Gives .offset params (some n)).lt_wordBound

/-- Requests that differ in nothing but the page have plans that differ in nothing else. -/
theorem build_of_sameButPage {registry : Registry} {kind : Text} {resolver : Resolver} {config : Config}
    {request request' : Request} {plan plan' : Plan} (hsame : SameButPage request.entries request'.entries)
    (h : build registry kind resolver config request = .ok plan)
    (h' : build registry kind resolver config request' = .ok plan') : { plan with page? := plan'.page? } = plan' := by
  obtain ⟨schema, settings, clauses, hschema, hs, hc, rfl⟩ := build_eq_ok_iff.mp h
  obtain ⟨schema', settings', clauses', hschema', hs', hc', rfl⟩ := build_eq_ok_iff.mp h'
  obtain rfl : schema = schema' := Option.some.inj (hschema.symm.trans hschema')
  obtain ⟨-, rfl⟩ := Settings.ofParams_eq_ok_iff.mp hs
  obtain ⟨-, rfl⟩ := Settings.ofParams_eq_ok_iff.mp hs'
  have hlast := hsame.ofLast_eq schema config
  have hfilters : request.entries.filter Clauses.isFilter = request'.entries.filter Clauses.isFilter :=
    hsame.filter_eq fun p hp => decide_eq_true fun hkey => by simp [Clauses.isFilter, hkey] at hp
  have hclauses : clauses = clauses' := by
    have hnames := congrArg Settings.names hlast
    rw [← hnames, Clauses.ofParams, ← hfilters] at hc'
    exact Except.ok.inj (hc.symm.trans hc')
  subst hclauses
  exact congrArg (assemble schema config · clauses) hlast

/-- **Pages stand end to end, and their numbers do not wrap around.** A plan skips as many rows as the directives about
them say, computed without bounds and cut off at 64 bits, and finds as many as its limit, which is not beyond the
configured one; all rows are counted, whatever page is asked for. If requests differ in nothing but the page, so do their
plans. For a later page no fewer rows are skipped, and for the next page as many more as the limit, if they can be counted
with 64 bits. -/
theorem build_pages {registry : Registry} {kind : Text} {resolver : Resolver} {config : Config} {request : Request}
    {plan : Plan} (h : build registry kind resolver config request = .ok plan) :
    plan.Paged config request.entries ∧
    ∀ request' plan', SameButPage request.entries request'.entries →
      build registry kind resolver config request' = .ok plan' →
      { plan with page? := plan'.page? } = plan' ∧
      (plan.page?.getD 0 ≤ plan'.page?.getD 0 → plan.find.offset ≤ plan'.find.offset) ∧
      ∀ page limit, plan.offset? = none → plan.limit? = some limit → plan.page? = some page →
        plan'.page? = some (page + 1) → 1 ≤ page → limit * page < Text.wordBound →
        plan'.find.offset = plan.find.offset + limit := by
  constructor
  · obtain ⟨schema, settings, clauses, -, hs, -, rfl⟩ := build_eq_ok_iff.mp h
    exact paged_assemble hs clauses
  · intro request' plan' hsame h'
    have hplan := build_of_sameButPage hsame h h'
    have hskipped : plan.find.offset = skipped plan.offset? plan.page? plan.limit? := offset_eq_skipped plan
    have hskipped' : plan'.find.offset = skipped plan.offset? plan'.page? plan.limit? := by
      rw [← hplan]
      exact offset_eq_skipped { plan with page? := plan'.page? }
    refine ⟨hplan, fun hpage => ?_, fun page limit hoffset hlimit hpage hpage' hfirst hfits => ?_⟩
    · rw [hskipped, hskipped']
      exact skipped_mono plan.offset? plan.limit? hpage
    · rw [hskipped, hskipped', hoffset, hlimit, hpage, hpage']
      exact skipped_next hfirst hfits

/-- A page asked for twice, the second time in place of the first. -/
def secondPage : Request :=
  .ofList [("@page", "7"), ("id", "GT(3)"), ("@limit", "10"), ("@PAGE", "+2")]

/-- The same rows, but the page behind. -/
def thirdPage : Request :=
  .ofList [("id", "GT(3)"), ("@Page", " 3 "), ("@limit", "10")]

theorem build_pages_third : ∃ plan plan',
    build agents "agent" .anonymous { maxLimit? := some 10 } secondPage = .ok plan ∧
    build agents "agent" .anonymous { maxLimit? := some 10 } thirdPage = .ok plan' ∧
    plan.Paged { maxLimit? := some 10 } secondPage.entries ∧
    plan.find.offset = 10 ∧ plan'.find.offset = plan.find.offset + 10 := by
  have hsecond : (build agents "agent" .anonymous { maxLimit? := some 10 } secondPage).map
      (fun plan => (plan.offset?, plan.page?, plan.limit?, plan.find.offset)) = .ok (none, some 2, some 10, 10) := by
    decide +kernel
  have hthird : (build agents "agent" .anonymous { maxLimit? := some 10 } thirdPage).map Plan.page? = .ok (some 3) := by
    decide +kernel
  obtain ⟨plan, hb, hnumbers⟩ := Outcome.map_eq_ok_iff.mp hsecond
  obtain ⟨plan', hb', hpage'⟩ := Outcome.map_eq_ok_iff.mp hthird
  simp only [Prod.mk.injEq] at hnumbers
  obtain ⟨hoffset, hpage, hlimit, hfind⟩ := hnumbers
  obtain ⟨hpaged, hothers⟩ := build_pages hb
  obtain ⟨-, -, hnext⟩ := hothers thirdPage plan' (by decide +kernel) hb'
  exact ⟨plan, plan', hb, hb', hpaged, hfind, hnext 2 10 hoffset hlimit hpage hpage' (by decide) (by decide)⟩

end Plan

end FilterPlan
