import FilterPlan.Plan.Render
import FilterPlan.Proofs.Predicate.Columns
import FilterPlan.Proofs.Text.Template

/-!
# One filter for all queries of a plan

A plan is written several times: to find its rows, to count them, and in the queries that are nested in others or fetch
what is attached to the rows. All of them have the same joins and predicates. Only the alias of the root differs, which
stands in its own declaration, in every join from the root and in every condition on a column of the root
(`exists_sharesBody`).
-/

namespace FilterPlan

open Text (IsTemplate joinWith)

/-! ## Columns, joins and predicates -/

/-- Whether the column is read through the root. -/
def Column.isOfRoot (c : Column) : Bool :=
  c.via?.isNone

/-- How many of the columns are read through the root. -/
def Column.rooted (cs : List Column) : Nat :=
  cs.countP isOfRoot

theorem Column.rooted_append (cs ds : List Column) : rooted (cs ++ ds) = rooted cs + rooted ds :=
  List.countP_append

theorem Column.sum_rooted {α : Type} (f : α → Column) : ∀ l : List α,
    (l.map fun a => rooted [f a]).sum = rooted (l.map f)
  | [] => rfl
  | a :: rest => by
    rw [List.map_cons, List.sum_cons, sum_rooted f rest, ← rooted_append, List.singleton_append, List.map_cons]

theorem Column.isTemplate_render (c : Column) : IsTemplate (rooted [c]) fun root => c.render root := by
  obtain ⟨via?, name⟩ := c
  cases via? with
  | none => exact (IsTemplate.place.between [] ("." ++ name)).congr fun root => by simp [render]
  | some a =>
    refine (IsTemplate.const (a ++ "." ++ name)).congr fun root => ?_
    rw [render, Option.getD_some]

theorem Join.isTemplate_render (j : Join) : IsTemplate (Column.rooted [j.source]) fun root => j.render root :=
  (((j.source.isTemplate_render.between "LEFT JOIN " " ").between [] j.aliasName).between [] _).congr fun _ => rfl

namespace Predicate

/-- A text around a column has the places of the column. -/
theorem isTemplate_around (column : Column) (before after : Text) {f : Text → Text}
    (h : ∀ root, f root = before ++ column.render root ++ after) : IsTemplate (Column.rooted [column]) f :=
  (column.isTemplate_render.between before after).congr h

mutual

/-- A predicate has a place for each of its columns that is read through the root. -/
theorem isTemplate_render : ∀ p : Predicate, IsTemplate (Column.rooted p.columns) fun root => p.render root
  | compare column op param => isTemplate_around column [] _ fun root => by
    simp only [render_compare, List.nil_append, List.append_assoc]
    rfl
  | oneOf column negated params => isTemplate_around column [] _ fun root => by
    simp only [render_oneOf, List.nil_append, List.append_assoc]
    rfl
  | between column negated low high => isTemplate_around column [] _ fun root => by
    simp only [render_between, List.nil_append, List.append_assoc]
    rfl
  | like column negated false param => isTemplate_around column "unaccent(" _ fun root => by
    simp only [render_like, List.append_assoc]
    rfl
  | like column negated true param => isTemplate_around column "unaccent(lower(" _ fun root => by
    simp only [render_likeIgnoringCase, List.append_assoc]
    rfl
  | isNull column negated => isTemplate_around column "(" _ fun root => by
    simp only [render_isNull, List.append_assoc]
    rfl
  | near column negated longitude latitude radius => isTemplate_around column "ST_DWithin(" _ fun root => by
    simp only [render_near, List.append_assoc]
    rfl
  | group op children =>
    ((isTemplate_renderAll (" " ++ op.name ++ " ") children).between "(" ")").congr fun root => by
      rw [render_group, renderAll_eq_map]

/-- Joined predicates have the places of all of them. -/
theorem isTemplate_renderAll (sep : Text) : ∀ ps : List Predicate,
    IsTemplate (Column.rooted (columnsOfAll ps)) fun root => joinWith sep (renderAll root ps)
  | [] => .const []
  | [p] => by
    rw [columnsOfAll, columnsOfAll, List.append_nil]
    exact (isTemplate_render p).congr fun root => by simp [joinWith, renderAll]
  | p :: q :: rest => by
    have hrest := isTemplate_renderAll sep (q :: rest)
    rw [columnsOfAll, Column.rooted_append]
    exact ((isTemplate_render p).append (hrest.between sep [])).congr fun root => by simp [joinWith, renderAll]

end

end Predicate

theorem Predicate.columnsOfAll_eq (ps : List Predicate) : columnsOfAll ps = ps.flatMap columns := by
  induction ps with
  | nil => rfl
  | cons p rest ih => rw [columnsOfAll, ih, List.flatMap_cons]

/-! ## Plans -/

namespace Plan

/-- How often the body of the queries names the root: where it is declared, and for each join and each condition that
starts from it. -/
def rootPlaces (p : Plan) : Nat :=
  1 + Column.rooted (p.joins.map Join.source) + Column.rooted (p.predicates.flatMap Predicate.columns)

theorem isTemplate_joins (p : Plan) : IsTemplate (Column.rooted (p.joins.map Join.source)) fun root =>
    p.joins.flatMap fun j => ("\n\t" : Text) ++ j.render root := by
  rw [← Column.sum_rooted]
  exact IsTemplate.flatMap fun j _ => (j.isTemplate_render.between "\n\t" []).congr fun root => by
    rw [List.append_nil]

theorem isTemplate_filter (p : Plan) : IsTemplate (Column.rooted (p.predicates.flatMap Predicate.columns)) fun root =>
    match p.filterText? root with
    | some text => ("\nWHERE\n\t" : Text) ++ text
    | none => [] := by
  by_cases h : p.predicates = []
  · have hnone : ∀ root, p.filterText? root = none := fun root => by rw [filterText?, h]; rfl
    rw [h]
    exact (IsTemplate.const []).congr fun root => by rw [hnone]
  · rw [← Predicate.columnsOfAll_eq]
    refine ((Predicate.isTemplate_renderAll (" " ++ p.combinator.name ++ "\n\t") p.predicates).between
      "\nWHERE\n\t" []).congr fun root => ?_
    rw [filterText?, if_neg (mt List.isEmpty_iff.mp h), List.append_nil]

/-- The body of the queries has no places for the alias of the root but these. -/
theorem isTemplate_bodyText (p : Plan) : IsTemplate p.rootPlaces p.bodyText := by
  refine (((IsTemplate.place.between ("FROM " ++ p.entityClass ++ " ") []).append p.isTemplate_joins).append
    p.isTemplate_filter).congr fun root => ?_
  rw [List.append_nil]
  rfl

/-- What selects columns: the columns, and the body of the query. -/
def selecting (columns body : Text) : Text :=
  "SELECT\n\t" ++ columns ++ "\n" ++ body

/-- All queries of the plan have the fragments for their body: with the alias of the root where they are queries of
their own, and with that of the nested root where they are nested. -/
structure SharesBody (p : Plan) (fragments : List Text) : Prop where
  body : ∀ root, p.bodyText root = joinWith root fragments
  find : ∃ order : Text, (p.order = [] → order = []) ∧ p.findText =
    selecting (joinWith ", " (p.properties.map fun name => rootAlias ++ "." ++ name)) (joinWith rootAlias fragments) ++
      order
  count : p.countText = selecting ("COUNT(" ++ rootAlias ++ ".id)") (joinWith rootAlias fragments)
  subquery : ∀ property, property.isIdentifier → p.subqueryText property =
    .ok (selecting (p.subqueryRoot ++ "." ++ property) (joinWith p.subqueryRoot fragments))
  subquery_error : ∀ property, ¬ property.isIdentifier →
    p.subqueryText property = .error (.invalidArgument property .badSubquery)
  subSelect : ∀ s ∈ p.subSelects, ∃ head, p.subSelectText? s.token =
    some (head ++ selecting (p.subqueryRoot ++ "." ++ idProperty) (joinWith p.subqueryRoot fragments) ++ ")")
  metadata : ∀ className, p.metadata ≠ [] → p.metadataClass? = some className → ∃ head, p.metadataText? =
    some (head ++ selecting (p.subqueryRoot ++ "." ++ idProperty) (joinWith p.subqueryRoot fragments) ++ ")")

theorem nestedText_eq (p : Plan) (property : Text) :
    p.nestedText property = selecting (p.subqueryRoot ++ "." ++ property) (p.bodyText p.subqueryRoot) := by
  show ("SELECT\n\t" ++ p.subqueryRoot ++ "." ++ property ++ "\n" ++ p.bodyText p.subqueryRoot : Text) =
    "SELECT\n\t" ++ (p.subqueryRoot ++ "." ++ property) ++ "\n" ++ p.bodyText p.subqueryRoot
  simp only [List.append_assoc]

/-- The query behind a token nests that of the identifiers. -/
theorem exists_subSelectText? (p : Plan) {s : SubSelect} (hs : s ∈ p.subSelects) :
    ∃ head, p.subSelectText? s.token = some (head ++ p.nestedText idProperty ++ ")") := by
  obtain ⟨found, hfound⟩ : ∃ found, (p.subSelects.find? fun t => t.token = s.token) = some found :=
    Option.isSome_iff_exists.mp (List.find?_isSome.mpr ⟨s, hs, decide_eq_true rfl⟩)
  obtain ⟨head, htext⟩ : ∃ head, p.memberText found = head ++ p.nestedText idProperty ++ ")" := ⟨_, rfl⟩
  exact ⟨head, by rw [subSelectText?, hfound, Option.map_some, htext]⟩

/-- The query for metadata nests it too. -/
theorem exists_metadataText? (p : Plan) (h : p.metadata ≠ []) {className : Text}
    (hc : p.metadataClass? = some className) :
    ∃ head, p.metadataText? = some (head ++ p.nestedText idProperty ++ ")") := by
  obtain ⟨head, htext⟩ : ∃ head : Text → Text, p.metadataText? =
      if p.metadata.isEmpty then none
      else p.metadataClass?.map fun className => head className ++ p.nestedText idProperty ++ ")" := ⟨_, rfl⟩
  exact ⟨head className, by rw [htext, if_neg (mt List.isEmpty_iff.mp h), hc, Option.map_some]⟩

/-- **All queries of a plan have the same filter**: there are fragments of text that make up the body of each query,
with the alias of its root in all places between them, and there is a place for the declaration of the root and one for
each join and each condition that starts from it. -/
theorem exists_sharesBody (p : Plan) : ∃ fragments, fragments.length = p.rootPlaces + 1 ∧ p.SharesBody fragments := by
  obtain ⟨fragments, hlength, hbody⟩ := p.isTemplate_bodyText
  have hnested : ∀ property, p.nestedText property =
      selecting (p.subqueryRoot ++ "." ++ property) (joinWith p.subqueryRoot fragments) := fun property => by
    rw [nestedText_eq, hbody]
  refine ⟨fragments, hlength, {
    body := hbody, find := ?_, count := ?_, subquery := ?_, subquery_error := ?_, subSelect := ?_, metadata := ?_ }⟩
  · refine ⟨if p.order.isEmpty then [] else "\nORDER BY " ++ joinWith ", " (p.order.map (OrderBy.render rootAlias)),
      fun h => by rw [h]; rfl, ?_⟩
    rw [← hbody]
    rfl
  · rw [← hbody]
    rfl
  · intro property h
    rw [subqueryText, if_pos h, hnested]
  · intro property h
    rw [subqueryText, if_neg h]
  · intro s hs
    rw [← hnested]
    exact p.exists_subSelectText? hs
  · intro className h hc
    rw [← hnested]
    exact p.exists_metadataText? h hc

end Plan

end FilterPlan
