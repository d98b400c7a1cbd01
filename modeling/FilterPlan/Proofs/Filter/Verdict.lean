import FilterPlan.Proofs.Filter.Positions
import FilterPlan.Proofs.Text.Segments

/-!
# What reading ends with

Reading a text ends with a well-formed filter of limited depth, or with a rejection. What is rejected is the text, an
expression inside it, which is a part of it but for dropped characters (`sublist_of_read`), or the use of a name. The
error names the key whatever is rejected (`parse_verdict`).
-/

namespace FilterPlan.Filter

open scoped List

variable {key t : Text}

/-- Each member of a group is a part of the expression of the group, but for dropped backslashes. -/
theorem sublist_of_mem_members {s inner rest : Text} {head : Head} (hh : Head.ofText? t = some head)
    (he : Text.enclosed? head.rest = some (inner, rest)) (hs : s ∈ inner.segments) : s <+ t := by
  obtain ⟨lead, -, rfl⟩ := Head.lead_of_ofText? hh
  obtain ⟨hrest, -⟩ := Text.enclosed?_eq_some_iff.mp he
  have hinner : inner <+ head.rest := hrest ▸ List.sublist_append_left inner _
  exact (Text.sublist_of_mem_segments hs).trans ((hinner.cons _).trans (List.sublist_append_right lead _))

/-- A rejection is about the expression itself, or about a member of it. -/
theorem cases_of_read_eq_error {room : Nat} {r : Rejection} (h : read room t = .error r) :
    r = .malformed t ∨ (∃ cause, r = .misuse cause) ∨
      ∃ less s, room = less + 1 ∧ s <+ t ∧ read less s = .error r := by
  unfold read at h
  split at h
  · cases h
    exact Or.inl rfl
  next head hh =>
  split at h
  · cases h
    exact Or.inl rfl
  next inner rest he =>
  split at h
  · cases h
    exact Or.inl rfl
  · split at h
    · cases h
      exact Or.inr (Or.inl ⟨_, rfl⟩)
    · cases h
  · split at h
    · cases h
      exact Or.inr (Or.inl ⟨_, rfl⟩)
    next less =>
    split at h
    · next r' hr =>
      cases h
      rw [← Outcome.error?_eq_some_iff, Outcome.error?_mapM] at hr
      obtain ⟨s, hs, hread⟩ := List.exists_of_findSome?_eq_some hr
      refine Or.inr (Or.inr ⟨less, s, rfl, sublist_of_mem_members hh he hs, ?_⟩)
      exact Outcome.error?_eq_some_iff.mp hread
    · cases h
      exact Or.inr (Or.inl ⟨_, rfl⟩)
    · cases h

/-- The expression that a rejection is about is a part of the text, but for dropped backslashes. -/
theorem sublist_of_read : ∀ {room : Nat} {t expression : Text}, read room t = .error (.malformed expression) →
    expression <+ t
  | room, t, expression, h => by
    rcases cases_of_read_eq_error h with he | ⟨cause, he⟩ | ⟨less, s, rfl, hs, hread⟩
    · cases he
      exact List.Sublist.refl t
    · cases he
    · exact (sublist_of_read hread).trans hs
  termination_by room => room

theorem parse_eq_error_iff {e : QueryError} : parse key t = .error e ↔
    (maxExpressionSize < t.byteSize ∧ e = .invalidArgument key .tooLong) ∨
      t.byteSize ≤ maxExpressionSize ∧ ∃ r, read (maxExpressionDepth - 1) t = .error r ∧ e = r.toError key := by
  unfold parse
  split
  · next h => simp [h, Nat.not_le.mpr h, eq_comm]
  · next h =>
    cases hr : read (maxExpressionDepth - 1) t with
    | error r => simp [Except.mapError, h, Nat.not_lt.mp h, eq_comm]
    | ok f => simp [Except.mapError, h]

/-- **What is accepted, and what a rejection says.** An accepted text is not too long, and its filter has the operands
that its operators take, no empty group, and no more than 31 groups inside each other. Otherwise the error is about the
key, and if it shows an expression, this is not longer than the text. And reading never asks for a part of a text beyond
its end or inside a character, neither of the text nor of an expression inside it. -/
theorem parse_verdict (key t : Text) :
    (∀ f, parse key t = .ok f → t.byteSize ≤ 65536 ∧ f.WellFormed ∧ f.groupDepth ≤ 31) ∧
    (∀ e, parse key t = .error e → e.key = key ∧
      ((∃ expression, e = .invalidExpression key expression ∧ expression.length ≤ t.length) ∨
        ∃ cause, e = .invalidArgument key cause)) ∧
    ∀ room s, readAt room s = (read room s).mapError .rejected := by
  refine ⟨fun f h => ?_, fun e h => ?_, readAt_eq⟩
  · obtain ⟨hsize, hread⟩ := parse_eq_ok_iff.mp h
    exact ⟨hsize, wellFormed_of_read hread, groupDepth_le_of_read hread⟩
  · rcases parse_eq_error_iff.mp h with ⟨-, rfl⟩ | ⟨-, r, hread, rfl⟩
    · exact ⟨rfl, Or.inr ⟨_, rfl⟩⟩
    · cases r with
      | malformed expression =>
        exact ⟨rfl, Or.inl ⟨expression, rfl, (sublist_of_read hread).length_le⟩⟩
      | misuse cause => exact ⟨rfl, Or.inr ⟨cause, rfl⟩⟩

/-- A filter with every kind of operands, and a text with an expression of no known name inside a group. -/
theorem parse_verdict_mixed :
    (∃ f, parse "id" "OR(IN(1,@me),!BET(a,b),AND(NULL(),GEONEAR(1,2,3),LIKE(é*)))" = .ok f ∧ f.WellFormed ∧
      f.groupDepth ≤ 31) ∧
    parse "name" "OR(EQ(1),FOO(é\\,))" = .error (.invalidExpression "name" "FOO(é\\,)") ∧
    (QueryError.invalidExpression "name" "FOO(é\\,)").key = "name" := by
  obtain ⟨haccepts, -⟩ := parse_verdict "id" "OR(IN(1,@me),!BET(a,b),AND(NULL(),GEONEAR(1,2,3),LIKE(é*)))"
  obtain ⟨-, hrejects, -⟩ := parse_verdict "name" "OR(EQ(1),FOO(é\\,))"
  have hparse : parse "id" "OR(IN(1,@me),!BET(a,b),AND(NULL(),GEONEAR(1,2,3),LIKE(é*)))" = .ok (group .or false
      [comparison .oneOf false [.scalar "1", .currentUser], comparison .between true [.scalar "a", .scalar "b"],
        group .and false [comparison .null false [],
          comparison .near false [.scalar "1", .scalar "2", .scalar "3"], comparison .like false [.scalar "é%"]]]) := rfl
  have herror : parse "name" "OR(EQ(1),FOO(é\\,))" = .error (.invalidExpression "name" "FOO(é\\,)") := rfl
  exact ⟨⟨_, hparse, (haccepts _ hparse).2⟩, herror, (hrejects _ herror).1⟩

end FilterPlan.Filter
