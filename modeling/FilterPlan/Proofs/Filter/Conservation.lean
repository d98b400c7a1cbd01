import FilterPlan.Proofs.Filter.Members
import FilterPlan.Proofs.Filter.Scalars
import FilterPlan.Proofs.Text.Rejoining
import Mathlib.Algebra.BigOperators.Group.List.Basic
import Mathlib.Algebra.GroupWithZero.Nat
import Mathlib.Algebra.Order.BigOperators.Group.List
import Mathlib.Algebra.Order.Group.Nat

/-!
# Reading does not amplify

A list is taken apart into segments that have no more bytes together than the list (`Text.sum_byteSize_segments_le`). So
the expressions that are read next inside an expression are shorter than it, and all together fit into its parentheses
(`CallsShrink`); and whatever is counted of the operands stays within the size of the expression if it does so for one
comparison (`sum_weights_le_of_read`). Counted are their number, which is that of the parameters that compilation binds,
and the bytes of the scalars (`parse_conserves`). The parameters of a plan are limited by the configuration
(`Plan.size_params_le`).
-/

namespace FilterPlan

open scoped List

/-! ## Sizes of segments -/

namespace Text

theorem byteSize_le_of_sublist {s t : Text} (h : s <+ t) : s.byteSize ≤ t.byteSize := by
  induction h with
  | slnil => exact Nat.le_refl 0
  | cons c _ ih =>
    rw [byteSize_cons]
    exact Nat.le_add_left_of_le ih
  | cons_cons c _ ih =>
    rw [byteSize_cons, byteSize_cons]
    exact Nat.add_le_add_left ih _

theorem byteSize_flatten (texts : List Text) : byteSize texts.flatten = (texts.map byteSize).sum := by
  induction texts with
  | nil => rfl
  | cons t rest ih => rw [List.flatten_cons, byteSize_append, ih, List.map_cons, List.sum_cons]

/-- Taking a list apart only drops characters. -/
theorem sum_byteSize_segments_le (t : Text) : ((segments t).map byteSize).sum ≤ t.byteSize := by
  rw [← byteSize_flatten]
  exact byteSize_le_of_sublist (flatten_segments_sublist t)

theorem byteSize_le_of_mem_segments {s t : Text} (h : s ∈ segments t) : s.byteSize ≤ t.byteSize :=
  byteSize_le_of_sublist (sublist_of_mem_segments h)

/-- No segment is empty, so that there are at most as many as bytes. -/
theorem length_segments_le (t : Text) : (segments t).length ≤ t.byteSize := by
  have hpos : ∀ n ∈ (segments t).map byteSize, 1 ≤ n := by
    rw [List.forall_mem_map]
    intro s hs
    exact Nat.le_trans (List.length_pos_iff.mpr ((areSegments_segments t).1 s hs)) (length_le_byteSize s)
  have hcount := List.length_le_sum_of_one_le _ hpos
  rw [List.length_map] at hcount
  exact Nat.le_trans hcount (sum_byteSize_segments_le t)

end Text

namespace Filter

/-! ## The calls of the reader -/

/-- Reads an expression as `read` does, but leaves the members of a group to another reader. -/
def readWith (reader : Nat → Text → Except Rejection Filter) (room : Nat) (t : Text) : Except Rejection Filter :=
  match Head.ofText? t with
  | none => .error (.malformed t)
  | some head =>
    match Text.enclosed? head.rest with
    | none => .error (.malformed t)
    | some (inner, _) =>
      match Symbol.ofName? head.name with
      | none => .error (.malformed t)
      | some (.operator op) =>
        match operands op inner with
        | .error cause => .error (.misuse cause)
        | .ok args => .ok (comparison op head.negated args)
      | some (.connective op) =>
        match room with
        | 0 => .error (.misuse .tooDeep)
        | room + 1 =>
          match inner.segments.mapM (reader room) with
          | .error rejection => .error rejection
          | .ok [] => .error (.misuse (.emptyGroup op))
          | .ok children => .ok (group op head.negated children)

/-- The text inside the parentheses of an expression. -/
def inside? (t : Text) : Option Text :=
  (Head.ofText? t).bind fun head => (Text.enclosed? head.rest).map Prod.fst

/-- The expressions that are read next inside an expression, each with the room that is left for it: the members of a
group that there is room for. -/
def calls (room : Nat) (t : Text) : List (Nat × Text) :=
  match room, Head.ofText? t with
  | less + 1, some head =>
    match Text.enclosed? head.rest, Symbol.ofName? head.name with
    | some (inner, _), some (.connective _) => inner.segments.map fun s => (less, s)
    | _, _ => []
  | _, _ => []

variable {room : Nat} {t : Text}

/-- Reading is reading with the members of a group left to itself. -/
theorem readWith_read : readWith read room t = read room t := by
  unfold readWith read
  rfl

/-- What is read depends on the other reader at the calls only. -/
theorem readWith_congr {reader reader' : Nat → Text → Except Rejection Filter}
    (h : ∀ call ∈ calls room t, reader call.1 call.2 = reader' call.1 call.2) :
    readWith reader room t = readWith reader' room t := by
  unfold readWith
  split
  · rfl
  next head hh =>
  split
  · rfl
  next inner rest he =>
  split
  · rfl
  · rfl
  next op hs =>
  cases room with
  | zero => rfl
  | succ less =>
    have hmembers : inner.segments.mapM (reader less) = inner.segments.mapM (reader' less) := by
      refine Outcome.mapM_congr fun s hmem => h (less, s) ?_
      simp only [calls, hh, he, hs]
      exact List.mem_map_of_mem hmem
    simp only [hmembers]

theorem byteSize_inside_lt {inner : Text} (h : inside? t = some inner) : inner.byteSize + 2 ≤ t.byteSize := by
  obtain ⟨head, hh, h⟩ := Option.bind_eq_some_iff.mp h
  obtain ⟨⟨inner, rest⟩, he, rfl⟩ := Option.map_eq_some_iff.mp h
  obtain ⟨lead, -, ht⟩ := Head.lead_of_ofText? hh
  have hopening : '('.utf8Size = 1 := rfl
  have hclosing : ')'.utf8Size = 1 := rfl
  rw [ht, (Text.enclosed?_eq_some_iff.mp he).1]
  simp only [Text.byteSize_append, Text.byteSize_cons]
  omega

theorem calls_eq (room : Nat) (t : Text) : calls room t = [] ∨ ∃ less inner, room = less + 1 ∧ inside? t = some inner ∧
    calls room t = inner.segments.map fun s => (less, s) := by
  unfold calls
  split
  · next less head hh =>
    split
    · next inner rest op he hs =>
      refine Or.inr ⟨less, inner, rfl, ?_, rfl⟩
      rw [inside?, hh, Option.bind_some, he]
      rfl
    · exact Or.inl rfl
  · exact Or.inl rfl

/-- The calls inside an expression: reading needs no others, each is on a shorter text, and together they are on no more
than what the parentheses enclose. -/
structure CallsShrink (room : Nat) (t : Text) : Prop where
  complete : ∀ reader, (∀ call ∈ calls room t, reader call.1 call.2 = read call.1 call.2) →
    readWith reader room t = read room t
  shorter : ∀ call ∈ calls room t, call.2.byteSize < t.byteSize
  conserved : ∀ inner, inside? t = some inner →
    ((calls room t).map fun call => call.2.byteSize).sum ≤ inner.byteSize

theorem callsShrink (room : Nat) (t : Text) : CallsShrink room t where
  complete reader h := by
    rw [readWith_congr h, readWith_read]
  shorter call hcall := by
    rcases calls_eq room t with h | ⟨less, inner, -, hinner, h⟩
    · rw [h] at hcall
      cases hcall
    · rw [h] at hcall
      obtain ⟨s, hs, rfl⟩ := List.mem_map.mp hcall
      have hsegment := Text.byteSize_le_of_mem_segments hs
      have hsize := byteSize_inside_lt hinner
      show s.byteSize < t.byteSize
      omega
  conserved inner hinner := by
    rcases calls_eq room t with h | ⟨less, inner', -, hinner', h⟩
    · rw [h]
      exact Nat.zero_le _
    · obtain rfl := Option.some.inj (hinner.symm.trans hinner')
      rw [h, List.map_map]
      exact Text.sum_byteSize_segments_le inner

/-! ## Counting operands -/

/-- The operands of a comparison are read from the text in its parentheses, or each from one of the segments. -/
theorem operands_cases {op : Operator} {inner : Text} {args : List Literal} (h : operands op inner = .ok args) :
    args = [] ∨ (∃ s, s.byteSize = inner.byteSize ∧ args = [Literal.ofText s]) ∨
      args = inner.segments.map Literal.ofText ∨ args = inner.segments.map .scalar := by
  cases op with
  | eq | gt | gte | lt | lte =>
    cases h
    exact Or.inr (Or.inl ⟨inner, rfl, rfl⟩)
  | like | ilike =>
    cases h
    refine Or.inr (Or.inl ⟨_, ?_, rfl⟩)
    induction inner with
    | nil => rfl
    | cons c inner ih =>
      rw [List.map_cons, Text.byteSize_cons, Text.byteSize_cons, ih]
      split
      · next hc => rw [hc]; rfl
      · rfl
  | null =>
    cases h
    exact Or.inl rfl
  | oneOf =>
    simp only [operands] at h
    split at h
    · cases h
    · cases h
      exact Or.inr (Or.inr (Or.inl rfl))
  | between =>
    simp only [operands] at h
    split at h
    · cases h
    split at h
    · cases h
    · cases h
      exact Or.inr (Or.inr (Or.inr rfl))
  | near =>
    simp only [operands] at h
    split at h
    · cases h
    · cases h
      exact Or.inr (Or.inr (Or.inl rfl))

theorem length_operands_le {op : Operator} {inner : Text} {args : List Literal} (h : operands op inner = .ok args) :
    args.length ≤ inner.byteSize + 1 := by
  have hsegments := Text.length_segments_le inner
  rcases operands_cases h with rfl | ⟨s, -, rfl⟩ | rfl | rfl
  · exact Nat.zero_le _
  · exact Nat.le_add_left _ _
  · rw [List.length_map]
    exact Nat.le_succ_of_le hsegments
  · rw [List.length_map]
    exact Nat.le_succ_of_le hsegments

/-- The number of bytes of a scalar. A reference has none. -/
def scalarSize : Literal → Nat
  | .scalar text => text.byteSize
  | _ => 0

theorem scalarSize_ofText_le (t : Text) : scalarSize (Literal.ofText t) ≤ t.byteSize := by
  cases h : Literal.ofText t with
  | scalar s =>
    obtain ⟨rfl, -⟩ := Literal.ofText_eq_scalar_iff.mp h
    exact Nat.le_refl _
  | currentUser | userProperty | userProfile | lookup | unresolvable => exact Nat.zero_le _

theorem sum_scalarSize_operands_le {op : Operator} {inner : Text} {args : List Literal}
    (h : operands op inner = .ok args) : (args.map scalarSize).sum ≤ inner.byteSize := by
  have hsegments : ∀ {toLiteral : Text → Literal}, (∀ s, scalarSize (toLiteral s) ≤ s.byteSize) →
      ((inner.segments.map toLiteral).map scalarSize).sum ≤ inner.byteSize := fun hle => by
    rw [List.map_map]
    exact (List.sum_le_sum fun s _ => hle s).trans (Text.sum_byteSize_segments_le inner)
  rcases operands_cases h with rfl | ⟨s, hs, rfl⟩ | rfl | rfl
  · exact Nat.zero_le _
  · rw [List.map_singleton, List.sum_singleton, ← hs]
    exact scalarSize_ofText_le s
  · exact hsegments scalarSize_ofText_le
  · exact hsegments fun s => Nat.le_refl _

/-- What is counted of the operands is within the size of the expression, if it is so for each comparison. -/
theorem sum_weights_le_of_read {w : Literal → Nat}
    (hw : ∀ {op inner args}, operands op inner = .ok args → (args.map w).sum ≤ inner.byteSize + 1) :
    ∀ {room : Nat} {t : Text} {f : Filter}, read room t = .ok f → (f.literals.map w).sum ≤ t.byteSize
  | room, t, f, h => by
    obtain ⟨head, inner, rest, hh, he, hbody⟩ := read_eq_ok_iff.mp h
    have hinside : inside? t = some inner := by
      rw [inside?, hh, Option.bind_some, he]
      rfl
    have hsize := byteSize_inside_lt hinside
    rcases hbody with ⟨op, args, -, ha, rfl⟩ | ⟨op, less, children, -, rfl, hc, -, rfl⟩
    · have hargs := hw ha
      rw [literals]
      omega
    · have hmembers : List.Forall₂ (· ≤ ·) (children.map fun c => (c.literals.map w).sum)
          (inner.segments.map Text.byteSize) := by
        rw [List.forall₂_map_left_iff, List.forall₂_map_right_iff]
        exact (hc.imp fun s c hs => sum_weights_le_of_read hw hs).flip
      calc ((group op head.negated children).literals.map w).sum
          = (children.map fun c => (c.literals.map w).sum).sum := by
            rw [literals, literalsOfAll_eq, List.map_flatMap, List.flatMap, List.sum_flatten, List.map_map]
            rfl
        _ ≤ (inner.segments.map Text.byteSize).sum := hmembers.sum_le_sum
        _ ≤ inner.byteSize := Text.sum_byteSize_segments_le inner
        _ ≤ t.byteSize := by omega
  termination_by room => room

/-- An expression has no more operands than bytes. -/
theorem length_literals_le_of_read {room : Nat} {t : Text} {f : Filter} (h : read room t = .ok f) :
    f.literals.length ≤ t.byteSize := by
  have hcount : ∀ args : List Literal, (args.map fun _ => 1).sum = args.length := fun args => by
    rw [List.map_const', List.sum_replicate_nat, Nat.mul_one]
  have hle := sum_weights_le_of_read (w := fun _ => 1) (fun ha => (hcount _).trans_le (length_operands_le ha)) h
  rwa [hcount] at hle

/-- **Reading and compiling do not amplify an expression.** It binds at most as many parameters as it has bytes, and its
scalars have no more bytes together. All calls of the reader, at whatever expression, are on shorter ones that fit into
its parentheses together. -/
theorem parse_conserves {key t : Text} {f : Filter} (h : parse key t = .ok f) :
    (∀ resolver column table, ∃ count ≤ t.byteSize,
      (f.compile resolver column table).2.size = table.size + count) ∧
    (f.literals.map scalarSize).sum ≤ t.byteSize ∧
    ∀ room s, CallsShrink room s := by
  have hread := (parse_eq_ok_iff.mp h).2
  refine ⟨fun resolver column table => ⟨f.literals.length, length_literals_le_of_read hread, ?_⟩, ?_, callsShrink⟩
  · rw [compile_eq resolver column (wellFormed_of_parse h)]
    exact size_bound resolver f.literals table
  · exact sum_weights_le_of_read (fun ha => Nat.le_succ_of_le (sum_scalarSize_operands_le ha)) hread

/-- A group of a list and a range, with text behind it that is not read: its four scalars have seven bytes, and the calls
for its two members are on twenty of its twenty-seven. -/
theorem parse_conserves_lists : ∃ f, parse "id" "OR(IN(é,\\,),!BET(a\\(,b)),x" = .ok f ∧
    f.literals = [.scalar "é", .scalar ",", .scalar "a\\(", .scalar "b"] ∧
    (f.literals.map scalarSize).sum ≤ 27 ∧
    calls 31 "OR(IN(é,\\,),!BET(a\\(,b)),x" = [(30, ("IN(é,\\,)" : Text)), (30, ("!BET(a\\(,b)" : Text))] ∧
    CallsShrink 31 "OR(IN(é,\\,),!BET(a\\(,b)),x" := by
  have hparse : parse "id" "OR(IN(é,\\,),!BET(a\\(,b)),x" = .ok (group .or false
      [comparison .oneOf false [.scalar "é", .scalar ","], comparison .between true [.scalar "a\\(", .scalar "b"]]) := rfl
  obtain ⟨-, hscalars, hcalls⟩ := parse_conserves hparse
  exact ⟨_, hparse, rfl, hscalars, rfl, hcalls 31 _⟩

end Filter

end FilterPlan
