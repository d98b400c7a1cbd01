import FilterPlan.Proofs.Filter.Heads
import FilterPlan.Proofs.Filter.Reading
import FilterPlan.Proofs.Text.Agreement
import FilterPlan.Proofs.Text.Separable

/-!
# The members of a group

A group of expressions that are filters by themselves is read as the group of these filters, if the list of them can be
taken apart again (`parse_groupText`). It can be if the scan of the list is behind each of them where it was in front of
it. A closing parenthesis directly behind an even, positive number of backslashes keeps it inside the member, and the
next member is read as a part of this one and is lost.
-/

namespace FilterPlan.Filter

variable {key t : Text} {f : Filter}

/-! ## Expressions that are members -/

/-- The text is a filter by itself, with room for one more group around it, and it ends with the parenthesis that closes
its first one. -/
structure IsMember (key t : Text) (f : Filter) : Prop where
  parses : parse key t = .ok f
  depth : f.groupDepth ≤ maxExpressionDepth - 2
  closes : ∃ head inner, Head.ofText? t = some head ∧ Text.enclosed? head.rest = some (inner, [])

namespace IsMember

theorem reads (h : IsMember key t f) : read (maxExpressionDepth - 2) t = .ok f :=
  read_of_groupDepth_le (parse_eq_ok_iff.mp h.parses).2 h.depth

theorem eq_enclosed (h : IsMember key t f) :
    ∃ lead inner, (∀ c ∈ lead, IsInert c) ∧ Text.Nests 0 inner 0 ∧ t = lead ++ '(' :: (inner ++ [')']) := by
  obtain ⟨head, inner, hh, he⟩ := h.closes
  obtain ⟨lead, hlead, rfl⟩ := Head.lead_of_ofText? hh
  obtain ⟨hrest, hinner⟩ := Text.enclosed?_eq_some_iff.mp he
  exact ⟨lead, inner, hlead, hinner, by rw [hrest]⟩

theorem nests (h : IsMember key t f) : Text.Nests 0 t 0 := by
  obtain ⟨lead, inner, hlead, hinner, rfl⟩ := h.eq_enclosed
  refine .append (.of_plain fun c hc => ?_) hinner.enclose
  obtain ⟨h₁, h₂, h₃, -⟩ := hlead c hc
  exact ⟨h₁, h₂, h₃⟩

theorem isElement (h : IsMember key t f) : Text.IsElement t := by
  obtain ⟨lead, inner, hlead, -, rfl⟩ := h.eq_enclosed
  refine ⟨by simp, fun he => ?_, fun hs => ?_⟩
  · cases lead with
    | nil => cases he
    | cons c lead => exact (hlead c List.mem_cons_self).2.2.2 (Option.some.inj he)
  · obtain ⟨s, hs⟩ := hs
    have hends : s ++ ['\\'] = (lead ++ '(' :: inner) ++ [')'] := by
      rw [hs, List.append_assoc, List.cons_append]
    exact absurd (List.append_inj' hends rfl).2 (by decide)

/-- Behind a member without disputed opening parentheses the scan of a list is deeper by the number of disputed closing
ones. -/
theorem depthAfter? (h : IsMember key t f) (hno : Text.disputed '(' t = 0) (d : Nat) :
    Text.depthAfter? d t = some (d + Text.disputed ')' t) := by
  obtain ⟨lead, inner, hlead, hinner, rfl⟩ := h.eq_enclosed
  have hbackslash : '\\' ∉ lead := fun hm => (hlead _ hm).1 rfl
  have hskip : ∀ {s : Text}, (∀ c ∈ s, c ∈ lead) → ∀ u, Text.depthAfter? d (s ++ u) = Text.depthAfter? d u := by
    intro s hs u
    induction s with
    | nil => rfl
    | cons c s ih =>
      obtain ⟨h₁, h₂, h₃, h₄⟩ := hlead c (hs c List.mem_cons_self)
      rw [List.cons_append, Text.depthAfter?_plain (Text.isPlain_of_ne h₁ h₂ h₃ h₄ _)]
      exact ih fun c hc => hs c (List.mem_cons_of_mem _ hc)
  rw [Text.disputed_append hbackslash, Text.disputed_cons (by decide)] at hno ⊢
  have hscan := Text.depthAfter?_of_nests hinner hno d []
  rw [Nat.zero_add] at hscan
  rw [hskip fun c hc => hc]
  exact hscan

end IsMember

/-! ## Groups of members -/

/-- The expression of a group, from the expressions of its members. -/
def groupText (op : Connective) (negated : Bool) (texts : List Text) : Text :=
  (if negated then ['!'] else []) ++ op.name ++ '(' :: (Text.joinWith "," texts ++ [')'])

theorem nests_joinWith : ∀ {texts : List Text}, (∀ t ∈ texts, Text.Nests 0 t 0) →
    Text.Nests 0 (Text.joinWith "," texts) 0
  | [], _ => .nil 0
  | [t], h => by
    rw [Text.joinWith, List.intercalate_singleton]
    exact h t List.mem_cons_self
  | t :: t' :: rest, h => by
    rw [Text.joinWith_cons_cons]
    refine (h t List.mem_cons_self).append (.plain (by decide) (by decide) (by decide) ?_)
    exact nests_joinWith fun s hs => h s (List.mem_cons_of_mem t hs)

theorem ofText?_groupText (op : Connective) (negated : Bool) (texts : List Text) :
    Head.ofText? (groupText op negated texts) = some ⟨negated, op.name, Text.joinWith "," texts ++ [')']⟩ := by
  cases op with
  | and =>
    cases negated with
    | false => rfl
    | true => rfl
  | or =>
    cases negated with
    | false => rfl
    | true => rfl

theorem ofName?_name (op : Connective) : Symbol.ofName? op.name = some (.connective op) := by
  cases op with
  | and => rfl
  | or => rfl

variable {op : Connective} {negated : Bool} {texts : List Text} {members : List Filter}

/-- A group is read as the filters of the segments, if its parenthesis encloses the list. -/
theorem parse_groupText_eq_ok_iff (hnests : ∀ t ∈ texts, Text.Nests 0 t 0)
    (hsize : (groupText op negated texts).byteSize ≤ maxExpressionSize) (hne : members ≠ []) :
    parse key (groupText op negated texts) = .ok (group op negated members) ↔
      List.Forall₂ (fun s c => read (maxExpressionDepth - 2) s = .ok c) (Text.joinWith "," texts).segments members := by
  have henclosed : Text.enclosed? (Text.joinWith "," texts ++ [')']) = some (Text.joinWith "," texts, []) :=
    Text.enclosed?_eq_some_iff.mpr ⟨rfl, nests_joinWith hnests⟩
  rw [parse_eq_ok_iff, read_eq_ok_iff, ofText?_groupText]
  constructor
  · rintro ⟨-, head, inner, rest, hh, he, hbody⟩
    obtain rfl := Option.some.inj hh
    obtain ⟨rfl, -⟩ := Prod.mk.inj (Option.some.inj (henclosed.symm.trans he))
    rcases hbody with ⟨op', args, -, -, hf⟩ | ⟨op', less, children, hs, hroom, hc, -, hf⟩
    · cases hf
    · cases hf
      obtain rfl : maxExpressionDepth - 2 = less := Nat.succ.inj hroom
      exact hc
  · intro hc
    exact ⟨hsize, _, _, _, rfl, henclosed, Or.inr ⟨op, _, members, ofName?_name op, rfl, hc, hne, rfl⟩⟩

theorem separable_iff_disputed : ∀ {texts : List Text},
    (∀ t ∈ texts, ∀ d, Text.depthAfter? d t = some (d + Text.disputed ')' t)) →
    (Text.separable texts ↔ ∀ t ∈ texts.dropLast, Text.disputed ')' t = 0)
  | [], _ => by simp [Text.separable]
  | [t], h => by simp [Text.separable, h t List.mem_cons_self]
  | t :: t' :: rest, h => by
    have hrest : ∀ s ∈ t' :: rest, ∀ d, Text.depthAfter? d s = some (d + Text.disputed ')' s) := fun s hs =>
      h s (List.mem_cons_of_mem t hs)
    have ih := separable_iff_disputed hrest
    rw [Text.separable, Bool.and_eq_true, ih, h t List.mem_cons_self, beq_iff_eq, Nat.zero_add, Option.some.injEq,
      List.dropLast_cons_cons, List.forall_mem_cons]
    exact fun h => List.cons_ne_nil _ _ h

/-- **When a group has the filters of its members.** Expressions that are filters by themselves, joined by commas and
put in the parentheses of a group, are read as the group of these filters exactly where the segments of the list are
read as them. The segments are the expressions exactly where the list is separable, which is enough. It is necessary
where the scan of the list meets no comma at depth zero inside an expression, as where no opening parenthesis is
disputed; there it means that only the last expression has disputed closing ones. -/
theorem parse_groupText (h : List.Forall₂ (IsMember key) texts members) (hne : texts ≠ [])
    (hsize : (groupText op negated texts).byteSize ≤ maxExpressionSize) :
    (parse key (groupText op negated texts) = .ok (group op negated members) ↔
      List.Forall₂ (fun s c => read (maxExpressionDepth - 2) s = .ok c) (Text.joinWith "," texts).segments members) ∧
    ((Text.joinWith "," texts).segments = texts ↔ Text.separable texts) ∧
    (Text.separable texts → parse key (groupText op negated texts) = .ok (group op negated members)) ∧
    ((∀ t ∈ texts, (Text.depthAfter? 0 t).isSome) →
      (parse key (groupText op negated texts) = .ok (group op negated members) ↔ Text.separable texts)) ∧
    ((∀ t ∈ texts, Text.disputed '(' t = 0) →
      (parse key (groupText op negated texts) = .ok (group op negated members) ↔
        ∀ t ∈ texts.dropLast, Text.disputed ')' t = 0)) := by
  have hmember : ∀ t ∈ texts, ∃ f, IsMember key t f := fun t ht => by
    obtain ⟨f, -, hf⟩ := Outcome.exists_of_mem_right (List.Forall₂.flip (R := fun f t => IsMember key t f) h) ht
    exact ⟨f, hf⟩
  have hnests : ∀ t ∈ texts, Text.Nests 0 t 0 := fun t ht => by
    obtain ⟨f, hf⟩ := hmember t ht
    exact hf.nests
  have helement : ∀ t ∈ texts, Text.IsElement t := fun t ht => by
    obtain ⟨f, hf⟩ := hmember t ht
    exact hf.isElement
  have hne' : members ≠ [] := by
    rintro rfl
    exact hne (List.forall₂_nil_right_iff.mp h)
  have hparse : parse key (groupText op negated texts) = .ok (group op negated members) ↔
      List.Forall₂ (fun s c => read (maxExpressionDepth - 2) s = .ok c) (Text.joinWith "," texts).segments members :=
    parse_groupText_eq_ok_iff hnests hsize hne'
  have hsegments := Text.segments_join_eq_iff helement
  have hseparable : Text.separable texts → parse key (groupText op negated texts) = .ok (group op negated members) := by
    intro hs
    rw [hparse, hsegments.mpr hs]
    exact h.imp fun _ _ hm => hm.reads
  have huncut : (∀ t ∈ texts, (Text.depthAfter? 0 t).isSome) →
      (parse key (groupText op negated texts) = .ok (group op negated members) ↔ Text.separable texts) := by
    refine fun hsome => ⟨fun hp => ?_, hseparable⟩
    refine Text.separable_of_length (fun t ht => ⟨helement t ht, hsome t ht⟩) ?_
    rw [(hparse.mp hp).length_eq, h.length_eq]
  refine ⟨hparse, hsegments, hseparable, huncut, fun hno => ?_⟩
  have hdepth : ∀ t ∈ texts, ∀ d, Text.depthAfter? d t = some (d + Text.disputed ')' t) := fun t ht d => by
    obtain ⟨f, hf⟩ := hmember t ht
    exact hf.depthAfter? (hno t ht) d
  rw [huncut fun t ht => by rw [hdepth t ht]; rfl]
  exact separable_iff_disputed hdepth

/-- Two members, the first one with a disputed parenthesis: the second one is lost. -/
theorem parse_groupText_backslashes :
    parse "id" (groupText .or false ["EQ(\\\\)", "EQ(2)"]) =
      .ok (group .or false [comparison .eq false [.scalar "\\\\"]]) ∧
    parse "id" (groupText .or false ["EQ(\\\\)", "EQ(2)"]) ≠
      .ok (group .or false [comparison .eq false [.scalar "\\\\"], comparison .eq false [.scalar "2"]]) ∧
    parse "id" (groupText .or false ["EQ(2)", "EQ(\\\\)"]) =
      .ok (group .or false [comparison .eq false [.scalar "2"], comparison .eq false [.scalar "\\\\"]]) := by
  have hfirst : IsMember "id" "EQ(\\\\)" (comparison .eq false [.scalar "\\\\"]) :=
    ⟨rfl, by decide, ⟨false, "EQ", "\\\\)"⟩, "\\\\", rfl, rfl⟩
  have hsecond : IsMember "id" "EQ(2)" (comparison .eq false [.scalar "2"]) :=
    ⟨rfl, by decide, ⟨false, "EQ", "2)"⟩, "2", rfl, rfl⟩
  refine ⟨rfl, ?_, ?_⟩
  · have hsize : (groupText .or false ["EQ(\\\\)", "EQ(2)"]).byteSize ≤ maxExpressionSize := by decide
    rw [Ne, (parse_groupText (.cons hfirst (.cons hsecond .nil)) (List.cons_ne_nil _ _) hsize).2.2.2.2 (by decide)]
    decide
  · exact (parse_groupText (.cons hsecond (.cons hfirst .nil)) (List.cons_ne_nil _ _) (by decide)).2.2.1 rfl

end FilterPlan.Filter
