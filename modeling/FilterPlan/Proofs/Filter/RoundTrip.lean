import FilterPlan.Proofs.Filter.Members
import FilterPlan.Proofs.Filter.Writing

/-!
# Reading what is written

Reading undoes writing: whatever written form a filter has, it is read as the filter (`parse_of_isWritten`). An escaped
comma passes the scan of every group around its list with the backslash, and the scan of the list drops it, because what
a parenthesis encloses nests and has backslashes in front of commas only (`isExpression_of_isWritten`).
-/

namespace FilterPlan

open Text (Nests EscapesCommas Passes)

/-! ## Names -/

theorem Operator.isWord_name (op : Operator) : op.name.IsWord := by
  cases op <;> exact ⟨List.cons_ne_nil _ _, List.all_eq_true.mp rfl⟩

theorem Connective.isWord_name (op : Connective) : op.name.IsWord := by
  cases op <;> exact ⟨List.cons_ne_nil _ _, List.all_eq_true.mp rfl⟩

theorem Symbol.ofName?_operator {word : Text} {op : Operator} (h : word.upper = op.name) :
    ofName? word = some (.operator op) := by
  unfold ofName?
  rw [h]
  cases op <;> rfl

theorem Symbol.ofName?_connective {word : Text} {op : Connective} (h : word.upper = op.name) :
    ofName? word = some (.connective op) := by
  unfold ofName?
  rw [h]
  cases op <;> rfl

namespace Filter

/-! ## Heads -/

theorem Head.ofText?_lead {negated : Bool} {name lead : Text} (hname : name.IsWord) (h : IsLead negated name lead)
    (rest : Text) : ∃ word, word.upper = name ∧ Head.ofText? (lead ++ '(' :: rest) = some ⟨negated, word, rest⟩ := by
  obtain @⟨before, after, word, hupper⟩ := h
  have hword : word.IsWord := Text.isWord_of_upper hupper hname
  exact ⟨word, hupper, @Head.ofText?_text ⟨negated, word, rest⟩ hword before after⟩

theorem isInert_of_isLead {negated : Bool} {name lead : Text} (hname : name.IsWord) (h : IsLead negated name lead) :
    ∀ c ∈ lead, IsInert c := by
  obtain ⟨before, after, hupper⟩ := h
  exact isInert_leadText (Text.isWord_of_upper hupper hname) negated before after

/-! ## Operands -/

/-- What holds of the items that are not empty holds of all, if it holds of the empty text. -/
theorem forall_items {P : Text → Prop} {items : List Text} (hnil : P [])
    (h : ∀ t ∈ items.filter (!·.isEmpty), P t) : ∀ t ∈ items, P t := by
  intro t ht
  by_cases he : t = []
  · exact he ▸ hnil
  · exact h t (List.mem_filter.mpr ⟨ht, by simpa using he⟩)

section Operands

variable {op : Operator} {args : List Literal} {inner : Text}

theorem segments_of_list (hwritable : ∀ a ∈ args, a.IsWritable) (hne : ∀ a ∈ args, a.text ≠ []) {items : List Text}
    (hitems : items.filter (!·.isEmpty) = args.map fun a => Text.escaped a.text) :
    (Text.joinWith "," items).segments = args.map Literal.text :=
  Text.segments_items hitems fun a ha =>
    ⟨Text.passes_escaped (hwritable a ha).nests (hwritable a ha).backslash_not_mem, hne a ha⟩

/-- What is written for operands is read as them. -/
theorem operands_of_isOperands (h : IsOperands op args inner) (htakes : op.Takes args)
    (hwritable : ∀ a ∈ args, a.IsWritable) (hallows : ∀ t, .scalar t ∈ args → op.Allows t) :
    operands op inner = .ok args := by
  have hread : (args.map Literal.text).map Literal.ofText = args := by
    rw [List.map_map]
    exact (List.map_congr_left fun a ha => Literal.ofText_text (hwritable a ha)).trans (List.map_id' args)
  cases h with
  | one hop h =>
    obtain ⟨a, rfl, rfl⟩ := List.map_eq_singleton_iff.mp h
    have ha := hwritable a List.mem_cons_self
    cases op with
    | eq | gt | gte | lt | lte => rw [operands, Literal.ofText_text ha]
    | like | ilike =>
      have hstar : '*' ∉ a.text := ha.not_mem_text rfl fun t ht => hallows t (List.mem_singleton.mpr ht.symm)
      have hsame : ∀ c ∈ a.text, (if c = '*' then '%' else c) = c := by
        intro c hc
        rw [if_neg]
        rintro rfl
        exact hstar hc
      have hmap : (a.text.map fun c => if c = '*' then '%' else c) = a.text := by
        rw [List.map_congr_left hsame, List.map_id']
      rw [operands, hmap, Literal.ofText_text ha]
    | oneOf | between | null | near => cases hop
  | @list hop items hitems h =>
    subst h
    have hsegments : (∀ t, .scalar t ∈ args → t ≠ []) → (Text.joinWith "," items).segments = args.map Literal.text :=
      fun hne => segments_of_list hwritable
        (fun a ha => (hwritable a ha).text_ne_nil fun t ht => hne t (ht ▸ ha)) hitems
    cases op with
    | oneOf =>
      have hnonempty : (args.map Literal.text).isEmpty = false := by
        rw [List.isEmpty_eq_false_iff, ne_eq, List.map_eq_nil_iff]
        exact htakes
      simp only [operands, hsegments hallows, hnonempty, Bool.false_eq_true, if_false, hread]
    | between =>
      obtain ⟨low, high, rfl⟩ := htakes
      have hlow : (low.head? == some '@') = false :=
        beq_eq_false_iff_ne.mpr (hwritable _ List.mem_cons_self).head?_ne
      have hhigh : (high.head? == some '@') = false :=
        beq_eq_false_iff_ne.mpr (hwritable _ (List.mem_cons_of_mem _ List.mem_cons_self)).head?_ne
      rw [operands, hsegments hallows]
      simp [hlow, hhigh]
    | null =>
      cases htakes
      rfl
    | near =>
      obtain ⟨longitude, latitude, radius, rfl⟩ := htakes
      rw [operands, hsegments hallows, hread]
      rfl
    | eq | gt | gte | lt | lte | like | ilike => cases hop

/-- What is in the parentheses of a comparison nests, and has backslashes in front of commas only. -/
theorem inner_of_isOperands (h : IsOperands op args inner) (hwritable : ∀ a ∈ args, a.IsWritable) :
    Nests 0 inner 0 ∧ EscapesCommas inner := by
  cases h with
  | one _ h =>
    obtain ⟨a, rfl, hinner⟩ := List.map_eq_singleton_iff.mp h
    have ha := hwritable a List.mem_cons_self
    exact ⟨hinner ▸ ha.nests, hinner ▸ Text.escapesCommas_of_not_mem ha.backslash_not_mem⟩
  | @list _ items hitems h =>
    subst h
    have hitem : ∀ item ∈ items, Nests 0 item 0 ∧ EscapesCommas item := by
      refine forall_items ⟨.nil 0, trivial⟩ ?_
      rw [hitems, List.forall_mem_map]
      intro a ha
      exact (hwritable a ha).nests.nests_escapedFrom (hwritable a ha).backslash_not_mem
    exact ⟨nests_joinWith fun t ht => (hitem t ht).1, .joinWith fun t ht => (hitem t ht).2⟩

end Operands

/-! ## Expressions -/

/-- The text is a name with parentheses, and what they enclose nests and has backslashes in front of commas only. -/
def IsExpression (t : Text) : Prop :=
  ∃ lead inner, (∀ c ∈ lead, IsInert c) ∧ Nests 0 inner 0 ∧ EscapesCommas inner ∧ t = lead ++ '(' :: (inner ++ [')'])

namespace IsExpression

variable {t : Text}

theorem ne_nil (h : IsExpression t) : t ≠ [] := by
  obtain ⟨lead, inner, -, -, -, rfl⟩ := h
  simp

theorem passes (h : IsExpression t) : Passes t t := by
  obtain ⟨lead, inner, hlead, hn, he, rfl⟩ := h
  exact Text.passes_enclosed hlead hn he

theorem nests (h : IsExpression t) : Nests 0 t 0 := by
  obtain ⟨lead, inner, hlead, hn, -, rfl⟩ := h
  exact .append (.of_plain fun c hc => ⟨(hlead c hc).1, (hlead c hc).2.1, (hlead c hc).2.2.1⟩) hn.enclose

theorem escapesCommas (h : IsExpression t) : EscapesCommas t := by
  obtain ⟨lead, inner, hlead, -, he, rfl⟩ := h
  have hplain : EscapesCommas lead := Text.escapesCommas_of_not_mem fun hm => (hlead _ hm).1 rfl
  exact hplain.append (EscapesCommas.append (s := ['(']) (by simp [EscapesCommas])
    (he.append (by simp [EscapesCommas])))

end IsExpression

/-- What is in the parentheses of a group nests, and has backslashes in front of commas only. -/
theorem inner_of_items {items : List Text} (h : ∀ t ∈ items.filter (!·.isEmpty), IsExpression t) :
    Nests 0 (Text.joinWith "," items) 0 ∧ EscapesCommas (Text.joinWith "," items) := by
  have hitem : ∀ item ∈ items, Nests 0 item 0 ∧ EscapesCommas item :=
    forall_items ⟨.nil 0, trivial⟩ fun t ht => ⟨(h t ht).nests, (h t ht).escapesCommas⟩
  exact ⟨nests_joinWith fun t ht => (hitem t ht).1, .joinWith fun t ht => (hitem t ht).2⟩

variable {f : Filter} {t : Text}

theorem isExpression_of_isWritten (hf : f.IsWritable) : ∀ {t : Text}, IsWritten f t → IsExpression t := by
  induction hf with
  | comparison _ hwritable =>
    intro t h
    cases h with
    | comparison hlead hinner h =>
      obtain ⟨hn, he⟩ := inner_of_isOperands hinner hwritable
      exact ⟨_, _, isInert_of_isLead (Operator.isWord_name _) hlead, hn, he, h⟩
  | group _ _ ih =>
    intro t h
    cases h with
    | group hlead hitems h =>
      obtain ⟨hn, he⟩ := inner_of_items fun s hs => by
        obtain ⟨c, hc, hcs⟩ := Outcome.exists_of_mem_right hitems hs
        exact ih c hc hcs
      exact ⟨_, _, isInert_of_isLead (Connective.isWord_name _) hlead, hn, he, h⟩

/-! ## Reading back -/

/-- A written form is read as its filter, if there is room for its groups. -/
theorem read_of_isWritten (hf : f.IsWritable) : ∀ {room : Nat} {t : Text}, IsWritten f t → f.groupDepth ≤ room →
    read room t = .ok f := by
  induction hf with
  | @comparison op negated args htakes hwritable hallows =>
    intro room t h _
    cases h with
    | @comparison _ _ _ _ lead inner hlead hinner h =>
      subst h
      obtain ⟨word, hword, hhead⟩ := Head.ofText?_lead op.isWord_name hlead (inner ++ [')'])
      have henclosed : Text.enclosed? (inner ++ [')']) = some (inner, []) :=
        Text.enclosed?_eq_some_iff.mpr ⟨rfl, (inner_of_isOperands hinner hwritable).1⟩
      refine read_eq_ok_iff.mpr ⟨_, inner, [], hhead, henclosed, Or.inl ⟨op, args, ?_, ?_, rfl⟩⟩
      · exact Symbol.ofName?_operator hword
      · exact operands_of_isOperands hinner htakes hwritable hallows
  | @group op negated children hne hmembers ih =>
    intro room t h hroom
    cases h with
    | @group _ _ _ _ lead items hlead hitems h =>
      subst h
      have hexpression : ∀ s ∈ items.filter (!·.isEmpty), IsExpression s := fun s hs => by
        obtain ⟨c, hc, hcs⟩ := Outcome.exists_of_mem_right hitems hs
        exact isExpression_of_isWritten (hmembers c hc) hcs
      have hsegments : (Text.joinWith "," items).segments = items.filter (!·.isEmpty) := by
        have hself : items.filter (!·.isEmpty) = (items.filter (!·.isEmpty)).map id := (List.map_id _).symm
        rw [hself]
        exact Text.segments_items hself fun s hs => ⟨(hexpression s hs).passes, (hexpression s hs).ne_nil⟩
      obtain ⟨word, hword, hhead⟩ := Head.ofText?_lead op.isWord_name hlead (Text.joinWith "," items ++ [')'])
      have henclosed : Text.enclosed? (Text.joinWith "," items ++ [')']) = some (Text.joinWith "," items, []) :=
        Text.enclosed?_eq_some_iff.mpr ⟨rfl, (inner_of_items hexpression).1⟩
      -- Each member has a group less around it, and room for as many less.
      rw [groupDepth] at hroom
      obtain ⟨less, rfl⟩ := Nat.exists_eq_add_of_le' (Nat.le_of_add_left_le hroom)
      have hdepth := groupDepthOfAll_le_iff.mp (Nat.le_of_succ_le_succ hroom)
      refine read_eq_ok_iff.mpr ⟨_, _, [], hhead, henclosed, Or.inr ⟨op, less, children, ?_, rfl, ?_, hne, rfl⟩⟩
      · exact Symbol.ofName?_connective hword
      · rw [hsegments]
        exact (Outcome.forall₂_of_mem hitems fun c hc s _ hs => ih c hc hs (hdepth c hc)).flip

/-- **Reading undoes writing**: a filter that can be written has a plain form, and whatever written form of it there is,
it is read as the filter, also inside of groups with any room for its own. -/
theorem parse_of_isWritten {key : Text} (hf : f.IsWritable) (hdepth : f.groupDepth ≤ maxExpressionDepth - 1) :
    IsWritten f f.text ∧ ∀ t, IsWritten f t → t.byteSize ≤ maxExpressionSize →
      parse key t = .ok f ∧ ∀ room, f.groupDepth ≤ room → read room t = .ok f := by
  refine ⟨isWritten_text hf, fun t h hsize => ⟨?_, fun room hroom => read_of_isWritten hf h hroom⟩⟩
  exact parse_eq_ok_iff.mpr ⟨hsize, read_of_isWritten hf h hdepth⟩

/-- Groups inside each other, with commas and parentheses in the operands. -/
def orderly : Filter :=
  group .and true [
    comparison .oneOf false [.scalar "a,b", .lookup "agent" 7],
    group .or false [comparison .like true [.scalar "x,y(z)"], comparison .null false []]]

/-- The same, with spaces, in mixed letter case, and with empty items. -/
def orderlyText : Text :=
  " !And (,in(a\\,b,@agent:7,), oR( !like (x,y(z)),,null()))"

theorem isWritable_orderly : orderly.IsWritable := by
  have hlist : (comparison .oneOf false [.scalar "a,b", .lookup "agent" 7]).IsWritable := by
    refine .comparison (List.cons_ne_nil _ _)
      (List.forall_mem_cons.mpr ⟨?_, List.forall_mem_singleton.mpr ?_⟩) fun t ht => ?_
    · exact .scalar (by decide) (by decide) (by decide)
    · exact .lookup (by decide) (by decide) (by decide)
    · obtain rfl : t = ("a,b" : Text) := by simpa using ht
      exact List.cons_ne_nil _ _
  have hpattern : (comparison .like true [.scalar "x,y(z)"]).IsWritable := by
    refine .comparison ⟨_, rfl⟩ (List.forall_mem_singleton.mpr ?_) fun t ht => ?_
    · exact .scalar (by decide) (by decide) (by decide)
    · obtain rfl : t = ("x,y(z)" : Text) := by simpa using ht
      exact (by decide : '*' ∉ ("x,y(z)" : Text))
  have hnull : (comparison .null false []).IsWritable := .comparison rfl nofun nofun
  refine .group (List.cons_ne_nil _ _) (List.forall_mem_cons.mpr ⟨hlist, List.forall_mem_singleton.mpr ?_⟩)
  exact .group (List.cons_ne_nil _ _) (List.forall_mem_cons.mpr ⟨hpattern, List.forall_mem_singleton.mpr hnull⟩)

theorem isWritten_orderly : IsWritten orderly orderlyText := by
  have hlist : IsWritten (comparison .oneOf false [.scalar "a,b", .lookup "agent" 7]) "in(a\\,b,@agent:7,)" := by
    have hitems : (["a\\,b", "@agent:7", ""] : List Text).filter (!·.isEmpty) =
        [.scalar "a,b", .lookup "agent" 7].map fun a : Literal => Text.escaped a.text := by decide
    exact .comparison (.mk 0 0 (by decide : Text.upper "in" = "IN")) (.list rfl hitems rfl) (by decide)
  have hpattern : IsWritten (comparison .like true [.scalar "x,y(z)"]) " !like (x,y(z))" :=
    .comparison (.mk 1 1 (by decide : Text.upper "like" = "LIKE")) (.one rfl rfl) (by decide)
  have hnull : IsWritten (comparison .null false []) "null()" := by
    have hitems : ([] : List Text).filter (!·.isEmpty) = ([] : List Literal).map fun a => Text.escaped a.text := rfl
    exact .comparison (.mk 0 0 (by decide : Text.upper "null" = "NULL")) (.list rfl hitems rfl) (by decide)
  have hgroup : IsWritten (group .or false [comparison .like true [.scalar "x,y(z)"], comparison .null false []])
      " oR( !like (x,y(z)),,null())" := by
    have hitems : List.Forall₂ IsWritten _ ((([" !like (x,y(z))", "", "null()"] : List Text)).filter (!·.isEmpty)) :=
      .cons hpattern (.cons hnull .nil)
    exact .group (.mk 1 0 (by decide : Text.upper "oR" = "OR")) hitems (by decide)
  have hitems : List.Forall₂ IsWritten _
      ((["", "in(a\\,b,@agent:7,)", " oR( !like (x,y(z)),,null())"] : List Text).filter (!·.isEmpty)) :=
    .cons hlist (.cons hgroup .nil)
  exact .group (.mk 1 1 (by decide : Text.upper "And" = "AND")) hitems (by decide)

theorem parse_of_isWritten_orderly : orderly.IsWritable ∧ orderly.groupDepth ≤ maxExpressionDepth - 1 ∧
    IsWritten orderly orderlyText ∧ parse "id" orderlyText = .ok orderly := by
  have hdepth : orderly.groupDepth ≤ maxExpressionDepth - 1 := by decide
  obtain ⟨-, hread⟩ := parse_of_isWritten isWritable_orderly hdepth
  exact ⟨isWritable_orderly, hdepth, isWritten_orderly, (hread orderlyText isWritten_orderly (by decide)).1⟩

end Filter

end FilterPlan
