import FilterPlan.Text.Nesting

/-!
# The scan that takes lists apart

What the scan behind `Text.segments` does with a text in front of it (`depthAfter?`): it goes over the text in one piece
and is at some depth behind it (`goesOver_of_depthAfter?`), or it meets a comma at depth zero, which ends a segment or loses
its backslash (`isCut_of_depthAfter?`). Its segments are in the text as they are, but for dropped characters
(`flatten_segments_sublist`). All of it goes by one induction along the scan (`scanInduction`).
-/

namespace FilterPlan.Text

open scoped List

/-! ## The steps of the scan -/

/-- The character stands for itself in front of the given text: it is no comma or parenthesis, and no backslash in front
of one. -/
def IsPlain (c : Char) (t : Text) : Prop :=
  c ∉ [',', '(', ')'] ∧ (c = '\\' → ∀ e ∈ t.head?, e ∉ [',', '(', ')'])

theorem isPlain_of_ne {c : Char} (h₁ : c ≠ '\\') (h₂ : c ≠ '(') (h₃ : c ≠ ')') (h₄ : c ≠ ',') (t : Text) :
    IsPlain c t := by
  refine ⟨?_, fun h => absurd h h₁⟩
  simp only [List.mem_cons, List.not_mem_nil, or_false, not_or]
  exact ⟨h₄, h₂, h₃⟩

theorem IsPlain.append {c : Char} {t : Text} (h : IsPlain c t) {u : Text} (hu : c = '\\' → t ≠ []) :
    IsPlain c (t ++ u) := by
  refine ⟨h.1, fun hc => ?_⟩
  obtain ⟨e, t, rfl⟩ := List.exists_cons_of_ne_nil (hu hc)
  exact h.2 hc

/-- No other beginning is that of a plain character. -/
theorem IsPlain.apart {c : Char} {t : Text} (h : IsPlain c t) :
    (∀ s, c = '\\' → t = ',' :: s → False) ∧ (∀ s, c = '\\' → t = '(' :: s → False) ∧
      (∀ s, c = '\\' → t = ')' :: s → False) ∧ c ≠ '(' ∧ c ≠ ')' ∧ c ≠ ',' := by
  obtain ⟨hc, hb⟩ := h
  simp only [List.mem_cons, List.not_mem_nil, or_false, not_or] at hc hb
  refine ⟨?_, ?_, ?_, hc.2.1, hc.2.2, hc.1⟩
  · rintro s rfl rfl
    exact (hb rfl ',' rfl).1 rfl
  · rintro s rfl rfl
    exact (hb rfl '(' rfl).2.1 rfl
  · rintro s rfl rfl
    exact (hb rfl ')' rfl).2.2 rfl

/-- Induction along the scan: a backslash is passed together with the comma or parenthesis behind it. -/
theorem scanInduction {P : Text → Prop} (nil : P [])
    (escapedComma : ∀ t, P t → P ('\\' :: ',' :: t))
    (escapedParenthesis : ∀ c t, c = '(' ∨ c = ')' → P t → P ('\\' :: c :: t))
    (opening : ∀ t, P t → P ('(' :: t)) (closing : ∀ t, P t → P (')' :: t)) (comma : ∀ t, P t → P (',' :: t))
    (plain : ∀ c t, IsPlain c t → P t → P (c :: t)) : ∀ t, P t
  | [] => nil
  | c :: t => by
    have ih : ∀ s : Text, s.length < (c :: t).length → P s := fun s hs =>
      scanInduction nil escapedComma escapedParenthesis opening closing comma plain s
    by_cases hmark : c ∈ [',', '(', ')']
    · simp only [List.mem_cons, List.not_mem_nil, or_false] at hmark
      rcases hmark with rfl | rfl | rfl
      · exact comma t (ih t (Nat.lt_succ_self _))
      · exact opening t (ih t (Nat.lt_succ_self _))
      · exact closing t (ih t (Nat.lt_succ_self _))
    by_cases hplain : IsPlain c t
    · exact plain c t hplain (ih t (Nat.lt_succ_self _))
    -- What is left is a backslash in front of a comma or a parenthesis.
    obtain ⟨rfl, e, s, rfl, hm⟩ : c = '\\' ∧ ∃ e s, t = e :: s ∧ e ∈ [',', '(', ')'] := by
      refine Classical.byContradiction fun hno => hplain ⟨hmark, fun hc e he hm => hno ⟨hc, ?_⟩⟩
      obtain ⟨s, rfl⟩ := List.head?_eq_some_iff.mp he
      exact ⟨e, s, rfl, hm⟩
    simp only [List.mem_cons, List.not_mem_nil, or_false] at hm
    rcases hm with rfl | hm
    · exact escapedComma s (ih s (Nat.lt_add_of_pos_right Nat.two_pos))
    · exact escapedParenthesis e s hm (ih s (Nat.lt_add_of_pos_right Nat.two_pos))
  termination_by t => t.length
  decreasing_by exact hs

theorem segmentsFrom_plain {c : Char} {t : Text} (h : IsPlain c t) (d : Nat) (segment : Text) (done : List Text) :
    segmentsFrom d segment done (c :: t) = segmentsFrom d (c :: segment) done t := by
  obtain ⟨h₁, h₂, h₃, h₄, h₅, h₆⟩ := h.apart
  rw [segmentsFrom]
  · exact h₁
  · exact h₂
  · exact h₃
  · exact h₄
  · exact h₅
  · exact h₆

/-- The segments that are finished already come first. -/
theorem segmentsFrom_done (d : Nat) (segment : Text) (done : List Text) (t : Text) :
    segmentsFrom d segment done t = done.reverse ++ segmentsFrom d segment [] t := by
  have hflush : ∀ segment done, (flush segment done).reverse = done.reverse ++ (flush segment []).reverse := by
    intro segment done
    unfold flush
    split <;> simp
  induction t using scanInduction generalizing d segment done with
  | nil => exact hflush segment done
  | escapedComma t ih => exact ih d _ done
  | escapedParenthesis c t hc ih =>
    rcases hc with rfl | rfl
    · exact ih d _ done
    · exact ih d _ done
  | opening t ih => exact ih (d + 1) _ done
  | closing t ih => exact ih (d - 1) _ done
  | comma t ih =>
    simp only [segmentsFrom]
    split
    · rw [ih 0 [] (flush segment done), ih 0 [] (flush segment []), hflush, List.append_assoc]
    · exact ih d _ done
  | plain c t hp ih =>
    rw [segmentsFrom_plain hp, segmentsFrom_plain hp]
    exact ih d _ done

/-- A segment that has been begun goes on with what has been read of it. -/
theorem segmentsFrom_begun {p : Text} (hp : p ≠ []) (d : Nat) {segment : Text} (h : p <:+ segment) (t : Text) :
    ∃ s rest, segmentsFrom d segment [] t = s :: rest ∧ p.reverse <+: s := by
  have hflush : ∀ {segment : Text}, p <:+ segment → flush segment [] = [segment.reverse] := by
    rintro _ ⟨s, rfl⟩
    rw [flush, if_neg (by simp [hp])]
  induction t using scanInduction generalizing d segment with
  | nil => exact ⟨segment.reverse, [], by rw [segmentsFrom, hflush h]; rfl, List.reverse_prefix.mpr h⟩
  | escapedComma t ih =>
    simp only [segmentsFrom]
    split
    · exact ih d (h.trans (List.suffix_cons _ _))
    · exact ih d (h.trans ⟨[',', '\\'], rfl⟩)
  | escapedParenthesis c t hc ih =>
    have hstep := ih d (h.trans ⟨[c, '\\'], rfl⟩)
    rcases hc with rfl | rfl
    · exact hstep
    · exact hstep
  | opening t ih => exact ih (d + 1) (h.trans (List.suffix_cons _ _))
  | closing t ih => exact ih (d - 1) (h.trans (List.suffix_cons _ _))
  | comma t ih =>
    simp only [segmentsFrom]
    split
    · rw [hflush h, segmentsFrom_done]
      exact ⟨segment.reverse, _, rfl, List.reverse_prefix.mpr h⟩
    · exact ih d (h.trans (List.suffix_cons _ _))
  | plain c t hc ih =>
    rw [segmentsFrom_plain hc]
    exact ih d (h.trans (List.suffix_cons _ _))

/-- What the scan has read of a segment comes before what it reads next, of which it may drop a part. -/
theorem sublist_push {l segment t : Text} (x : Text) {y : Text} (hxy : x <+ y)
    (h : l <+ (x.reverse ++ segment).reverse ++ t) : l <+ segment.reverse ++ (y ++ t) := by
  rw [List.reverse_append, List.reverse_reverse, List.append_assoc] at h
  exact h.trans ((hxy.append_right t).append_left segment.reverse)

/-- The scan only drops characters: its segments, one behind the other, are in what it reads. -/
theorem flatten_segmentsFrom_sublist (d : Nat) (segment t : Text) :
    (segmentsFrom d segment [] t).flatten <+ segment.reverse ++ t := by
  have hflush : ∀ segment : Text, (flush segment []).reverse.flatten = segment.reverse := by
    intro segment
    unfold flush
    split
    · next h => rw [List.isEmpty_iff.mp h]; rfl
    · exact List.append_nil _
  induction t using scanInduction generalizing d segment with
  | nil =>
    have hall : (segmentsFrom d segment [] []).flatten = segment.reverse := by rw [segmentsFrom, hflush]
    exact hall.symm ▸ List.sublist_append_left segment.reverse []
  | escapedComma t ih =>
    rw [segmentsFrom]
    split
    · exact sublist_push [','] (y := ['\\', ',']) (List.sublist_cons_self _ _) (ih d _)
    · exact sublist_push ['\\', ','] (List.Sublist.refl _) (ih d _)
  | escapedParenthesis c t hc ih =>
    have ih := sublist_push ['\\', c] (List.Sublist.refl _) (ih d (c :: '\\' :: segment))
    rcases hc with rfl | rfl
    · exact ih
    · exact ih
  | opening t ih => exact sublist_push ['('] (List.Sublist.refl _) (ih (d + 1) _)
  | closing t ih => exact sublist_push [')'] (List.Sublist.refl _) (ih (d - 1) _)
  | comma t ih =>
    rw [segmentsFrom]
    split
    · rw [segmentsFrom_done, List.flatten_append, hflush]
      exact ((ih 0 []).trans (List.sublist_cons_self _ _)).append_left _
    · exact sublist_push [','] (List.Sublist.refl _) (ih d _)
  | plain c t hc ih =>
    rw [segmentsFrom_plain hc]
    exact sublist_push [c] (List.Sublist.refl _) (ih d _)

theorem flatten_segments_sublist (t : Text) : (segments t).flatten <+ t :=
  flatten_segmentsFrom_sublist 0 [] t

theorem sublist_of_mem_segments {s t : Text} (h : s ∈ segments t) : s <+ t :=
  (List.sublist_flatten_of_mem h).trans (flatten_segments_sublist t)

/-! ## The depth behind a text -/

/-- How many parentheses are open for the scan behind the text, or `none` if it meets a comma at depth zero: one that
separates, or one that loses its backslash. -/
def depthAfter? (depth : Nat) : Text → Option Nat
  | [] => some depth
  | '\\' :: ',' :: t => if depth = 0 then none else depthAfter? depth t
  | '\\' :: '(' :: t => depthAfter? depth t
  | '\\' :: ')' :: t => depthAfter? depth t
  | '(' :: t => depthAfter? (depth + 1) t
  | ')' :: t => depthAfter? (depth - 1) t
  | ',' :: t => if depth = 0 then none else depthAfter? depth t
  | _ :: t => depthAfter? depth t

theorem depthAfter?_plain {c : Char} {t : Text} (h : IsPlain c t) (d : Nat) :
    depthAfter? d (c :: t) = depthAfter? d t := by
  obtain ⟨h₁, h₂, h₃, h₄, h₅, h₆⟩ := h.apart
  rw [depthAfter?]
  · exact h₁
  · exact h₂
  · exact h₃
  · exact h₄
  · exact h₅
  · exact h₆

theorem depthAfter?_escapedParenthesis {c : Char} (hc : c = '(' ∨ c = ')') (d : Nat) (t : Text) :
    depthAfter? d ('\\' :: c :: t) = depthAfter? d t := by
  rcases hc with rfl | rfl
  · rfl
  · rfl

/-- The scan goes over `t` in front of `u`: all of `t` becomes a part of the segment. -/
def GoesOver (d : Nat) (t u : Text) (d' : Nat) : Prop :=
  ∀ segment done, segmentsFrom d segment done (t ++ u) = segmentsFrom d' (t.reverse ++ segment) done u

theorem GoesOver.append {d d' d'' : Nat} {s t u : Text} (hs : GoesOver d s (t ++ u) d') (ht : GoesOver d' t u d'') :
    GoesOver d (s ++ t) u d'' := by
  intro segment done
  rw [List.append_assoc, hs, ht, List.reverse_append, List.append_assoc]

theorem goesOver_escapedComma {d : Nat} (hd : d ≠ 0) (u : Text) : GoesOver d ['\\', ','] u d := by
  intro segment done
  simp only [List.cons_append, List.nil_append, segmentsFrom, if_neg hd]
  rfl

theorem goesOver_escapedParenthesis {c : Char} (hc : c = '(' ∨ c = ')') (d : Nat) (u : Text) :
    GoesOver d ['\\', c] u d := by
  rcases hc with rfl | rfl
  · exact fun segment done => rfl
  · exact fun segment done => rfl

theorem goesOver_opening (d : Nat) (u : Text) : GoesOver d ['('] u (d + 1) :=
  fun _ _ => rfl

theorem goesOver_closing (d : Nat) (u : Text) : GoesOver d [')'] u (d - 1) :=
  fun _ _ => rfl

theorem goesOver_comma {d : Nat} (hd : d ≠ 0) (u : Text) : GoesOver d [','] u d := by
  intro segment done
  simp only [List.cons_append, List.nil_append, segmentsFrom, if_neg hd]
  rfl

theorem goesOver_plain {c : Char} {u : Text} (h : IsPlain c u) (d : Nat) : GoesOver d [c] u d :=
  fun segment done => segmentsFrom_plain h d segment done

/-- The scan goes over a text that does not end with a backslash, if it meets no comma there at depth zero. -/
theorem goesOver_of_depthAfter? {d d' : Nat} {t : Text} (h : depthAfter? d t = some d') (hlast : ¬ ['\\'] <:+ t)
    (u : Text) : GoesOver d t u d' := by
  have hrest : ∀ {x s : Text}, ¬ ['\\'] <:+ x ++ s → ¬ ['\\'] <:+ s := fun h hs => h (hs.trans (List.suffix_append _ _))
  induction t using scanInduction generalizing d with
  | nil =>
    cases h
    exact fun segment done => rfl
  | escapedComma t ih =>
    obtain ⟨hd, h⟩ := Option.ite_none_left_eq_some.mp h
    exact (goesOver_escapedComma hd _).append (ih h (hrest (x := ['\\', ',']) hlast))
  | escapedParenthesis c t hc ih =>
    rw [depthAfter?_escapedParenthesis hc] at h
    exact (goesOver_escapedParenthesis hc d _).append (ih h (hrest (x := ['\\', c]) hlast))
  | opening t ih => exact (goesOver_opening d _).append (ih h (hrest (x := ['(']) hlast))
  | closing t ih => exact (goesOver_closing d _).append (ih h (hrest (x := [')']) hlast))
  | comma t ih =>
    obtain ⟨hd, h⟩ := Option.ite_none_left_eq_some.mp h
    exact (goesOver_comma hd _).append (ih h (hrest (x := [',']) hlast))
  | plain c t hc ih =>
    rw [depthAfter?_plain hc] at h
    have hne : c = '\\' → t ≠ [] := by
      rintro rfl rfl
      exact hlast List.suffix_rfl
    exact (goesOver_plain (hc.append hne) d).append (ih h (hrest (x := [c]) hlast))

/-- A scan that starts deeper ends deeper. -/
theorem depthAfter?_mono {d e d' : Nat} {t : Text} (hde : d ≤ e) (h : depthAfter? d t = some d') :
    ∃ e', d' ≤ e' ∧ depthAfter? e t = some e' := by
  induction t using scanInduction generalizing d e with
  | nil =>
    cases h
    exact ⟨e, hde, rfl⟩
  | escapedComma t ih | comma t ih =>
    obtain ⟨hd, h⟩ := Option.ite_none_left_eq_some.mp h
    simp only [depthAfter?, if_neg (show e ≠ 0 by omega)]
    exact ih hde h
  | escapedParenthesis c t hc ih =>
    rw [depthAfter?_escapedParenthesis hc] at h ⊢
    exact ih hde h
  | opening t ih => exact ih (Nat.succ_le_succ hde) h
  | closing t ih => exact ih (Nat.sub_le_sub_right hde 1) h
  | plain c t hc ih =>
    rw [depthAfter?_plain hc] at h ⊢
    exact ih hde h

/-- At some comma of the text the scan is at depth zero: the comma ends a segment there, or loses its backslash. -/
def IsCut (d : Nat) (t : Text) : Prop :=
  ∃ a b, (t = a ++ ',' :: b ∧ ∀ segment done u, segmentsFrom d segment done (t ++ u) =
      segmentsFrom 0 [] (flush (a.reverse ++ segment) done) (b ++ u)) ∨
    (t = a ++ '\\' :: ',' :: b ∧ ∀ segment done u, segmentsFrom d segment done (t ++ u) =
      segmentsFrom 0 (',' :: (a.reverse ++ segment)) done (b ++ u))

theorem IsCut.after {d d' : Nat} {s t : Text} (hs : ∀ u, GoesOver d s (t ++ u) d') (h : IsCut d' t) :
    IsCut d (s ++ t) := by
  obtain ⟨a, b, ⟨ht, hscan⟩ | ⟨ht, hscan⟩⟩ := h
  · refine ⟨s ++ a, b, Or.inl ⟨by rw [ht, List.append_assoc], fun segment done u => ?_⟩⟩
    rw [List.append_assoc, hs, hscan, List.reverse_append, List.append_assoc]
  · refine ⟨s ++ a, b, Or.inr ⟨by rw [ht, List.append_assoc], fun segment done u => ?_⟩⟩
    rw [List.append_assoc, hs, hscan, List.reverse_append, List.append_assoc]

theorem isCut_of_depthAfter? {d : Nat} {t : Text} (h : depthAfter? d t = none) : IsCut d t := by
  induction t using scanInduction generalizing d with
  | nil => cases h
  | escapedComma t ih =>
    by_cases hd : d = 0
    · subst hd
      exact ⟨[], t, Or.inr ⟨rfl, fun segment done u => rfl⟩⟩
    · simp only [depthAfter?, if_neg hd] at h
      exact (ih h).after fun u => goesOver_escapedComma hd _
  | escapedParenthesis c t hc ih =>
    rw [depthAfter?_escapedParenthesis hc] at h
    exact (ih h).after fun u => goesOver_escapedParenthesis hc d _
  | opening t ih => exact (ih h).after fun u => goesOver_opening d _
  | closing t ih => exact (ih h).after fun u => goesOver_closing d _
  | comma t ih =>
    by_cases hd : d = 0
    · subst hd
      exact ⟨[], t, Or.inl ⟨rfl, fun segment done u => rfl⟩⟩
    · simp only [depthAfter?, if_neg hd] at h
      exact (ih h).after fun u => goesOver_comma hd _
  | plain c t hc ih =>
    rw [depthAfter?_plain hc] at h
    have hne : t ≠ [] := by
      rintro rfl
      cases h
    exact (ih h).after fun u => goesOver_plain (hc.append fun _ => hne) d

end FilterPlan.Text
