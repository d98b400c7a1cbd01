import FilterPlan.Proofs.Text.Segments

/-!
# Guarded elements

`Text.guarded` puts a backslash in front of the commas of an element that would separate, for elements with any
backslashes and parentheses. The scan goes over a guarded element and drops these backslashes (`segmentsFrom_guarded`);
if it is closed, the scan is at depth zero behind it, whatever follows (`passes_guarded`).
-/

namespace FilterPlan.Text

/-! ## Guarding commas -/

/-- How many parentheses are open behind the text, if `depth` are open in front of it. A backslash directly in front of a
parenthesis neutralises it, and a closing one leaves depth zero as it is. -/
def depthBehind (depth : Nat) : Text → Nat
  | [] => depth
  | '\\' :: '(' :: t => depthBehind depth t
  | '\\' :: ')' :: t => depthBehind depth t
  | '(' :: t => depthBehind (depth + 1) t
  | ')' :: t => depthBehind (depth - 1) t
  | _ :: t => depthBehind depth t

/-- The text with a backslash in front of each comma at depth zero, if `depth` parentheses are open in front of it. -/
def guardedFrom (depth : Nat) : Text → Text
  | [] => []
  | '\\' :: '(' :: t => '\\' :: '(' :: guardedFrom depth t
  | '\\' :: ')' :: t => '\\' :: ')' :: guardedFrom depth t
  | '(' :: t => '(' :: guardedFrom (depth + 1) t
  | ')' :: t => ')' :: guardedFrom (depth - 1) t
  | ',' :: t => if depth = 0 then '\\' :: ',' :: guardedFrom depth t else ',' :: guardedFrom depth t
  | c :: t => c :: guardedFrom depth t

/-- The text with a backslash in front of each comma outside parentheses. -/
def guarded (t : Text) : Text :=
  guardedFrom 0 t

/-- A comma behind the text separates: no parenthesis is open there, and no backslash stands there. -/
def IsClosed (t : Text) : Prop :=
  depthBehind 0 t = 0 ∧ ¬ ['\\'] <:+ t

instance (t : Text) : Decidable (IsClosed t) :=
  instDecidableAnd

/-- At depth zero the scan goes over the item, and adds the value to the segment. -/
def Passes (item value : Text) : Prop :=
  ∀ segment done u, segmentsFrom 0 segment done (item ++ u) = segmentsFrom 0 (value.reverse ++ segment) done u

/-! ## The scan of a guarded element -/

theorem ne_parenthesis {c : Char} (h : c ∉ [',', '(', ')']) : c ≠ '(' ∧ c ≠ ')' := by
  simp only [List.mem_cons, List.not_mem_nil, or_false, not_or] at h
  exact h.2

/-- Only a parenthesis changes the depth, and none does directly behind a backslash. -/
theorem depthBehind_cons {c : Char} {t : Text} (hc : c ≠ '(' ∧ c ≠ ')')
    (hb : c = '\\' → ∀ e ∈ t.head?, e ≠ '(' ∧ e ≠ ')') (d : Nat) : depthBehind d (c :: t) = depthBehind d t := by
  rw [depthBehind]
  · rintro s rfl rfl
    exact (hb rfl _ rfl).1 rfl
  · rintro s rfl rfl
    exact (hb rfl _ rfl).2 rfl
  · exact hc.1
  · exact hc.2

theorem depthBehind_plain {c : Char} {t : Text} (h : IsPlain c t) (d : Nat) :
    depthBehind d (c :: t) = depthBehind d t :=
  depthBehind_cons (ne_parenthesis h.1) (fun hb e he => ne_parenthesis (h.2 hb e he)) d

theorem depthBehind_escapedParenthesis {c : Char} (hc : c = '(' ∨ c = ')') (d : Nat) (t : Text) :
    depthBehind d ('\\' :: c :: t) = depthBehind d t := by
  rcases hc with rfl | rfl
  · rfl
  · rfl

theorem guardedFrom_plain {c : Char} {t : Text} (h : IsPlain c t) (d : Nat) :
    guardedFrom d (c :: t) = c :: guardedFrom d t := by
  obtain ⟨-, h₂, h₃, h₄, h₅, h₆⟩ := h.apart
  rw [guardedFrom]
  · exact h₂
  · exact h₃
  · exact h₄
  · exact h₅
  · exact h₆

/-- A guarded text begins as the text, but for a comma. -/
theorem head?_guardedFrom {c : Char} (hc : c ≠ ',') (d : Nat) (t : Text) :
    (guardedFrom d (c :: t)).head? = some c := by
  unfold guardedFrom
  split
  · next h => cases h
  · next h => cases h; rfl
  · next h => cases h; rfl
  · next h => cases h; rfl
  · next h => cases h; rfl
  · next h => exact absurd (List.cons.inj h).1 hc
  · next h => cases h; rfl

theorem guarded_ne_nil {t : Text} (h : t ≠ []) : guarded t ≠ [] := by
  obtain ⟨c, rest, rfl⟩ := List.exists_cons_of_ne_nil h
  by_cases hc : c = ','
  · subst hc
    exact List.cons_ne_nil _ _
  · intro he
    have hhead := head?_guardedFrom hc 0 rest
    rw [show guardedFrom 0 (c :: rest) = [] from he] at hhead
    cases hhead

/-- The scan goes over a guarded text, and drops the backslashes that guard it. A backslash at its end must not meet a
comma or a parenthesis. -/
theorem segmentsFrom_guarded {t : Text} (d : Nat) {u : Text} (hu : ['\\'] <:+ t → u = []) (segment : Text)
    (done : List Text) :
    segmentsFrom d segment done (guardedFrom d t ++ u) =
      segmentsFrom (depthBehind d t) (t.reverse ++ segment) done u := by
  have hrest : ∀ {x s : Text}, (['\\'] <:+ x ++ s → u = []) → ['\\'] <:+ s → u = [] := fun h hs =>
    h (hs.trans (List.suffix_append _ _))
  induction t using scanInduction generalizing d segment with
  | nil => rfl
  | escapedComma t ih =>
    have hdepth : depthBehind d ('\\' :: ',' :: t) = depthBehind d t := rfl
    have hguarded : guardedFrom d ('\\' :: ',' :: t) = '\\' :: guardedFrom d (',' :: t) := rfl
    rw [hdepth, hguarded, guardedFrom]
    simp only [List.reverse_cons, List.append_assoc, List.cons_append, List.nil_append]
    rw [← ih d (hrest (x := ['\\', ',']) hu)]
    split
    · next hd =>
      -- The backslash that guards the comma makes the one in front of it a plain character.
      subst hd
      rfl
    · next hd => exact goesOver_escapedComma hd _ segment done
  | escapedParenthesis c t hc ih =>
    have ih := ih d (hrest (x := ['\\', c]) hu) (c :: '\\' :: segment)
    simp only [List.reverse_cons, List.append_assoc, List.cons_append, List.nil_append]
    rcases hc with rfl | rfl
    · exact ih
    · exact ih
  | opening t ih =>
    rw [List.reverse_cons, List.append_assoc, List.singleton_append]
    exact ih (d + 1) (hrest (x := ['(']) hu) ('(' :: segment)
  | closing t ih =>
    rw [List.reverse_cons, List.append_assoc, List.singleton_append]
    exact ih (d - 1) (hrest (x := [')']) hu) (')' :: segment)
  | comma t ih =>
    have hdepth : depthBehind d (',' :: t) = depthBehind d t := rfl
    rw [hdepth, guardedFrom, List.reverse_cons, List.append_assoc, List.singleton_append,
      ← ih d (hrest (x := [',']) hu)]
    split
    · next hd =>
      subst hd
      rfl
    · next hd => exact goesOver_comma hd _ segment done
  | plain c t hc ih =>
    have hplain : IsPlain c (guardedFrom d t ++ u) := by
      refine ⟨hc.1, fun hb e he => ?_⟩
      cases t with
      | nil =>
        rw [hu (hb ▸ List.suffix_rfl)] at he
        cases he
      | cons e' t =>
        have he' : e' ∉ [',', '(', ')'] := hc.2 hb e' rfl
        have hhead := head?_guardedFrom (c := e') (fun h => he' (h ▸ List.mem_cons_self)) d t
        rw [List.head?_append, hhead] at he
        cases he
        exact he'
    rw [guardedFrom_plain hc, depthBehind_plain hc, List.cons_append, segmentsFrom_plain hplain,
      ih d (hrest (x := [c]) hu), List.reverse_cons, List.append_assoc, List.singleton_append]

/-- A closed element passes, and stands for itself without the backslashes that guard it. -/
theorem passes_guarded {t : Text} (h : IsClosed t) : Passes (guarded t) t := by
  intro segment done u
  have hscan := segmentsFrom_guarded 0 (u := u) (fun hb => absurd hb h.2) segment done
  rw [h.1] at hscan
  exact hscan

theorem segments_guarded {t : Text} (h : t ≠ []) : segments (guarded t) = [t] := by
  have hscan := segmentsFrom_guarded 0 (fun _ : ['\\'] <:+ t => rfl) [] []
  rw [List.append_nil, List.append_nil] at hscan
  rw [segments, guarded, hscan, segmentsFrom, flush, if_neg (by simp [h]), List.reverse_reverse]
  rfl

end FilterPlan.Text
