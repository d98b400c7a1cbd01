import FilterPlan.Proofs.Text.Segments

/-!
# Lists that can be taken apart

`Text.segments` is the inverse of joining by commas exactly where the scan behind it comes back to depth zero behind
each element and meets no comma at that depth inside one (`segments_join_eq_iff`). Elements in which it meets none may
merge, and only then are there fewer segments than elements (`separable_of_length`).
-/

namespace FilterPlan.Text

/-! ## Joined elements -/

theorem joinWith_cons_cons (t t' : Text) (rest : List Text) :
    joinWith "," (t :: t' :: rest) = t ++ ',' :: joinWith "," (t' :: rest) := by
  rw [joinWith, List.intercalate_cons_cons, List.append_assoc]
  rfl

/-- The text can be told from the commas and backslashes around it: it has characters, the first one is no comma, and
the last one no backslash. -/
def IsElement (t : Text) : Prop :=
  t ≠ [] ∧ t.head? ≠ some ',' ∧ ¬ ['\\'] <:+ t

/-- Whether the scan comes back to depth zero behind each of the texts but the last, and meets no comma there inside any
of them. -/
def separable : List Text → Bool
  | [] => true
  | [t] => (depthAfter? 0 t).isSome
  | t :: rest => depthAfter? 0 t == some 0 && separable rest

theorem segments_eq_singleton {t : Text} (ht : IsElement t) (h : (depthAfter? 0 t).isSome) : segments t = [t] := by
  obtain ⟨d, hd⟩ := Option.isSome_iff_exists.mp h
  have hscan := goesOver_of_depthAfter? hd ht.2.2 [] [] []
  rw [List.append_nil, List.append_nil] at hscan
  rw [segments, hscan, segmentsFrom, flush, if_neg (by simp [ht.1]), List.reverse_reverse]
  rfl

theorem segments_append_comma {t : Text} (ht : IsElement t) (h : depthAfter? 0 t = some 0) (u : Text) :
    segments (t ++ ',' :: u) = t :: segments u := by
  rw [segments, goesOver_of_depthAfter? h ht.2.2, List.append_nil, segmentsFrom, if_pos rfl, segmentsFrom_done, flush,
    if_neg (by simp [ht.1]), List.reverse_reverse]
  rfl

/-- A text in which the scan is at depth zero at some comma is no segment where it stands. -/
theorem segments_ne_of_isCut {t : Text} (ht : IsElement t) (h : IsCut 0 t) (u : Text) (rest : List Text) :
    segments (t ++ u) ≠ t :: rest := by
  intro he
  obtain ⟨a, b, ⟨htb, hscan⟩ | ⟨htb, hscan⟩⟩ := h
  · have hne : a ≠ [] := by
      rintro rfl
      exact ht.2.1 (by rw [htb]; rfl)
    rw [segments, hscan, List.append_nil, segmentsFrom_done, flush, if_neg (by simp [hne]), List.reverse_reverse] at he
    have hat : a = t := (List.cons.inj he).1
    exact absurd (congrArg List.length (hat.trans htb)) (by simp)
  · obtain ⟨s, more, hs, hp⟩ := segmentsFrom_begun (List.cons_ne_nil ',' a.reverse) 0 List.suffix_rfl (b ++ u)
    rw [segments, hscan, List.append_nil, hs] at he
    rw [(List.cons.inj he).1, htb, List.reverse_cons, List.reverse_reverse, List.prefix_append_right_inj] at hp
    exact absurd (List.prefix_cons_iff.mp hp) (by simp)

/-- A text behind which the scan is inside a parenthesis is no segment where a comma follows it. -/
theorem segments_ne_of_open {t : Text} (ht : IsElement t) {d : Nat} (h : depthAfter? 0 t = some d) (hd : d ≠ 0)
    (u : Text) (rest : List Text) : segments (t ++ ',' :: u) ≠ t :: rest := by
  intro he
  obtain ⟨s, more, hs, hp⟩ := segmentsFrom_begun (List.cons_ne_nil ',' t.reverse) d List.suffix_rfl u
  rw [segments, goesOver_of_depthAfter? h ht.2.2, List.append_nil, segmentsFrom, if_neg hd, hs] at he
  have hlength := hp.length_le
  rw [(List.cons.inj he).1, List.length_reverse, List.length_cons, List.length_reverse] at hlength
  omega

/-- **Which lists can be joined and taken apart again.** -/
theorem segments_join_eq_iff : ∀ {texts : List Text}, (∀ t ∈ texts, IsElement t) →
    (segments (joinWith "," texts) = texts ↔ separable texts)
  | [], _ => ⟨fun _ => rfl, fun _ => rfl⟩
  | [t], h => by
    have ht := h t List.mem_cons_self
    rw [joinWith, List.intercalate_singleton, separable]
    refine ⟨fun he => ?_, segments_eq_singleton ht⟩
    cases hd : depthAfter? 0 t with
    | some d => rfl
    | none =>
      have hcut := segments_ne_of_isCut ht (isCut_of_depthAfter? hd) [] []
      rw [List.append_nil] at hcut
      exact absurd he hcut
  | t :: t' :: rest, h => by
    have ht := h t List.mem_cons_self
    have hrest : ∀ s ∈ t' :: rest, IsElement s := fun s hs => h s (List.mem_cons_of_mem t hs)
    have ih := segments_join_eq_iff hrest
    rw [joinWith_cons_cons, separable, Bool.and_eq_true, beq_iff_eq, ← ih]
    · constructor
      · intro he
        cases hd : depthAfter? 0 t with
        | none => exact absurd he (segments_ne_of_isCut ht (isCut_of_depthAfter? hd) _ _)
        | some d =>
          by_cases hzero : d = 0
          · subst hzero
            rw [segments_append_comma ht hd] at he
            exact ⟨rfl, (List.cons.inj he).2⟩
          · exact absurd he (segments_ne_of_open ht hd hzero _ _)
      · rintro ⟨hd, he⟩
        rw [segments_append_comma ht hd, he]
    · exact fun h => List.cons_ne_nil _ _ h

/-! ## How many segments there are -/

/-- Elements that are not cut have at most one segment each. -/
theorem length_segmentsFrom_join_le : ∀ {t : Text} {rest : List Text},
    (∀ s ∈ t :: rest, IsElement s ∧ (depthAfter? 0 s).isSome) → ∀ (d : Nat) (segment : Text),
    (segmentsFrom d segment [] (joinWith "," (t :: rest))).length ≤ (t :: rest).length
  | t, rest, h, d, segment => by
    obtain ⟨ht, hsome⟩ := h t List.mem_cons_self
    obtain ⟨d₀, hd₀⟩ := Option.isSome_iff_exists.mp hsome
    obtain ⟨d', -, hd'⟩ := depthAfter?_mono (Nat.zero_le d) hd₀
    have hflush : ∀ s : Text, (flush s []).length ≤ 1 := by
      intro s
      unfold flush
      split <;> simp
    cases rest with
    | nil =>
      have hscan := goesOver_of_depthAfter? hd' ht.2.2 [] segment []
      rw [List.append_nil] at hscan
      rw [joinWith, List.intercalate_singleton, hscan, segmentsFrom, List.length_reverse]
      exact hflush _
    | cons t' rest =>
      have hrest : ∀ s ∈ t' :: rest, IsElement s ∧ (depthAfter? 0 s).isSome := fun s hs =>
        h s (List.mem_cons_of_mem t hs)
      have ih := length_segmentsFrom_join_le hrest
      rw [joinWith_cons_cons, goesOver_of_depthAfter? hd' ht.2.2, segmentsFrom]
      split
      · have hmany := ih 0 []
        have hone := hflush (t.reverse ++ segment)
        rw [segmentsFrom_done, List.length_append, List.length_reverse]
        simp only [List.length_cons] at hmany ⊢
        omega
      · exact Nat.le_trans (ih d' _) (Nat.le_succ _)

/-- Elements that are not cut merge, or they are the segments. -/
theorem separable_of_length : ∀ {texts : List Text}, (∀ t ∈ texts, IsElement t ∧ (depthAfter? 0 t).isSome) →
    (segments (joinWith "," texts)).length = texts.length → separable texts
  | [], _, _ => rfl
  | [t], h, _ => (h t List.mem_cons_self).2
  | t :: t' :: rest, h, hlength => by
    obtain ⟨ht, hsome⟩ := h t List.mem_cons_self
    obtain ⟨d, hd⟩ := Option.isSome_iff_exists.mp hsome
    have hrest : ∀ s ∈ t' :: rest, IsElement s ∧ (depthAfter? 0 s).isSome := fun s hs => h s (List.mem_cons_of_mem t hs)
    rw [joinWith_cons_cons] at hlength
    by_cases hzero : d = 0
    · subst hzero
      rw [segments_append_comma ht hd, List.length_cons, List.length_cons, Nat.add_right_cancel_iff] at hlength
      have hseparable := separable_of_length hrest hlength
      rw [separable, hd, hseparable]
      · rfl
      · exact fun h => List.cons_ne_nil _ _ h
    · have hle := length_segmentsFrom_join_le hrest d (',' :: (t.reverse ++ []))
      rw [segments, goesOver_of_depthAfter? hd ht.2.2, segmentsFrom, if_neg hzero] at hlength
      rw [hlength] at hle
      exact absurd hle (by simp)

end FilterPlan.Text
