import FilterPlan.Text.Nesting

/-!
# Balanced text

`Nests d t d'` says that the scan behind `Text.enclosed?` goes over `t` with `d` parentheses open at the start and `d'`
at the end, and closes none that was open before. So `enclosed?` gives what is in front of the first parenthesis that
closes more than is open there (`enclosed?_eq_some_iff`): a text that nests from no depth to none.
-/

namespace FilterPlan.Text

/-- The text takes the scan from the first depth to the second, where a backslash escapes whatever follows it. -/
inductive Nests : Nat → Text → Nat → Prop
  | nil (d : Nat) : Nests d [] d
  | escaped {d d' : Nat} {t : Text} (c : Char) : Nests d t d' → Nests d ('\\' :: c :: t) d'
  | opening {d d' : Nat} {t : Text} : Nests (d + 1) t d' → Nests d ('(' :: t) d'
  | closing {d d' : Nat} {t : Text} : Nests d t d' → Nests (d + 1) (')' :: t) d'
  | plain {d d' : Nat} {t : Text} {c : Char} : c ≠ '\\' → c ≠ '(' → c ≠ ')' → Nests d t d' → Nests d (c :: t) d'

namespace Nests

variable {d d' d'' : Nat} {s t : Text}

theorem append (hs : Nests d s d') (ht : Nests d' t d'') : Nests d (s ++ t) d'' := by
  induction hs with
  | nil d => exact ht
  | escaped c _ ih => exact escaped c (ih ht)
  | opening _ ih => exact opening (ih ht)
  | closing _ ih => exact closing (ih ht)
  | plain h₁ h₂ h₃ _ ih => exact plain h₁ h₂ h₃ (ih ht)

/-- What nests on its own nests inside further parentheses. -/
theorem raise (k : Nat) (h : Nests d t d') : Nests (d + k) t (d' + k) := by
  induction h with
  | nil d => exact nil _
  | escaped c _ ih => exact escaped c ih
  | @opening d _ _ _ ih =>
    rw [Nat.add_right_comm] at ih
    exact opening ih
  | @closing d _ _ _ ih =>
    rw [Nat.add_right_comm]
    exact closing ih
  | plain h₁ h₂ h₃ _ ih => exact plain h₁ h₂ h₃ ih

theorem enclose (h : Nests 0 t 0) : Nests 0 ('(' :: (t ++ [')'])) 0 :=
  opening ((h.raise 1).append (closing (nil 0)))

/-- A text of characters without a meaning does not change the depth. -/
theorem of_plain : ∀ {t : Text}, (∀ c ∈ t, c ≠ '\\' ∧ c ≠ '(' ∧ c ≠ ')') → Nests d t d
  | [], _ => nil d
  | c :: t, h => by
    obtain ⟨h₁, h₂, h₃⟩ := h c List.mem_cons_self
    exact plain h₁ h₂ h₃ (of_plain fun e he => h e (List.mem_cons_of_mem c he))

end Nests

/-! ## The scan -/

theorem enclosedFrom?_plain {c : Char} (h₁ : c ≠ '\\') (h₂ : c ≠ '(') (h₃ : c ≠ ')') (d : Nat) (p t : Text) :
    enclosedFrom? d p (c :: t) = enclosedFrom? d (c :: p) t := by
  rw [enclosedFrom?]
  · exact fun h => absurd h h₁
  · exact fun _ _ h => absurd h h₁
  · exact h₂
  · exact h₃

/-- The scan goes over a text that nests, if a parenthesis stays open around it. -/
theorem enclosedFrom?_append {d d' : Nat} {t : Text} (h : Nests d t d') (k : Nat) :
    ∀ p u, enclosedFrom? (d + k + 1) p (t ++ u) = enclosedFrom? (d' + k + 1) (t.reverse ++ p) u := by
  induction h with
  | nil d => exact fun p u => rfl
  | escaped c _ ih =>
    intro p u
    simp only [List.cons_append, enclosedFrom?, ih, List.reverse_cons, List.append_assoc, List.nil_append]
  | @opening d _ _ _ ih =>
    intro p u
    simp only [List.cons_append, enclosedFrom?, List.reverse_cons, List.append_assoc, List.nil_append]
    rw [← ih, Nat.add_right_comm d 1 k]
  | @closing d _ _ _ ih =>
    intro p u
    rw [Nat.add_right_comm d 1 k]
    simp only [List.cons_append, enclosedFrom?, ih, List.reverse_cons, List.append_assoc, List.nil_append]
  | plain h₁ h₂ h₃ _ ih =>
    intro p u
    simp only [List.cons_append, enclosedFrom?_plain h₁ h₂ h₃, ih, List.reverse_cons, List.append_assoc,
      List.nil_append]

/-- Where the scan ends, the text before the last parenthesis closes all that was open but one. -/
theorem nests_of_enclosedFrom? : ∀ {d : Nat} {p t b r : Text}, enclosedFrom? (d + 1) p t = some (b, r) →
    ∃ w, b = p.reverse ++ w ∧ t = w ++ ')' :: r ∧ Nests d w 0
  | _, _, [], _, _, h => by cases h
  | d, p, c :: t, b, r, h => by
    by_cases h₁ : c = '\\'
    · subst h₁
      cases t with
      | nil => cases h
      | cons c t =>
        obtain ⟨w, rfl, rfl, hw⟩ := nests_of_enclosedFrom? (t := t) h
        exact ⟨'\\' :: c :: w, by simp, rfl, .escaped c hw⟩
    by_cases h₂ : c = '('
    · subst h₂
      obtain ⟨w, rfl, rfl, hw⟩ := nests_of_enclosedFrom? (d := d + 1) (t := t) h
      exact ⟨'(' :: w, by simp, rfl, .opening hw⟩
    by_cases h₃ : c = ')'
    · subst h₃
      cases d with
      | zero =>
        obtain ⟨rfl, rfl⟩ := Prod.mk.inj (Option.some.inj h)
        exact ⟨[], by simp, rfl, .nil 0⟩
      | succ d =>
        obtain ⟨w, rfl, rfl, hw⟩ := nests_of_enclosedFrom? (t := t) h
        exact ⟨')' :: w, by simp, rfl, .closing hw⟩
    rw [enclosedFrom?_plain h₁ h₂ h₃] at h
    obtain ⟨w, rfl, rfl, hw⟩ := nests_of_enclosedFrom? h
    exact ⟨c :: w, by simp, rfl, .plain h₁ h₂ h₃ hw⟩
  termination_by _ _ t => t.length

/-- The text that a parenthesis encloses is the one that is balanced in itself and followed by the closing one. -/
theorem enclosed?_eq_some_iff {t b r : Text} : enclosed? t = some (b, r) ↔ t = b ++ ')' :: r ∧ Nests 0 b 0 := by
  constructor
  · intro h
    obtain ⟨w, rfl, rfl, hw⟩ := nests_of_enclosedFrom? h
    exact ⟨rfl, hw⟩
  · rintro ⟨rfl, hb⟩
    have hscan : enclosed? (b ++ ')' :: r) = enclosedFrom? 1 (b.reverse ++ []) (')' :: r) :=
      enclosedFrom?_append hb 0 [] (')' :: r)
    rw [hscan, List.append_nil, enclosedFrom?, List.reverse_reverse]

/-- What a parenthesis encloses does not depend on what follows. -/
theorem enclosed?_append {t b r : Text} (h : enclosed? t = some (b, r)) (u : Text) :
    enclosed? (t ++ u) = some (b, r ++ u) := by
  obtain ⟨rfl, hb⟩ := enclosed?_eq_some_iff.mp h
  apply enclosed?_eq_some_iff.mpr
  exact ⟨by rw [List.append_assoc, List.cons_append], hb⟩

end FilterPlan.Text
