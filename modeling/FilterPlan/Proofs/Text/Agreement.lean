import FilterPlan.Proofs.Text.Nesting
import FilterPlan.Proofs.Text.Segments

/-!
# Where the two scans agree

A backslash escapes any character for the scan behind `Text.enclosed?`, and a comma or parenthesis only for the scan
behind `Text.segments`. So they disagree about a parenthesis directly behind an even, positive number of backslashes
(`disputed`): it counts for the first scan and not for the second. Where no opening parenthesis is disputed, the second
scan is deeper than the first by the number of closing ones that are (`depthAfter?_of_nests`).
-/

namespace FilterPlan.Text

/-- How many times the parenthesis stands directly behind an even, positive number of backslashes. -/
def disputed (parenthesis : Char) : Text → Nat
  | [] => 0
  | '\\' :: c :: t => (if c = '\\' ∧ t.head? = some parenthesis then 1 else 0) + disputed parenthesis t
  | _ :: t => disputed parenthesis t

variable {p : Char}

theorem disputed_cons {c : Char} (hc : c ≠ '\\') (t : Text) : disputed p (c :: t) = disputed p t := by
  rw [disputed]
  exact fun _ _ h => absurd h hc

theorem disputed_append {s : Text} (hs : '\\' ∉ s) (t : Text) : disputed p (s ++ t) = disputed p t := by
  induction s with
  | nil => rfl
  | cons c s ih =>
    rw [List.mem_cons, not_or] at hs
    rw [List.cons_append, disputed_cons (Ne.symm hs.1), ih hs.2]

theorem disputed_escaped {c : Char} (hc : c ≠ '\\') (t : Text) : disputed p ('\\' :: c :: t) = disputed p t := by
  rw [disputed, if_neg fun h => hc h.1, Nat.zero_add]

/-- A pair of backslashes in front of anything but the parenthesis. -/
theorem disputed_pair {t : Text} (ht : t.head? ≠ some p) : disputed p ('\\' :: '\\' :: t) = disputed p t := by
  rw [disputed, if_neg fun h => ht h.2, Nat.zero_add]

/-! ## The second scan inside a parenthesis -/

/-- A backslash escapes any other character, or is passed together with it. -/
theorem depthAfter?_escaped {c : Char} (hc : c ≠ '\\') (d : Nat) (t : Text) :
    depthAfter? (d + 1) ('\\' :: c :: t) = depthAfter? (d + 1) t := by
  by_cases hm : c ∈ [',', '(', ')']
  · simp only [List.mem_cons, List.not_mem_nil, or_false] at hm
    rcases hm with rfl | rfl | rfl
    · rfl
    · rfl
    · rfl
  · rw [depthAfter?_plain, depthAfter?_plain ⟨hm, fun h => absurd h hc⟩]
    exact ⟨by decide, fun _ e he => by cases he; exact hm⟩

theorem depthAfter?_ordinary {c : Char} (h₁ : c ≠ '\\') (h₂ : c ≠ '(') (h₃ : c ≠ ')') (d : Nat) (t : Text) :
    depthAfter? (d + 1) (c :: t) = depthAfter? (d + 1) t := by
  by_cases h₄ : c = ','
  · subst h₄
    rfl
  · exact depthAfter?_plain (isPlain_of_ne h₁ h₂ h₃ h₄ t) (d + 1)

/-- A pair of backslashes is passed, and the second one makes no difference to what is no parenthesis. -/
theorem depthAfter?_pair {c : Char} (h₂ : c ≠ '(') (h₃ : c ≠ ')') (d : Nat) (t : Text) :
    depthAfter? (d + 1) ('\\' :: '\\' :: c :: t) = depthAfter? (d + 1) (c :: t) := by
  have hpair : depthAfter? (d + 1) ('\\' :: '\\' :: c :: t) = depthAfter? (d + 1) ('\\' :: c :: t) := rfl
  by_cases h₁ : c = '\\'
  · subst h₁
    rw [hpair, depthAfter?_plain]
    exact ⟨by decide, fun _ e he => by cases he; decide⟩
  · rw [hpair, depthAfter?_escaped h₁, depthAfter?_ordinary h₁ h₂ h₃]

/-- How deep the second scan is behind the end of a parenthesis, for one in which the first scan takes the given steps.
A closing parenthesis that is disputed leaves it deeper. -/
theorem depthAfter?_of_nests : ∀ {d d' : Nat} {w : Text}, Nests d w d' → disputed '(' (w ++ [')']) = 0 →
    ∀ (k : Nat) (u : Text),
    depthAfter? (d + k + 1) (w ++ ')' :: u) = depthAfter? (d' + k + disputed ')' (w ++ [')'])) u
  | d, d', w, h, hno, k, u => by
    cases h with
    | nil => rfl
    | @opening _ _ t h =>
      have ih := depthAfter?_of_nests h hno k u
      rw [Nat.add_right_comm d 1 k] at ih
      exact ih
    | @closing d _ t h =>
      rw [Nat.add_right_comm d 1 k]
      exact depthAfter?_of_nests h hno k u
    | @plain _ _ t c h₁ h₂ h₃ h =>
      simp only [List.cons_append, disputed_cons h₁] at hno ⊢
      rw [depthAfter?_ordinary h₁ h₂ h₃]
      exact depthAfter?_of_nests h hno k u
    | @escaped _ _ t c h =>
      by_cases hc : c = '\\'
      · subst hc
        -- The second scan passes the first backslash alone, so the second one may escape what follows.
        cases h with
        | nil => rfl
        | @escaped _ _ t c h =>
          simp only [List.cons_append] at hno ⊢
          rw [disputed_pair (by simp)] at hno ⊢
          rw [depthAfter?_pair (by decide) (by decide)]
          exact depthAfter?_of_nests (.escaped c h) hno k u
        | @opening _ _ t h =>
          simp only [List.cons_append] at hno
          rw [disputed, if_pos ⟨rfl, rfl⟩] at hno
          omega
        | @closing d _ t h =>
          simp only [List.cons_append] at hno ⊢
          rw [disputed_pair (by simp), disputed_cons (by decide)] at hno
          rw [disputed, if_pos ⟨rfl, rfl⟩, disputed_cons (by decide)]
          rw [show d + 1 + k + 1 = d + (k + 1) + 1 by omega, ← Nat.add_assoc _ 1]
          exact depthAfter?_of_nests h hno (k + 1) u
        | @plain _ _ t c h₁ h₂ h₃ h =>
          simp only [List.cons_append] at hno ⊢
          rw [disputed_pair (by simpa using h₂)] at hno
          rw [disputed_pair (by simpa using h₃), depthAfter?_pair h₂ h₃]
          exact depthAfter?_of_nests (.plain h₁ h₂ h₃ h) hno k u
      · simp only [List.cons_append, disputed_escaped hc] at hno ⊢
        rw [depthAfter?_escaped hc]
        exact depthAfter?_of_nests h hno k u
  termination_by _ _ w => w.length

end FilterPlan.Text
