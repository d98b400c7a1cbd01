import FilterPlan.Text.Basic
import Mathlib.Data.List.Nodup
import Mathlib.Data.List.TakeWhile

/-!
# Numbered names

A generated name is a stem without digits with a numeral behind it. Stem and number can be read back
(`append_ofNat_inj`), so names with different stems or numbers differ (`nodup_numbered`), and none is a mere stem
(`append_ofNat_ne`). The number of a name can be changed without touching the stem (`renumber`).
-/

namespace FilterPlan.Text

/-- A text without digits. -/
def IsStem (t : Text) : Prop :=
  ∀ c ∈ t, c.isDigit = false

instance (t : Text) : Decidable (IsStem t) :=
  List.decidableBAll _ t

/-- The text in front of the first digit. -/
def stem (t : Text) : Text :=
  t.takeWhile (!Char.isDigit ·)

/-- The text from the first digit on. -/
def numeral (t : Text) : Text :=
  t.dropWhile (!Char.isDigit ·)

/-- The text with its number changed, if it has one. -/
def renumber (f : Nat → Nat) (t : Text) : Text :=
  if (numeral t).isEmpty then t else stem t ++ ofNat (f (Nat.ofDigitChars 10 (numeral t) 0))

variable {s s' t : Text}

theorem isDigit_of_mem_ofNat {c : Char} {n : Nat} (h : c ∈ ofNat n) : c.isDigit :=
  Nat.isDigit_of_mem_toDigits (by decide) (by decide) h

theorem ofNat_ne_nil (n : Nat) : ofNat n ≠ [] :=
  Nat.toDigits_ne_nil

/-! ## Reading stem and number back -/

theorem numeral_eq_nil (h : IsStem s) : numeral s = [] :=
  List.dropWhile_eq_nil_iff.mpr fun c hc => by rw [h c hc]; rfl

theorem stem_append_ofNat (h : IsStem s) (n : Nat) : stem (s ++ ofNat n) = s := by
  have hs : ∀ c ∈ s, (!c.isDigit) = true := fun c hc => by rw [h c hc]; rfl
  cases hn : ofNat n with
  | nil => exact absurd hn (ofNat_ne_nil n)
  | cons d rest =>
    have hd : d.isDigit := isDigit_of_mem_ofNat (hn ▸ List.mem_cons_self)
    rw [stem, List.takeWhile_append_of_pos hs, List.takeWhile_cons_of_neg (by rw [hd]; decide), List.append_nil]

theorem numeral_append_ofNat (h : IsStem s) (n : Nat) : numeral (s ++ ofNat n) = ofNat n := by
  have he : stem (s ++ ofNat n) ++ numeral (s ++ ofNat n) = s ++ ofNat n := List.takeWhile_append_dropWhile
  rw [stem_append_ofNat h] at he
  exact List.append_cancel_left he

/-- Numbered names are equal only if both their stems and their numbers are. -/
theorem append_ofNat_inj (h : IsStem s) (h' : IsStem s') {m n : Nat} :
    s ++ ofNat m = s' ++ ofNat n ↔ s = s' ∧ m = n := by
  constructor
  · intro he
    have hs : s = s' := by rw [← stem_append_ofNat h m, he, stem_append_ofNat h']
    have hn : ofNat m = ofNat n := by rw [← numeral_append_ofNat h m, he, numeral_append_ofNat h']
    exact ⟨hs, ofNat_injective hn⟩
  · rintro ⟨rfl, rfl⟩
    rfl

/-- A numbered name has a digit. -/
theorem append_ofNat_ne (h : IsStem s) (h' : IsStem s') (n : Nat) : s ++ ofNat n ≠ s' := by
  intro he
  have hn : numeral (s ++ ofNat n) = [] := by rw [he, numeral_eq_nil h']
  rw [numeral_append_ofNat h] at hn
  exact ofNat_ne_nil n hn

/-- Names with consecutive numbers differ. -/
theorem nodup_numbered (h : IsStem s) (first count : Nat) :
    ((List.range' first count).map fun i => s ++ ofNat i).Nodup :=
  List.Nodup.map (fun _ _ he => ((append_ofNat_inj h h).mp he).2) List.nodup_range'

/-! ## Other numbers -/

theorem renumber_append_ofNat (f : Nat → Nat) (h : IsStem s) (n : Nat) :
    renumber f (s ++ ofNat n) = s ++ ofNat (f n) := by
  have hn : Nat.ofDigitChars 10 (ofNat n) 0 = n := Nat.ofDigitChars_toDigits (by decide) (by decide)
  rw [renumber, stem_append_ofNat h, numeral_append_ofNat h, hn, if_neg]
  rw [List.isEmpty_iff]
  exact ofNat_ne_nil n

theorem renumber_of_isStem (f : Nat → Nat) (h : IsStem s) : renumber f s = s := by
  rw [renumber, numeral_eq_nil h]
  rfl

theorem isStem_stem (t : Text) : IsStem (stem t) := fun c hc => by
  have hdigit : (!c.isDigit) = true := List.mem_takeWhile_imp (p := (!Char.isDigit ·)) hc
  rwa [Bool.not_eq_true'] at hdigit

/-- One change of numbers after another is a single change. -/
theorem renumber_renumber (f g : Nat → Nat) (t : Text) : renumber g (renumber f t) = renumber (g ∘ f) t := by
  by_cases h : (numeral t).isEmpty
  · simp only [renumber, if_pos h]
  · rw [renumber.eq_1 f, if_neg h, renumber_append_ofNat g (isStem_stem t), renumber, if_neg h, Function.comp_apply]

end FilterPlan.Text
