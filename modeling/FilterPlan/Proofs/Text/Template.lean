import FilterPlan.Text.Basic
import Mathlib.Algebra.GroupWithZero.Nat

/-!
# Texts with places for a name

A function of a name is a template if it does nothing but fill the name in between fragments that do not depend on it
(`IsTemplate`). Templates are made of plain text and of places by putting one behind the other (`IsTemplate.append`,
`IsTemplate.joined`), and the places add up.
-/

namespace FilterPlan.Text

/-- The text has `n` places where the name is filled in, and is the same around them, whatever the name. -/
def IsTemplate (n : Nat) (f : Text → Text) : Prop :=
  ∃ fragments, fragments.length = n + 1 ∧ ∀ name, f name = joinWith name fragments

/-- Of two joined texts one behind the other, the parts that meet become one. -/
theorem exists_joinWith_append : ∀ (a : Text) (rest : List Text) (b : Text) (rest' : List Text),
    ∃ c all, all.length = rest.length + rest'.length ∧
      ∀ sep, joinWith sep (a :: rest) ++ joinWith sep (b :: rest') = joinWith sep (c :: all)
  | a, [], b, rest' => ⟨a ++ b, rest', (Nat.zero_add _).symm, fun sep => by cases rest' <;> simp [joinWith]⟩
  | a, a' :: rest, b, rest' => by
    obtain ⟨c, all, hlength, hjoin⟩ := exists_joinWith_append a' rest b rest'
    refine ⟨a, c :: all, by simp only [List.length_cons]; omega, fun sep => ?_⟩
    have hrest := hjoin sep
    simp only [joinWith] at hrest
    simp only [joinWith, List.intercalate_cons_cons, List.append_assoc, hrest]

namespace IsTemplate

variable {f g : Text → Text} {m n : Nat}

theorem const (t : Text) : IsTemplate 0 fun _ => t :=
  ⟨[t], rfl, fun name => by rw [joinWith, List.intercalate_singleton]⟩

theorem place : IsTemplate 1 fun name => name :=
  ⟨[[], []], rfl, fun name => by simp [joinWith]⟩

theorem congr (h : IsTemplate n f) (hfg : ∀ name, g name = f name) : IsTemplate n g := by
  obtain ⟨fragments, hlength, hf⟩ := h
  exact ⟨fragments, hlength, fun name => (hfg name).trans (hf name)⟩

theorem append (hf : IsTemplate m f) (hg : IsTemplate n g) : IsTemplate (m + n) fun name => f name ++ g name := by
  obtain ⟨parts, hm, hf⟩ := hf
  obtain ⟨parts', hn, hg⟩ := hg
  obtain ⟨a, rest, rfl⟩ := List.exists_cons_of_length_eq_add_one hm
  obtain ⟨b, rest', rfl⟩ := List.exists_cons_of_length_eq_add_one hn
  obtain ⟨c, all, hlength, hall⟩ := exists_joinWith_append a rest b rest'
  simp only [List.length_cons, Nat.add_right_cancel_iff] at hm hn
  refine ⟨c :: all, by rw [List.length_cons, hlength, hm, hn], fun name => ?_⟩
  show f name ++ g name = _
  rw [hf, hg, hall]

/-- Plain text around a template leaves its places as they are. -/
theorem between (hf : IsTemplate n f) (before after : Text) : IsTemplate n fun name => before ++ f name ++ after := by
  have h := ((const before).append hf).append (const after)
  rwa [Nat.zero_add] at h

variable {α : Type} {render : Text → α → Text} {places : α → Nat}

theorem joined (sep : Text) : ∀ {l : List α}, (∀ a ∈ l, IsTemplate (places a) fun name => render name a) →
    IsTemplate (l.map places).sum fun name => joinWith sep (l.map (render name))
  | [], _ => const []
  | [a], h => (h a List.mem_cons_self).congr fun name => by simp [joinWith]
  | a :: b :: rest, h => by
    have hrest := joined sep (l := b :: rest) fun c hc => h c (List.mem_cons_of_mem a hc)
    rw [List.map_cons, List.sum_cons]
    exact ((h a List.mem_cons_self).append (hrest.between sep [])).congr fun name => by simp [joinWith]

theorem flatMap : ∀ {l : List α}, (∀ a ∈ l, IsTemplate (places a) fun name => render name a) →
    IsTemplate (l.map places).sum fun name => l.flatMap (render name)
  | [], _ => const []
  | a :: rest, h => by
    rw [List.map_cons, List.sum_cons]
    exact ((h a List.mem_cons_self).append (flatMap fun b hb => h b (List.mem_cons_of_mem a hb))).congr fun name => by
      rw [List.flatMap_cons]

end IsTemplate

end FilterPlan.Text
