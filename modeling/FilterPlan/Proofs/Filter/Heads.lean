import FilterPlan.Filter.Parser
import FilterPlan.Proofs.Text.Name
import Mathlib.Data.List.TakeWhile

/-!
# The beginning of an expression

An expression begins with spaces, a mark, a name and spaces, up to its first parenthesis, and its head is read off
exactly the texts that begin so (`Head.ofText?_eq_some_iff`). None of these characters has a meaning for the scans of
the rest (`Head.lead_of_ofText?`), spaces may be put in front, and what follows the text comes to the rest of the head
(`Head.ofText?_surrounded`).
-/

namespace FilterPlan.Filter

open Text (Stops)

variable {t : Text} {head : Head}

/-! ## Characters in front of a parenthesis -/

/-- The character has no meaning for the scans. -/
def IsInert (c : Char) : Prop :=
  c ≠ '\\' ∧ c ≠ '(' ∧ c ≠ ')' ∧ c ≠ ','

instance (c : Char) : Decidable (IsInert c) :=
  inferInstanceAs (Decidable (_ ∧ _))

theorem ne_of_isAlpha {c d : Char} (hc : c.isAlpha) (hd : d.isAlpha = false) : c ≠ d := by
  rintro rfl
  exact Bool.false_ne_true (hd.symm.trans hc)

theorem isInert_of_isAlpha {c : Char} (hc : c.isAlpha) : IsInert c :=
  ⟨ne_of_isAlpha hc rfl, ne_of_isAlpha hc rfl, ne_of_isAlpha hc rfl, ne_of_isAlpha hc rfl⟩

/-- What stands in front of the parenthesis: spaces, a `!` if the head is negated, the name, and spaces. -/
def leadText (negated : Bool) (name : Text) (before after : Nat) : Text :=
  .replicate before ' ' ++ (if negated then ['!'] else []) ++ name ++ .replicate after ' '

theorem isInert_leadText {name : Text} (hname : name.IsWord) (negated : Bool) (before after : Nat) :
    ∀ c ∈ leadText negated name before after, IsInert c := by
  intro c hc
  simp only [leadText, List.mem_append] at hc
  rcases hc with ((hc | hc) | hc) | hc
  · rw [List.eq_of_mem_replicate hc]
    decide
  · cases negated with
    | true =>
      rw [List.mem_singleton.mp hc]
      decide
    | false => cases hc
  · exact isInert_of_isAlpha (hname.2 c hc)
  · rw [List.eq_of_mem_replicate hc]
    decide

theorem takeWhile_space_eq (t : Text) : ∃ n, t.takeWhile (· == ' ') = .replicate n ' ' := by
  refine ⟨(t.takeWhile (· == ' ')).length, ?_⟩
  apply List.eq_replicate_of_mem
  intro c hc
  have hspace := List.mem_takeWhile_imp hc
  exact eq_of_beq hspace

theorem stops_spaces {p : Char → Bool} (hspace : p ' ' = false) (n : Nat) {t : Text} (ht : Stops p t) :
    Stops p (.replicate n ' ' ++ t) := by
  cases n with
  | zero => exact ht
  | succ n => exact Text.stops_cons hspace _

/-! ## Written forms of heads -/

namespace Head

/-- A written form of the head, with what follows it. -/
def text (head : Head) (before after : Nat) : Text :=
  leadText head.negated head.name before after ++ '(' :: head.rest

theorem named?_word {word : Text} (hword : word.IsWord) (negated : Bool) (n : Nat) (rest : Text) :
    named? negated (word ++ (.replicate n ' ' ++ '(' :: rest)) = some ⟨negated, word, rest⟩ := by
  have hstops : Stops Char.isAlpha (.replicate n ' ' ++ '(' :: rest) := stops_spaces rfl n (Text.stops_cons rfl _)
  have hspaces : (List.replicate n ' ' ++ '(' :: rest).dropWhile (· == ' ') = '(' :: rest :=
    Text.dropWhile_append_of_stops (fun c hc => beq_iff_eq.mpr (List.eq_of_mem_replicate hc)) (Text.stops_cons rfl _)
  have hempty : word.isEmpty = false := List.isEmpty_eq_false_iff.mpr hword.1
  unfold named?
  simp only [Text.takeWhile_append_of_stops hword.2 hstops, Text.dropWhile_append_of_stops hword.2 hstops, hspaces,
    hempty, Bool.false_eq_true, if_false]

/-- What is read as a name is one, in front of spaces and a parenthesis. -/
theorem eq_word_append {negated : Bool} (h : named? negated t = some head) : head.name.IsWord ∧
    head.negated = negated ∧ ∃ after, t = head.name ++ (.replicate after ' ' ++ '(' :: head.rest) := by
  unfold named? at h
  simp only at h
  split at h
  · next rest hrest =>
    obtain ⟨hname, h⟩ := Option.ite_none_left_eq_some.mp h
    obtain rfl := Option.some.inj h
    obtain ⟨after, hafter⟩ := takeWhile_space_eq (t.dropWhile Char.isAlpha)
    refine ⟨⟨?_, ?_⟩, rfl, after, ?_⟩
    · intro he
      exact hname (List.isEmpty_iff.mpr he)
    · intro c hc
      exact List.mem_takeWhile_imp hc
    · rw [← hafter, ← hrest, List.takeWhile_append_dropWhile, List.takeWhile_append_dropWhile]
  · cases h

theorem ofText?_text (hword : head.name.IsWord) (before after : Nat) :
    ofText? (head.text before after) = some head := by
  have hnamed := named?_word hword head.negated after head.rest
  have hspaces : ∀ {t : Text}, Stops (· == ' ') t → (List.replicate before ' ' ++ t).dropWhile (· == ' ') = t :=
    Text.dropWhile_append_of_stops fun c hc => beq_iff_eq.mpr (List.eq_of_mem_replicate hc)
  obtain ⟨negated, name, rest⟩ := head
  obtain ⟨c, letters, rfl⟩ := List.exists_cons_of_ne_nil hword.1
  have hc : c.isAlpha := hword.2 c List.mem_cons_self
  unfold ofText? text leadText
  cases negated with
  | true =>
    simp only [if_true, List.append_assoc, List.singleton_append]
    have hstops : Stops (· == ' ') ('!' :: (c :: letters ++ (.replicate after ' ' ++ '(' :: rest))) :=
      Text.stops_cons rfl _
    rw [List.cons_append, hspaces hstops]
    exact hnamed
  | false =>
    simp only [Bool.false_eq_true, if_false, List.append_nil, List.append_assoc]
    have hstops : Stops (· == ' ') (c :: letters ++ (.replicate after ' ' ++ '(' :: rest)) :=
      Text.stops_cons (p := (· == ' ')) (beq_eq_false_iff_ne.mpr (ne_of_isAlpha hc rfl)) _
    rw [hspaces hstops]
    split
    · next t he => exact absurd (List.cons.inj he).1 (ne_of_isAlpha hc rfl)
    · exact hnamed

/-- **Heads are read off their written forms**, and off nothing else. -/
theorem ofText?_eq_some_iff :
    ofText? t = some head ↔ head.name.IsWord ∧ ∃ before after, t = head.text before after := by
  constructor
  · intro h
    obtain ⟨before, hbefore⟩ := takeWhile_space_eq t
    have ht : t = .replicate before ' ' ++ t.dropWhile (· == ' ') := by
      rw [← hbefore, List.takeWhile_append_dropWhile]
    unfold ofText? at h
    split at h
    · next s hs =>
      obtain ⟨hword, hnegated, after, rfl⟩ := eq_word_append h
      refine ⟨hword, before, after, ?_⟩
      rw [ht, hs, text, leadText, hnegated]
      simp only [if_true, List.append_assoc, List.cons_append, List.nil_append]
    · obtain ⟨hword, hnegated, after, hs⟩ := eq_word_append h
      refine ⟨hword, before, after, ?_⟩
      rw [ht, hs, text, leadText, hnegated]
      simp only [Bool.false_eq_true, if_false, List.append_nil, List.append_assoc]
  · rintro ⟨hword, before, after, rfl⟩
    exact ofText?_text hword before after

/-- An expression has no backslash, comma or parenthesis in front of its first parenthesis. -/
theorem lead_of_ofText? (h : ofText? t = some head) :
    ∃ lead, (∀ c ∈ lead, IsInert c) ∧ t = lead ++ '(' :: head.rest := by
  obtain ⟨hword, before, after, rfl⟩ := ofText?_eq_some_iff.mp h
  exact ⟨_, isInert_leadText hword head.negated before after, rfl⟩

/-- Spaces in front of a head are not read, and what follows the text comes to the rest. -/
theorem ofText?_surrounded (h : ofText? t = some head) (n : Nat) (u : Text) :
    ofText? (.replicate n ' ' ++ (t ++ u)) = some { head with rest := head.rest ++ u } := by
  obtain ⟨hword, before, after, rfl⟩ := ofText?_eq_some_iff.mp h
  apply ofText?_eq_some_iff.mpr
  refine ⟨hword, n + before, after, ?_⟩
  simp only [text, leadText, List.replicate_add, List.append_assoc, List.cons_append]

end Head

end FilterPlan.Filter
