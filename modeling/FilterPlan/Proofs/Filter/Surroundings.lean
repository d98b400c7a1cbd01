import FilterPlan.Proofs.Filter.Heads
import FilterPlan.Proofs.Filter.Reading
import FilterPlan.Proofs.Text.Closing

/-!
# What stands around an expression

An expression ends at the parenthesis that closes its first one, and nothing is read of what follows it, nor of the
spaces in front (`read_surrounded`). Where this parenthesis is can be said without the scan that looks for it
(`ends_where_closed`).
-/

namespace FilterPlan.Filter

/-- What stands around an expression is not read. -/
theorem read_surrounded {room : Nat} {t : Text} {f : Filter} (h : read room t = .ok f) (n : Nat) (u : Text) :
    read room (.replicate n ' ' ++ (t ++ u)) = .ok f := by
  obtain ⟨head, inner, rest, hh, he, hbody⟩ := read_eq_ok_iff.mp h
  apply read_eq_ok_iff.mpr
  exact ⟨_, inner, rest ++ u, Head.ofText?_surrounded hh n u, Text.enclosed?_append he u, hbody⟩

/-- **Where an expression ends.** From a byte that is an opening parenthesis, the scan finds the first closing one that
counts and up to which as many that count are closed as are opened. It stands behind the opening one, and both stand
between characters. Where none is found, the text has ended; the scan never closes more than is open. And what is found
stays the same when the text goes on. So an expression that is accepted is read as the same filter whatever follows it
and however many spaces stand in front, if the whole is not too long. -/
theorem ends_where_closed :
    (∀ (t : Text) (start : Nat), t.bytes[start]? = some '('.toUInt8 →
      (∀ i, t.closing? start = some i ↔ Text.ClosesFirst 0 (Text.active start (t.dropBytes start)) i) ∧
      (∀ i, t.closing? start = some i → start < i ∧ ∃ lead inner rest, t = lead ++ '(' :: (inner ++ ')' :: rest) ∧
        lead.byteSize = start ∧ Text.byteSize (lead ++ '(' :: inner) = i) ∧
      (t.closing? start = (Text.closeFrom 0 start (t.dropBytes start)).toOption ∧
        Text.closeFrom 0 start (t.dropBytes start) ≠ .error .excess) ∧
      ∀ i u, t.closing? start = some i → (t ++ u).closing? start = some i) ∧
    ∀ (key t : Text) (f : Filter), parse key t = .ok f → ∀ (n : Nat) (u : Text),
      Text.byteSize (.replicate n ' ' ++ (t ++ u)) ≤ maxExpressionSize →
        parse key (.replicate n ' ' ++ (t ++ u)) = .ok f := by
  refine ⟨fun t start h => ?_, fun key t f h n u hsize => ?_⟩
  · obtain ⟨lead, rest, rfl, rfl⟩ := Text.exists_append_of_byte (by decide) h
    have hdrop := Text.dropBytes_byteSize lead ('(' :: rest)
    refine ⟨fun i => ?_, fun i hi => ?_, ⟨Text.closing?_eq_toOption _ _, ?_⟩, fun i u hi => ?_⟩
    · rw [hdrop]
      exact Text.closing?_eq_some_iff
    · obtain ⟨inner, behind, rfl, hsize⟩ := Text.exists_append_of_closing? hi
      refine ⟨?_, lead, inner, behind, rfl, rfl, hsize⟩
      have hparenthesis : '('.utf8Size = 1 := rfl
      rw [Text.byteSize_append, Text.byteSize_cons, hparenthesis] at hsize
      omega
    · rw [hdrop]
      exact Text.closeFrom_ne_excess rest 0 _
    · exact Text.closing?_append_right hi u
  · obtain ⟨-, hread⟩ := parse_eq_ok_iff.mp h
    exact parse_eq_ok_iff.mpr ⟨hsize, read_surrounded hread n u⟩

/-- A group with characters of two bytes, in which an escaped parenthesis counts for nothing. -/
theorem ends_where_closed_escaped :
    (Text.bytes "é!OR(EQ(é\\)),NULL())(x")[5]? = some '('.toUInt8 ∧
    Text.closing? "é!OR(EQ(é\\)),NULL())(x" 5 = some 21 ∧
    Text.ClosesFirst 0 (Text.active 5 "(EQ(é\\)),NULL())(x") 21 ∧
    Text.closing? ("é!OR(EQ(é\\)),NULL())(x" ++ ")))") 5 = some 21 ∧
    Text.closing? "é!OR(EQ(é\\)),NULL())(x" 22 = none ∧
    Text.closeFrom 0 22 "(x" = .error .ended ∧
    parse "id" "!OR(EQ(é\\)),NULL())" =
      .ok (group .or true [comparison .eq false [.scalar "é\\)"], comparison .null false []]) ∧
    parse "id" (.replicate 2 ' ' ++ ("!OR(EQ(é\\)),NULL())" ++ "(x")) =
      .ok (group .or true [comparison .eq false [.scalar "é\\)"], comparison .null false []]) := by
  obtain ⟨hcloses, hparse⟩ := ends_where_closed
  have hopen : (Text.bytes "é!OR(EQ(é\\)),NULL())(x")[5]? = some '('.toUInt8 := rfl
  have hclosing : Text.closing? "é!OR(EQ(é\\)),NULL())(x" 5 = some 21 := rfl
  obtain ⟨hfirst, -, -, hmore⟩ := hcloses _ 5 hopen
  have hread : parse "id" "!OR(EQ(é\\)),NULL())" =
      .ok (group .or true [comparison .eq false [.scalar "é\\)"], comparison .null false []]) := rfl
  refine ⟨hopen, hclosing, (hfirst 21).mp hclosing, hmore 21 ")))" hclosing, rfl, rfl, hread, ?_⟩
  exact hparse _ _ _ hread 2 "(x" (by decide)

end FilterPlan.Filter
