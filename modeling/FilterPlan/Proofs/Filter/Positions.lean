import FilterPlan.Proofs.Filter.Heads
import FilterPlan.Proofs.Filter.Reading
import FilterPlan.Proofs.Text.Slices

/-!
# Reading by byte positions

Where a text is held as bytes, the text inside a parenthesis is cut out between two positions, and a cut inside a
character or beyond the end would put an end to the program. Reading that makes these cuts (`readAt`) never comes to such
a position, and is the same as reading (`readAt_eq`).
-/

namespace FilterPlan.Filter

/-- Why reading by byte positions ends without a filter. -/
inductive Halt where
  /-- The text is no filter. -/
  | rejected (cause : Rejection)
  /-- A position is beyond the end, inside a character, or in front of the one that it should follow. -/
  | outOfRange
deriving DecidableEq, Repr

/-- The text inside the parenthesis of a head. The head ends behind the opening parenthesis. From the position of this
one on the text is searched for the closing one, and the text between them is cut out. -/
def insideAt (t : Text) (head : Head) : Except Halt Text :=
  match t.byteSize - head.rest.byteSize with
  | 0 => .error .outOfRange
  | start + 1 =>
    match t.slice? start t.byteSize with
    | none => .error .outOfRange
    | some _ =>
      match t.closing? start with
      | none => .error (.rejected (.malformed t))
      | some stop =>
        match t.slice? (start + 1) stop with
        | none => .error .outOfRange
        | some inner => .ok inner

/-- Reads an expression as `read` does, but finds the text inside its parenthesis by positions. -/
def readAt (room : Nat) (t : Text) : Except Halt Filter :=
  match Head.ofText? t with
  | none => .error (.rejected (.malformed t))
  | some head =>
    match insideAt t head with
    | .error halt => .error halt
    | .ok inner =>
      match Symbol.ofName? head.name with
      | none => .error (.rejected (.malformed t))
      | some (.operator op) =>
        match operands op inner with
        | .error cause => .error (.rejected (.misuse cause))
        | .ok args => .ok (comparison op head.negated args)
      | some (.connective op) =>
        match room with
        | 0 => .error (.rejected (.misuse .tooDeep))
        | room + 1 =>
          match inner.segments.mapM (readAt room) with
          | .error halt => .error halt
          | .ok [] => .error (.rejected (.misuse (.emptyGroup op)))
          | .ok children => .ok (group op head.negated children)

/-- All positions are between characters and in order, and what is cut out is what the parenthesis encloses. -/
theorem insideAt_eq {t : Text} {head : Head} (h : Head.ofText? t = some head) : insideAt t head =
    match Text.enclosed? head.rest with
    | none => .error (.rejected (.malformed t))
    | some (inner, _) => .ok inner := by
  obtain ⟨lead, -, rfl⟩ := Head.lead_of_ofText? h
  have hstart : Text.byteSize (lead ++ '(' :: head.rest) - head.rest.byteSize = lead.byteSize + 1 := by
    have hparenthesis : '('.utf8Size = 1 := rfl
    rw [Text.byteSize_append, Text.byteSize_cons, hparenthesis]
    omega
  have htail : Text.slice? (lead ++ '(' :: head.rest) lead.byteSize (Text.byteSize (lead ++ '(' :: head.rest)) =
      some ('(' :: head.rest) :=
    Text.slice?_eq_some_iff.mpr ⟨lead, [], by rw [List.append_nil], rfl, rfl⟩
  unfold insideAt
  simp only [hstart, htail, Text.closing?_append]
  cases he : Text.enclosed? head.rest with
  | none => rfl
  | some found =>
    obtain ⟨inner, rest⟩ := found
    have hrest := (Text.enclosed?_eq_some_iff.mp he).1
    have hinner : Text.slice? (lead ++ '(' :: head.rest) (lead.byteSize + 1) (lead.byteSize + 1 + inner.byteSize) =
        some inner := by
      refine Text.slice?_eq_some_iff.mpr ⟨lead ++ ['('], ')' :: rest, ?_, ?_, ?_⟩
      · rw [hrest, List.append_assoc, List.singleton_append]
      · rw [Text.byteSize_append]
        rfl
      · rw [Text.byteSize_append, Text.byteSize_append]
        rfl
    simp only [Option.map_some, hinner]

/-- **No position is out of range**, however deep the expression: reading by positions is reading. -/
theorem readAt_eq : ∀ (room : Nat) (t : Text), readAt room t = (read room t).mapError .rejected
  | room, t => by
    unfold readAt read
    cases hh : Head.ofText? t with
    | none => rfl
    | some head =>
      simp only [insideAt_eq hh]
      cases Text.enclosed? head.rest with
      | none => rfl
      | some found =>
        cases hs : Symbol.ofName? head.name with
        | none => rfl
        | some symbol =>
          cases symbol with
          | operator op =>
            simp only
            cases operands op found.1 <;> rfl
          | connective op =>
            cases room with
            | zero => rfl
            | succ room =>
              have hmembers : readAt room = fun s => (read room s).mapError .rejected := funext (readAt_eq room)
              simp only [hmembers, Outcome.mapM_mapError]
              cases found.1.segments.mapM (read room) with
              | error rejection => rfl
              | ok children => cases children <;> rfl

end FilterPlan.Filter
