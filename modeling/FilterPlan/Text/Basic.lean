/-!
# Text

Text is the list of its characters, so that every law about it goes by induction on a list. This
file holds the few operations that the rest of the library needs on top of the ones for lists:
sizes in bytes, cutting at separators, joining, and decimal numerals.
-/

namespace FilterPlan

/-- A text, as the list of its characters. -/
abbrev Text := List Char

instance : Coe String Text := ⟨String.toList⟩

namespace Text

/-- The number of bytes of the text in UTF-8. -/
def byteSize (t : Text) : Nat :=
  t.foldr (fun c n => c.utf8Size + n) 0

@[simp] theorem byteSize_nil : byteSize [] = 0 := rfl

@[simp] theorem byteSize_cons (c : Char) (t : Text) : byteSize (c :: t) = c.utf8Size + byteSize t := rfl

@[simp] theorem byteSize_append (s t : Text) : byteSize (s ++ t) = byteSize s + byteSize t := by
  induction s with
  | nil => simp
  | cons c s ih => simp [ih, Nat.add_assoc]

/-- A text has at least as many bytes as characters. -/
theorem length_le_byteSize (t : Text) : t.length ≤ byteSize t := by
  induction t with
  | nil => exact Nat.le_refl 0
  | cons c t ih =>
    have hc := Char.utf8Size_pos c
    simp only [List.length_cons, byteSize_cons]
    omega

/-- What is left of the text after its first `n` bytes. -/
def dropBytes : Nat → Text → Text
  | 0, t => t
  | _ + 1, [] => []
  | n + 1, c :: t => dropBytes (n + 1 - c.utf8Size) t

/-- Dropping as many bytes as a beginning has leaves the rest. -/
theorem dropBytes_byteSize (s t : Text) : dropBytes (byteSize s) (s ++ t) = t := by
  induction s with
  | nil => simp [dropBytes]
  | cons c s ih =>
    obtain ⟨n, hn⟩ := Nat.exists_eq_succ_of_ne_zero (Nat.pos_iff_ne_zero.mp (Char.utf8Size_pos c))
    rw [byteSize_cons, hn, Nat.succ_add, List.cons_append, dropBytes, hn]
    simpa [Nat.succ_eq_add_one, Nat.add_right_comm] using ih

/-- The fields between the separators, empty ones included: there is one more than separators. -/
def fields (isSeparator : Char → Bool) (t : Text) : List Text :=
  t.foldr step [[]]
where
  /-- Puts a character in front of the first field, or opens a new field at a separator. -/
  step (c : Char) : List Text → List Text
    | field :: rest => if isSeparator c then [] :: field :: rest else (c :: field) :: rest
    | [] => [[c]]

/-- The fields that are not empty. -/
def pieces (isSeparator : Char → Bool) (t : Text) : List Text :=
  (t.fields isSeparator).filter (!·.isEmpty)

/-- The parts one after the other, with the separator between neighbours. -/
def joinWith (separator : Text) (parts : List Text) : Text :=
  separator.intercalate parts

/-- The part before the first `c` and the part after it, or `none` if the text has no `c`. -/
def cutAt? (c : Char) (t : Text) : Option (Text × Text) :=
  match t.dropWhile (· != c) with
  | [] => none
  | _ :: rest => some (t.takeWhile (· != c), rest)

theorem takeWhile_ne_append {c : Char} {a b : Text} (h : c ∉ a) : (a ++ c :: b).takeWhile (· != c) = a := by
  induction a with
  | nil => simp
  | cons d a ih =>
    simp only [List.mem_cons, not_or] at h
    simp [Ne.symm h.1, ih h.2]

theorem dropWhile_ne_append {c : Char} {a b : Text} (h : c ∉ a) :
    (a ++ c :: b).dropWhile (· != c) = c :: b := by
  induction a with
  | nil => simp
  | cons d a ih =>
    simp only [List.mem_cons, not_or] at h
    simp [Ne.symm h.1, ih h.2]

theorem not_mem_takeWhile_ne (c : Char) (t : Text) : c ∉ t.takeWhile (· != c) := by
  induction t with
  | nil => simp
  | cons d t ih =>
    by_cases h : d = c
    · simp [h]
    · simp [h, Ne.symm h, ih]

/-- The text is cut at the first `c`. -/
theorem cutAt?_eq_some_iff {c : Char} {t a b : Text} :
    cutAt? c t = some (a, b) ↔ t = a ++ c :: b ∧ c ∉ a := by
  constructor
  · intro h
    unfold cutAt? at h
    split at h
    · simp at h
    · next d rest hd =>
      simp only [Option.some.injEq, Prod.mk.injEq] at h
      obtain ⟨rfl, rfl⟩ := h
      have hc : d = c := by
        have := List.head?_dropWhile_not (· != c) t
        simpa [hd] using this
      subst hc
      refine ⟨?_, not_mem_takeWhile_ne d t⟩
      rw [← hd, List.takeWhile_append_dropWhile]
  · rintro ⟨rfl, h⟩
    simp [cutAt?, takeWhile_ne_append h, dropWhile_ne_append h]

/-- What follows the given beginning, or `none` if the text begins otherwise. -/
def after? : Text → Text → Option Text
  | [], t => some t
  | _ :: _, [] => none
  | a :: start, c :: t => if a = c then after? start t else none

theorem after?_eq_some_iff {start t rest : Text} : after? start t = some rest ↔ t = start ++ rest := by
  induction start generalizing t with
  | nil => simp [after?]
  | cons a start ih =>
    cases t with
    | nil => simp [after?]
    | cons c t =>
      by_cases h : a = c
      · simp [after?, h, ih]
      · simp [after?, h, Ne.symm h]

/-- The text with ASCII letters in lower case. -/
def lower (t : Text) : Text :=
  t.map Char.toLower

/-- The text with ASCII letters in upper case. -/
def upper (t : Text) : Text :=
  t.map Char.toUpper

/-- The decimal numeral of a natural number. -/
def ofNat (n : Nat) : Text :=
  Nat.toDigits 10 n

/-- Different numbers have different numerals. -/
theorem ofNat_injective {m n : Nat} (h : ofNat m = ofNat n) : m = n := by
  have hd := congrArg (Nat.ofDigitChars 10 · 0) h
  simpa only [ofNat, Nat.ofDigitChars_toDigits (by decide : 1 < 10) (by decide : 10 ≤ 10)] using hd

/-- The bound of the 64-bit integers: every identifier, limit and offset is below it. -/
def wordBound : Nat := Nat.pow 2 64

/-- Reads a nonempty run of ASCII digits whose number fits into 64 bits. -/
def digits64? (t : Text) : Option Nat :=
  if t.isEmpty || !t.all Char.isDigit then none
  else
    let n := Nat.ofDigitChars 10 t 0
    if n < wordBound then some n else none

/-- Reads an unsigned 64-bit integer: digits, with at most one plus sign in front. -/
def nat64? : Text → Option Nat
  | '+' :: t => digits64? t
  | t => digits64? t

/-- Whether the text is a letter or underscore followed by letters, digits and underscores, all
of them ASCII. -/
def isIdentifier : Text → Bool
  | [] => false
  | c :: rest => isStart c && rest.all fun d => isStart d || d.isDigit
where
  /-- Whether an identifier may begin with the character. -/
  isStart (c : Char) : Bool := c.isAlpha || c == '_'

/-- Text order: by the code points of the characters, which is also the order of the UTF-8 bytes. -/
def precedes : Text → Text → Bool
  | [], _ => true
  | _ :: _, [] => false
  | a :: s, b :: t => if a = b then precedes s t else a.toNat < b.toNat

/-- The texts in text order. -/
def sorted (l : List Text) : List Text :=
  l.mergeSort precedes

end Text

end FilterPlan
