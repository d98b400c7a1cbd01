import FilterPlan.Filter.Parser
import FilterPlan.Proofs.Filter.Tree
import FilterPlan.Proofs.Text.Escaping
import FilterPlan.Proofs.Text.Name
import FilterPlan.Proofs.Text.Trim

/-!
# Writing filters

Filters are written in many ways: in any letter case, with spaces, and with empty items in lists (`Filter.IsWritten`).
The operands must be such that their texts can be told from each other and from what is around them
(`Literal.IsWritable`); then an operand is what its text is read as (`Literal.ofText_text`).
-/

namespace FilterPlan

open Text (IsName isNameChar)

/-- Text nests where it can be put in parentheses. -/
instance (t : Text) : Decidable (Text.Nests 0 t 0) :=
  decidable_of_iff (Text.enclosed? (t ++ [')']) = some (t, [])) (Text.enclosed?_eq_some_iff.trans (and_iff_right rfl))

/-! ## Operands -/

namespace Literal

/-- How the operand is written. -/
def text : Literal → Text
  | scalar t => t
  | currentUser => "@me"
  | userProperty name => "@me." ++ name
  | userProfile => "@profile"
  | lookup kind id => '@' :: (kind ++ ':' :: Text.ofNat id)
  | unresolvable t => t

@[simp] theorem text_scalar (t : Text) : (scalar t).text = t := rfl

/-- The text of the operand stands for the operand: a scalar has no backslash and balanced parentheses and does not look
like a reference, and the names in a reference are names. -/
inductive IsWritable : Literal → Prop
  | scalar {t : Text} (hb : '\\' ∉ t) (hn : Text.Nests 0 t 0) (hat : t.trim.head? ≠ some '@') : IsWritable (.scalar t)
  | currentUser : IsWritable .currentUser
  | userProperty {name : Text} (hne : name ≠ []) (h : IsName name) : IsWritable (.userProperty name)
  | userProfile : IsWritable .userProfile
  | lookup {kind : Text} {id : Nat} (hne : kind ≠ []) (h : IsName kind) (hid : id < Text.wordBound) :
      IsWritable (.lookup kind id)

/-- Whether the character can stand in the text of a reference. -/
def isReferenceChar (c : Char) : Bool :=
  isNameChar c || c ∈ ['@', '.', ':']

theorem isReferenceChar_of_isName {name : Text} (h : IsName name) : ∀ c ∈ name, isReferenceChar c := fun c hc =>
  Bool.or_eq_true_iff.mpr (Or.inl (h c hc))

theorem isBlank_of_isReferenceChar {c : Char} (h : isReferenceChar c) : Text.isBlank c = false := by
  rcases Bool.or_eq_true_iff.mp h with h | h
  · exact Text.isBlank_of_isNameChar h
  · have hmarks : ['@', '.', ':'].all (!Text.isBlank ·) := rfl
    simpa using List.all_eq_true.mp hmarks c (of_decide_eq_true h)

/-- A reference has no characters but these. -/
theorem IsWritable.all_isReferenceChar {a : Literal} (h : a.IsWritable) (hr : a.isReference) :
    ∀ c ∈ a.text, isReferenceChar c := by
  cases h with
  | scalar => cases hr
  | currentUser => exact List.all_eq_true.mp (by rfl : ("@me" : Text).all isReferenceChar)
  | userProperty _ h =>
    have hlead : ("@me." : Text).all isReferenceChar := rfl
    exact List.forall_mem_append.mpr ⟨List.all_eq_true.mp hlead, isReferenceChar_of_isName h⟩
  | userProfile => exact List.all_eq_true.mp (by rfl : ("@profile" : Text).all isReferenceChar)
  | lookup _ h =>
    refine List.forall_mem_cons.mpr ⟨rfl, List.forall_mem_append.mpr ⟨isReferenceChar_of_isName h, ?_⟩⟩
    exact List.forall_mem_cons.mpr ⟨rfl, isReferenceChar_of_isName (Text.isName_ofNat _)⟩

end Literal

theorem Text.digits64?_ofNat {n : Nat} (h : n < wordBound) : digits64? (ofNat n) = some n := by
  have hdigits : (ofNat n).isEmpty = false ∧ (ofNat n).all Char.isDigit := by
    refine ⟨?_, List.all_eq_true.mpr fun c hc => isDigit_of_mem_ofNat hc⟩
    rw [List.isEmpty_eq_false_iff]
    exact ofNat_ne_nil n
  have hvalue : Nat.ofDigitChars 10 (ofNat n) 0 = n :=
    Nat.ofDigitChars_toDigits (by decide) (by decide)
  simp only [digits64?, hdigits.1, hdigits.2, Bool.not_true, Bool.or_self, Bool.false_eq_true, if_false, hvalue,
    if_pos h]

namespace Literal

theorem reference?_userProperty (name : Text) : reference? ("@me." ++ name) = some (userProperty name) := by
  unfold reference?
  rw [if_neg, Text.after?_eq_some_iff.mpr rfl]
  intro h
  simpa using congrArg List.length h

section Lookup

variable {kind : Text} (id : Nat) (h : IsName kind)
include h

theorem lookup?_lookup (hne : kind ≠ []) (hid : id < Text.wordBound) :
    lookup? ('@' :: (kind ++ ':' :: Text.ofNat id)) = some (lookup kind id) := by
  have hword : ∀ c ∈ kind, Text.isWordChar c := fun c hc => Text.isWordChar_of_isNameChar (h c hc)
  have hstops : Text.Stops Text.isWordChar (':' :: Text.ofNat id) := Text.stops_cons rfl _
  have hspaces : (Text.ofNat id).dropWhile (· == ' ') = Text.ofNat id :=
    Text.dropWhile_append_of_stops (a := []) nofun fun c hc => by
      have hdigit := Text.isDigit_of_mem_ofNat (List.mem_of_mem_head? hc)
      rw [beq_eq_false_iff_ne]
      rintro rfl
      exact absurd hdigit (by decide)
  have hempty : kind.isEmpty = false := List.isEmpty_eq_false_iff.mpr hne
  simp only [lookup?, Text.takeWhile_append_of_stops hword hstops, Text.dropWhile_append_of_stops hword hstops]
  simp [hempty, hspaces, Text.digits64?_ofNat hid]

/-- The name at the beginning of a lookup ends with the colon. -/
theorem lookup_ne {t r : Text} (ht : IsName t) (hr : Text.Stops isNameChar r) (hcolon : r.head? ≠ some ':') :
    '@' :: (kind ++ ':' :: Text.ofNat id) ≠ '@' :: (t ++ r) := by
  intro he
  obtain ⟨-, rfl⟩ := h.append_inj ht (Text.stops_cons rfl _) hr (List.cons.inj he).2
  exact hcolon rfl

theorem reference?_lookup (hne : kind ≠ []) (hid : id < Text.wordBound) :
    reference? ('@' :: (kind ++ ':' :: Text.ofNat id)) = some (lookup kind id) := by
  have hproperty : Text.after? "@me." ('@' :: (kind ++ ':' :: Text.ofNat id)) = none := by
    rw [Option.eq_none_iff_forall_ne_some]
    intro name he
    rw [Text.after?_eq_some_iff] at he
    exact lookup_ne id h (t := "me") (r := '.' :: name) (by decide) (Text.stops_cons rfl _) (by simp) he
  have huser : '@' :: (kind ++ ':' :: Text.ofNat id) ≠ ("@me" : Text) :=
    lookup_ne id h (t := "me") (r := []) (by decide) (Text.stops_nil _) nofun
  have hprofile : '@' :: (kind ++ ':' :: Text.ofNat id) ≠ ("@profile" : Text) :=
    lookup_ne id h (t := "profile") (r := []) (by decide) (Text.stops_nil _) nofun
  unfold reference?
  rw [if_neg huser, hproperty]
  simp only
  rw [if_neg hprofile, lookup?_lookup id h hne hid]

end Lookup

theorem reference?_eq_none {t : Text} (h : t.head? ≠ some '@') : reference? t = none := by
  have hne : ∀ {u : Text}, u.head? = some '@' → t ≠ u := fun hu he => h (he ▸ hu)
  have hproperty : Text.after? "@me." t = none := by
    rw [Option.eq_none_iff_forall_ne_some]
    intro name he
    rw [Text.after?_eq_some_iff] at he
    exact hne rfl he
  have hlookup : lookup? t = none := by
    unfold lookup?
    split
    · exact absurd rfl h
    · rfl
  unfold reference?
  rw [if_neg (hne rfl), hproperty]
  simp only
  rw [if_neg (hne rfl), hlookup]
  exact if_neg h

/-- An operand is what its text is read as. -/
theorem ofText_text {a : Literal} (h : a.IsWritable) : ofText a.text = a := by
  have hreference : a.isReference → reference? a.text = some a → ofText a.text = a := fun hr ha => by
    rw [ofText, Text.trim_eq_self fun c hc => isBlank_of_isReferenceChar (h.all_isReferenceChar hr c hc), ha,
      Option.getD_some]
  cases h with
  | @scalar t _ _ hat =>
    show (reference? t.trim).getD (scalar t) = scalar t
    rw [reference?_eq_none hat, Option.getD_none]
  | currentUser => exact hreference rfl rfl
  | userProperty => exact hreference rfl (reference?_userProperty _)
  | userProfile => exact hreference rfl rfl
  | lookup hne h hid => exact hreference rfl (reference?_lookup _ h hne hid)

end Literal

/-! ## What the scans do with operands -/

namespace Literal

variable {a : Literal}

theorem IsWritable.not_mem_text (h : a.IsWritable) {c : Char} (hc : isReferenceChar c = false)
    (hscalar : ∀ t, a = .scalar t → c ∉ t) : c ∉ a.text := by
  cases hr : a.isReference with
  | true => exact fun hm => Bool.false_ne_true (hc.symm.trans (h.all_isReferenceChar hr c hm))
  | false =>
    cases a with
    | scalar t => exact hscalar t rfl
    | currentUser | userProperty | userProfile | lookup | unresolvable => cases hr

theorem IsWritable.backslash_not_mem (h : a.IsWritable) : '\\' ∉ a.text :=
  h.not_mem_text rfl fun t ht => by
    subst ht
    cases h with
    | scalar hb => exact hb

theorem IsWritable.nests (h : a.IsWritable) : Text.Nests 0 a.text 0 := by
  cases hr : a.isReference with
  | true =>
    refine .of_plain fun c hc => ?_
    have hreference := h.all_isReferenceChar hr c hc
    refine ⟨?_, ?_, ?_⟩ <;> (rintro rfl; exact absurd hreference (by decide))
  | false =>
    cases h with
    | scalar _ hn => exact hn
    | currentUser | userProperty | userProfile | lookup => cases hr

theorem IsWritable.head?_ne {t : Text} (h : (Literal.scalar t).IsWritable) : t.head? ≠ some '@' := by
  cases h with
  | scalar _ _ hat =>
    intro he
    obtain ⟨rest, rfl⟩ := List.head?_eq_some_iff.mp he
    exact hat (Text.head?_trim_cons (by decide) rest)

theorem IsWritable.text_ne_nil (h : a.IsWritable) (hscalar : ∀ t, a = .scalar t → t ≠ []) : a.text ≠ [] := by
  cases h with
  | scalar => exact hscalar _ rfl
  | currentUser | userProperty | userProfile | lookup => exact List.cons_ne_nil _ _

end Literal

/-! ## Comparisons and groups -/

/-- Whether the operands are written as a list. -/
def Operator.takesList : Operator → Bool
  | oneOf | between | near | null => true
  | _ => false

/-- The scalar can be an operand of the operator: it is not empty as an element of a list, and no `*` is in a pattern.
-/
def Operator.Allows (t : Text) : Operator → Prop
  | oneOf | between | near => t ≠ []
  | like | ilike => '*' ∉ t
  | _ => True

namespace Filter

/-- All parts of the filter can be written: comparisons have the operands that their operators take and allow, and no
group is empty. -/
inductive IsWritable : Filter → Prop
  | comparison {op : Operator} {negated : Bool} {args : List Literal} (takes : op.Takes args)
      (writable : ∀ a ∈ args, a.IsWritable) (allows : ∀ t, .scalar t ∈ args → op.Allows t) :
      IsWritable (.comparison op negated args)
  | group {op : Connective} {negated : Bool} {children : List Filter} (nonempty : children ≠ [])
      (members : ∀ c ∈ children, IsWritable c) : IsWritable (.group op negated children)

/-- What stands in front of the parenthesis: spaces, a `!` if the filter is negated, the name in any letter case, and
spaces. -/
inductive IsLead (negated : Bool) (name : Text) : Text → Prop
  | mk (before after : Nat) {word : Text} (hword : word.upper = name) :
      IsLead negated name (.replicate before ' ' ++ (if negated then ['!'] else []) ++ word ++ .replicate after ' ')

/-- What stands inside the parentheses of a comparison: the operand, or a list of them in which commas are escaped and
any items may be empty. -/
inductive IsOperands (op : Operator) (args : List Literal) (inner : Text) : Prop
  | one (hop : op.takesList = false) (h : args.map Literal.text = [inner])
  | list (hop : op.takesList) {items : List Text}
      (hitems : items.filter (!·.isEmpty) = args.map fun a => Text.escaped a.text) (h : inner = Text.joinWith "," items)

/-- The text is a written form of the filter. -/
inductive IsWritten : Filter → Text → Prop
  | comparison {op : Operator} {negated : Bool} {args : List Literal} {t lead inner : Text}
      (hlead : IsLead negated op.name lead) (hinner : IsOperands op args inner)
      (h : t = lead ++ '(' :: (inner ++ [')'])) : IsWritten (.comparison op negated args) t
  | group {op : Connective} {negated : Bool} {children : List Filter} {t lead : Text} {items : List Text}
      (hlead : IsLead negated op.name lead) (hitems : List.Forall₂ IsWritten children (items.filter (!·.isEmpty)))
      (h : t = lead ++ '(' :: (Text.joinWith "," items ++ [')'])) : IsWritten (.group op negated children) t

/-! ## Plain forms -/

/-- A name with parentheses, and a `!` in front if it is negated. -/
def expressionText (negated : Bool) (name inner : Text) : Text :=
  (if negated then ['!'] else []) ++ name ++ '(' :: (inner ++ [')'])

/-- The operands, one behind the other, or as a list without empty items. -/
def operandsText (op : Operator) (args : List Literal) : Text :=
  if op.takesList then Text.joinWith "," (args.map fun a => Text.escaped a.text) else args.flatMap Literal.text

mutual

/-- The plain form: names in upper case, without spaces and empty items. -/
def text : Filter → Text
  | comparison op negated args => expressionText negated op.name (operandsText op args)
  | group op negated children => expressionText negated op.name (Text.joinWith "," (textAll children))

/-- The plain forms of several filters. -/
def textAll : List Filter → List Text
  | [] => []
  | f :: rest => f.text :: textAll rest

end

@[simp] theorem textAll_eq : ∀ l : List Filter, textAll l = l.map text
  | [] => rfl
  | f :: rest => by rw [textAll, textAll_eq rest, List.map_cons]

theorem isLead_plain (negated : Bool) {name : Text} (h : name.upper = name) :
    IsLead negated name ((if negated then ['!'] else []) ++ name) := by
  simpa using (IsLead.mk 0 0 h : IsLead negated name _)

theorem isOperands_operandsText {op : Operator} {args : List Literal} (htakes : op.Takes args)
    (hwritable : ∀ a ∈ args, a.IsWritable) (hallows : ∀ t, .scalar t ∈ args → op.Allows t) :
    IsOperands op args (operandsText op args) := by
  have hlist : (∀ t, .scalar t ∈ args → t ≠ []) →
      (args.map fun a => Text.escaped a.text).filter (!·.isEmpty) = args.map fun a => Text.escaped a.text := by
    intro hne
    rw [List.filter_eq_self, List.forall_mem_map]
    intro a ha
    have htext := (hwritable a ha).text_ne_nil fun t ht => hne t (ht ▸ ha)
    simpa using Text.escaped_ne_nil htext
  cases op with
  | eq | gt | gte | lt | lte | like | ilike =>
    obtain ⟨a, rfl⟩ := htakes
    exact .one rfl (by simp [operandsText, Operator.takesList])
  | oneOf | between | near => exact .list rfl (hlist hallows) rfl
  | null =>
    cases htakes
    exact .list rfl (hlist nofun) rfl

/-- Every filter that can be written has a written form. -/
theorem isWritten_text {f : Filter} (h : f.IsWritable) : IsWritten f f.text := by
  induction h with
  | @comparison op negated args htakes hwritable hallows =>
    have hname : op.name.upper = op.name := by cases op <;> rfl
    exact .comparison (isLead_plain negated hname) (isOperands_operandsText htakes hwritable hallows) rfl
  | @group op negated children hne hmembers ih =>
    have hname : op.name.upper = op.name := by cases op <;> rfl
    have hne : ∀ t ∈ children.map text, !t.isEmpty := by
      rw [List.forall_mem_map]
      intro c _
      cases c <;> simp [text, expressionText]
    refine .group (isLead_plain negated hname) ?_ rfl
    rw [textAll_eq, List.filter_eq_self.mpr hne, List.forall₂_map_right_iff, List.forall₂_same]
    exact ih

end Filter

end FilterPlan
