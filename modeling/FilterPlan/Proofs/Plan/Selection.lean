import FilterPlan.Plan.Selection
import FilterPlan.Proofs.Outcome
import FilterPlan.Proofs.Text.Fields

/-!
# Selections as they are written

A selection is written as items with commas between them (`Selection.Item`). The scan for items comes back to each of
them (`items_joinWith`), each is read as what it stands for (`choices_text`), and the selection is collected from these
in order (`ofChoices_picks`), where the members of relations take consecutive numbers (`SubSelect.generate_eq`). So the
items determine what is selected, whatever blanks and empty items stand between them, or the first item with a fault
determines the error (`parse_written`).
-/

namespace FilterPlan

/-! ## Numbered sub-selections -/

/-- Sub-selections for relations with their members, numbered from `n` on. -/
def SubSelect.numberedFrom (n : Nat) (pairs : List (Text × Text)) : List SubSelect :=
  (pairs.zipIdx n).map fun ((path, member), i) => numbered i path member

theorem SubSelect.generate_eq (pairs : List (Text × Text)) (names : Names) : generate pairs names =
    (numberedFrom names.subSelects pairs, { names with subSelects := names.subSelects + pairs.length }) := by
  induction pairs generalizing names with
  | nil => rfl
  | cons pair pairs ih =>
    simp only [generate, Names.takeSubSelect, ih, List.length_cons, Nat.add_assoc, Nat.add_comm 1]
    rfl

namespace Selection

open Text (Spaced joinWith isBlank)
open Outcome (error?)

/-! ## Items -/

/-- The text has no character that separates or groups items. -/
def IsBare (t : Text) : Prop :=
  ∀ c ∈ t, isBlank c = false ∧ c ≠ ',' ∧ c ≠ '\x7b' ∧ c ≠ '\x7d'

instance (t : Text) : Decidable (IsBare t) :=
  List.decidableBAll _ t

/-- An item of a selection. -/
inductive Item where
  /-- A name. -/
  | name (name : Text)
  /-- A relation and a member of it. -/
  | member (path member : Text)
  /-- A relation and several members of it. Empty ones count for nothing. -/
  | members (path : Text) (members : List Text)

namespace Item

/-- The item as it is written, without blanks. -/
def text : Item → Text
  | name n => n
  | member path m => path ++ '.' :: m
  | members path ms => path ++ '.' :: '\x7b' :: (joinWith "," ms ++ ['\x7d'])

/-- Names are bare and have no dot, and members are bare, as identifiers are. -/
def WellFormed : Item → Prop
  | name n => n ≠ [] ∧ IsBare n ∧ '.' ∉ n
  | member path m => (IsBare path ∧ '.' ∉ path) ∧ IsBare m
  | members path ms => (IsBare path ∧ '.' ∉ path) ∧ ∀ m ∈ ms, IsBare m

instance : (item : Item) → Decidable item.WellFormed
  | name n => inferInstanceAs (Decidable (n ≠ [] ∧ IsBare n ∧ '.' ∉ n))
  | member path m => inferInstanceAs (Decidable ((IsBare path ∧ '.' ∉ path) ∧ IsBare m))
  | members path ms => inferInstanceAs (Decidable ((IsBare path ∧ '.' ∉ path) ∧ ∀ m ∈ ms, IsBare m))

/-- The name, if the item is no more than one. -/
def name? : Item → Option Text
  | name n => some n
  | _ => none

/-- The relation of the item and the members that it asks for, if the item has a dot. -/
def walk? : Item → Option (Text × List Text)
  | name _ => none
  | member path m => some (path, [m])
  | members path ms => some (path, ms.filter (!·.isEmpty))

/-- What is wrong with the item: its relation is none of the schema, or a member is no identifier. -/
def fault? (schema : Schema) (item : Item) : Option QueryError :=
  match item.walk? with
  | none => none
  | some (path, ms) =>
    if schema.hasRelation path then
      (ms.find? (!·.isIdentifier)).map fun m => .invalidArgument key (.badMember m item.text)
    else some (.unknownField path)

/-- The members of relations that the item asks for. A name asks for one if it is nothing but a relation. -/
def pairs (schema : Schema) : Item → List (Text × Text)
  | name n => if !schema.hasProperty n && !schema.hasMetadataKey n && schema.hasRelation n then [(n, "id")] else []
  | member path m => [(path, m)]
  | members path ms => (ms.filter (!·.isEmpty)).map fun m => (path, m)

end Item

/-- What items select, with sub-selections numbered from `n` on. -/
def ofItems (schema : Schema) (n : Nat) (items : List Item) : Selection where
  properties := ((items.filterMap Item.name?).filter schema.hasProperty).eraseDups
  metadata := ((items.filterMap Item.name?).filter fun k => !schema.hasProperty k && schema.hasMetadataKey k).eraseDups
  subSelects := SubSelect.numberedFrom n (items.flatMap (Item.pairs schema))

/-! ## The scan for items -/

/-- The scan goes over a text without braces, if commas are inside braces anyway. -/
theorem itemsFrom_append {depth : Nat} : ∀ {s : Text}, (∀ c ∈ s, c ≠ '\x7b' ∧ c ≠ '\x7d' ∧ (c = ',' → depth ≠ 0)) →
    ∀ (item : Text) (done : List Text) (t : Text),
      itemsFrom depth item done (s ++ t) = itemsFrom depth (s.reverse ++ item) done t
  | [], _, _, _, _ => rfl
  | c :: s, h, item, done, t => by
    obtain ⟨hopening, hclosing, hcomma⟩ := h c List.mem_cons_self
    have hstep : itemsFrom depth item done (c :: (s ++ t)) = itemsFrom depth (c :: item) done (s ++ t) := by
      -- of the cases of the scan, those of braces are excluded, and a comma is like any other character here
      rw [itemsFrom.eq_def]
      split
      · next he => cases he
      · next he => exact absurd (List.cons.inj he).1 hopening
      · next he => exact absurd (List.cons.inj he).1 hclosing
      · next he =>
        obtain ⟨rfl, rfl⟩ := List.cons.inj he
        rw [if_neg (hcomma rfl)]
      · next he =>
        obtain ⟨rfl, rfl⟩ := List.cons.inj he
        rfl
    rw [List.cons_append, hstep, itemsFrom_append fun d hd => h d (List.mem_cons_of_mem c hd), List.reverse_cons,
      List.append_assoc]
    rfl

/-- The scan goes over the text outside braces and is outside braces behind it. -/
def Passes (s : Text) : Prop :=
  ∀ item done t, itemsFrom 0 item done (s ++ t) = itemsFrom 0 (s.reverse ++ item) done t

theorem IsBare.passes {s : Text} (h : IsBare s) : Passes s :=
  itemsFrom_append fun c hc => ⟨(h c hc).2.2.1, (h c hc).2.2.2, fun he => absurd he (h c hc).2.1⟩

theorem Passes.append {s t : Text} (hs : Passes s) (ht : Passes t) : Passes (s ++ t) := by
  intro item done u
  rw [List.append_assoc, hs, ht, List.reverse_append, List.append_assoc]

/-- In braces, commas separate no items. -/
theorem passes_braced {s : Text} (h : ∀ c ∈ s, c ≠ '\x7b' ∧ c ≠ '\x7d') :
    Passes ('\x7b' :: (s ++ ['\x7d'])) := by
  intro item done t
  have hinside : ∀ c ∈ s, c ≠ '\x7b' ∧ c ≠ '\x7d' ∧ (c = ',' → 1 ≠ 0) := fun c hc =>
    ⟨(h c hc).1, (h c hc).2, fun _ => Nat.one_ne_zero⟩
  rw [List.cons_append, List.append_assoc, itemsFrom, itemsFrom_append hinside]
  simp [itemsFrom]

namespace Item

variable {item : Item}

/-- The scan goes over an item as a whole, since it meets commas inside braces only. -/
theorem passes_text (h : item.WellFormed) : Passes item.text := by
  have hdot : Passes ['.'] := IsBare.passes (by decide)
  cases item with
  | name n => exact h.2.1.passes
  | member path m => exact h.1.1.passes.append (hdot.append h.2.passes)
  | members path ms =>
    refine h.1.1.passes.append (hdot.append (passes_braced fun c hc => ?_))
    rcases Text.mem_joinWith hc with rfl | ⟨m, hm, hc⟩
    · decide
    · exact (h.2 m hm c hc).2.2

theorem isBlank_text (h : item.WellFormed) {c : Char} (hc : c ∈ item.text) : isBlank c = false := by
  cases item with
  | name n => exact (h.2.1 c hc).1
  | member path m =>
    simp only [text, List.mem_append, List.mem_cons] at hc
    rcases hc with hc | rfl | hc
    · exact (h.1.1 c hc).1
    · rfl
    · exact (h.2 c hc).1
  | members path ms =>
    simp only [text, List.mem_append, List.mem_cons, List.not_mem_nil, or_false] at hc
    rcases hc with hc | rfl | rfl | hc | rfl
    · exact (h.1.1 c hc).1
    · rfl
    · rfl
    · rcases Text.mem_joinWith hc with rfl | ⟨m, hm, hc⟩
      · rfl
      · exact (h.2 m hm c hc).1
    · rfl

end Item

theorem itemsFrom_joinWith : ∀ {texts : List Text}, (∀ s ∈ texts, Passes s) → texts ≠ [] → ∀ done : List Text,
    itemsFrom 0 [] done (joinWith "," texts) = done.reverse ++ texts
  | [], _, hne, _ => absurd rfl hne
  | [s], h, _, done => by
    have hs := h s List.mem_cons_self [] done []
    rw [List.append_nil, List.append_nil] at hs
    rw [joinWith, List.intercalate_singleton, hs, itemsFrom, List.reverse_cons, List.reverse_reverse]
  | s :: s' :: rest, h, _, done => by
    rw [Text.joinWith_cons_cons, h s List.mem_cons_self, List.append_nil, itemsFrom, if_pos rfl, List.reverse_reverse,
      itemsFrom_joinWith (fun u hu => h u (List.mem_cons_of_mem s hu)) (List.cons_ne_nil s' rest), List.reverse_cons,
      List.append_assoc]
    rfl

/-- The items between commas are found again, and only those that are empty get lost. -/
theorem items_joinWith {texts : List Text} (h : ∀ s ∈ texts, Passes s) :
    items (joinWith "," texts) = texts.filter (!·.isEmpty) := by
  cases texts with
  | nil => rfl
  | cons s rest => rw [items, itemsFrom_joinWith h (List.cons_ne_nil s rest)]; rfl

/-! ## What an item stands for -/

/-- What a name stands for, the first that it can be. -/
def named (schema : Schema) (n : Text) : Choice :=
  if schema.hasProperty n then .property n
  else if schema.hasMetadataKey n then .metadata n
  else if schema.hasRelation n then .member n "id"
  else .nothing

theorem choices_of_not_mem {schema : Schema} {n : Text} (h : '.' ∉ n) : choices schema n = [.ok (named schema n)] := by
  rw [choices, Text.cutAt?_of_not_mem h, named]
  dsimp only
  split
  · rfl
  split
  · rfl
  split <;> rfl

/-- A member of a relation, as it is read in an item. -/
def memberIn (path item m : Text) : Except QueryError Choice :=
  if m.isIdentifier then .ok (.member path m) else .error (.invalidArgument key (.badMember m item))

theorem choices_append_dot {schema : Schema} {path rest : Text} (h : '.' ∉ path) :
    choices schema (path ++ '.' :: rest) =
      if schema.hasRelation path then (members rest).map (memberIn path (path ++ '.' :: rest))
      else [.error (.unknownField path)] := by
  rw [choices, Text.cutAt?_eq_some_iff.mpr ⟨rfl, h⟩]
  rfl

theorem findSome?_memberIn (path item : Text) : ∀ ms : List Text,
    (ms.map (memberIn path item)).findSome? error? =
      (ms.find? (!·.isIdentifier)).map fun m => .invalidArgument key (.badMember m item)
  | [] => rfl
  | m :: ms => by
    rw [List.map_cons, List.findSome?_cons, List.find?_cons, findSome?_memberIn path item ms, memberIn]
    cases m.isIdentifier <;> rfl

theorem members_of_isBare {m : Text} (h : IsBare m) : members m = [m] := by
  cases m with
  | nil => rfl
  | cons c m =>
    have hbraced : braced? (c :: m) = none := by
      rw [braced?.eq_def]
      split
      · next he => exact absurd (List.cons.inj he).1 (h c List.mem_cons_self).2.2.1
      · rfl
    rw [members, hbraced]

theorem members_braced {ms : List Text} (h : ∀ m ∈ ms, IsBare m) :
    members ('\x7b' :: (joinWith "," ms ++ ['\x7d'])) = ms.filter (!·.isEmpty) := by
  rw [members, braced?, if_pos List.getLast?_concat, List.dropLast_concat]
  exact Text.pieces_joinWith fun m hm hc => (h m hm _ hc).2.1 rfl

namespace Item

variable {schema : Schema} {item : Item}

/-- What an item with a dot is read as: its members, or what is wrong with its relation. -/
theorem choices_walk {path : Text} {ms : List Text} (h : item.WellFormed) (hw : item.walk? = some (path, ms)) :
    choices schema item.text =
      if schema.hasRelation path then ms.map (memberIn path item.text) else [.error (.unknownField path)] := by
  cases item with
  | name n => cases hw
  | member path m =>
    cases hw
    rw [text, choices_append_dot h.1.2, members_of_isBare h.2]
  | members path ms =>
    cases hw
    rw [text, choices_append_dot h.1.2, members_braced h.2]

theorem fault?_walk {path : Text} {ms : List Text} (hw : item.walk? = some (path, ms)) : item.fault? schema =
    if schema.hasRelation path then
      (ms.find? (!·.isIdentifier)).map fun m => .invalidArgument key (.badMember m item.text)
    else some (.unknownField path) := by
  rw [fault?, hw]

/-- What the item asks for, if nothing is wrong with it. -/
def picks (schema : Schema) : Item → List Choice
  | name n => [named schema n]
  | member path m => [.member path m]
  | members path ms => (ms.filter (!·.isEmpty)).map (.member path)

theorem picks_walk {path : Text} {ms : List Text} (hw : item.walk? = some (path, ms)) :
    item.picks schema = ms.map (.member path) := by
  cases item <;> cases hw <;> rfl

/-- Reading the item fails with its fault. -/
theorem findSome?_choices (h : item.WellFormed) : (choices schema item.text).findSome? error? = item.fault? schema := by
  cases hw : item.walk? with
  | none =>
    cases item with
    | name n => rw [text, choices_of_not_mem h.2.2]; rfl
    | member | members => cases hw
  | some walk =>
    rw [choices_walk h hw, fault?_walk hw]
    split
    · exact findSome?_memberIn walk.1 item.text walk.2
    · rfl

/-- An item without fault is read as what it asks for. -/
theorem choices_text (h : item.WellFormed) (hf : item.fault? schema = none) :
    choices schema item.text = (item.picks schema).map .ok := by
  cases hw : item.walk? with
  | none =>
    cases item with
    | name n => exact choices_of_not_mem h.2.2
    | member | members => cases hw
  | some walk =>
    rw [fault?_walk hw] at hf
    split at hf
    · next hrelation =>
      rw [Option.map_eq_none_iff, List.find?_eq_none] at hf
      rw [choices_walk h hw, if_pos hrelation, picks_walk hw, List.map_map]
      refine List.map_congr_left fun m hm => if_pos ?_
      simpa using hf m hm
    · cases hf

/-! ## What items select -/

/-- Members are no properties and no metadata keys. -/
theorem filterMap_member {f : Choice → Option Text} {path : Text} (h : ∀ m, f (.member path m) = none) (ms : List Text) :
    (ms.map (Choice.member path)).filterMap f = [] := by
  rw [List.filterMap_map]
  exact List.filterMap_eq_nil_iff.mpr fun m _ => h m

theorem property?_picks (item : Item) :
    (item.picks schema).filterMap Choice.property? = item.name?.toList.filter schema.hasProperty := by
  cases item with
  | name n =>
    show [named schema n].filterMap Choice.property? = [n].filter schema.hasProperty
    rw [named, List.filter_singleton]
    cases schema.hasProperty n <;> cases schema.hasMetadataKey n <;> cases schema.hasRelation n <;> rfl
  | member path m => rfl
  | members path ms => exact filterMap_member (fun _ => rfl) _

theorem metadata?_picks (item : Item) : (item.picks schema).filterMap Choice.metadata? =
    item.name?.toList.filter fun k => !schema.hasProperty k && schema.hasMetadataKey k := by
  cases item with
  | name n =>
    show [named schema n].filterMap Choice.metadata? =
      [n].filter fun k => !schema.hasProperty k && schema.hasMetadataKey k
    rw [named, List.filter_singleton]
    cases schema.hasProperty n <;> cases schema.hasMetadataKey n <;> cases schema.hasRelation n <;> rfl
  | member path m => rfl
  | members path ms => exact filterMap_member (fun _ => rfl) _

theorem member?_picks (item : Item) : (item.picks schema).filterMap Choice.member? = item.pairs schema := by
  cases item with
  | name n =>
    show [named schema n].filterMap Choice.member? = pairs schema (name n)
    rw [named, pairs]
    cases schema.hasProperty n <;> cases schema.hasMetadataKey n <;> cases schema.hasRelation n <;> rfl
  | member path m => rfl
  | members path ms =>
    rw [picks, pairs, List.filterMap_map]
    exact List.filterMap_eq_map_iff_forall_eq_some.mpr fun _ _ => rfl

end Item

/-- The selection of what the items ask for is what they select. -/
theorem ofChoices_picks (schema : Schema) (items : List Item) (names : Names) :
    ofChoices (items.flatMap (Item.picks schema)) names =
      (ofItems schema names.subSelects items,
        { names with subSelects := names.subSelects + (items.flatMap (Item.pairs schema)).length }) := by
  simp only [ofChoices, ofItems, SubSelect.generate_eq, List.filterMap_flatMap, Item.property?_picks,
    Item.metadata?_picks, Item.member?_picks, List.filterMap_eq_flatMap_toList Item.name?, List.filter_flatMap]

section Written

variable {schema : Schema} {names : Names} {items : List Item} {padded : List Text} {t : Text}

/-- In a text of items, blanks and empty items, the items are found again. -/
theorem items_squeeze (hitems : ∀ item ∈ items, item.WellFormed)
    (hpadded : padded.filter (!·.isEmpty) = items.map Item.text) (ht : Spaced (joinWith "," padded) t) :
    Selection.items t.squeeze = items.map Item.text := by
  have hcases : ∀ s ∈ padded, s = [] ∨ ∃ item ∈ items, item.text = s := fun s hs => by
    by_cases he : s = []
    · exact Or.inl he
    · have hmem : s ∈ items.map Item.text := hpadded ▸ List.mem_filter.mpr ⟨hs, by simpa using he⟩
      exact Or.inr (List.mem_map.mp hmem)
  have hpasses : ∀ s ∈ padded, Passes s := fun s hs => by
    rcases hcases s hs with rfl | ⟨item, hi, rfl⟩
    · exact fun _ _ _ => rfl
    · exact Item.passes_text (hitems item hi)
  have hblanks : ∀ c ∈ joinWith "," padded, isBlank c = false := fun c hc => by
    rcases Text.mem_joinWith hc with rfl | ⟨s, hs, hc⟩
    · rfl
    rcases hcases s hs with rfl | ⟨item, hi, rfl⟩
    · cases hc
    · exact Item.isBlank_text (hitems item hi) hc
  rw [Text.squeeze_of_spaced ht hblanks, items_joinWith hpasses, hpadded]

/-- A text in which nothing is wrong selects what it asks for. -/
theorem parse_eq_of_map_ok {choices : List Choice}
    (h : (Selection.items t.squeeze).flatMap (Selection.choices schema) = choices.map .ok) :
    parse schema t names = (ofChoices choices names).map .ok id := by
  have hsound : (choices.map .ok : List (Except QueryError Choice)).takeWhile Except.isOk = choices.map .ok :=
    List.takeWhile_eq_self_iff.mpr fun c hc => by obtain ⟨c, -, rfl⟩ := List.mem_map.mp hc; rfl
  have htaken : (choices.map .ok : List (Except QueryError Choice)).filterMap Except.toOption = choices := by
    rw [List.filterMap_map]
    exact List.filterMap_some
  simp only [parse, h, Outcome.mapM_id_eq_ok_iff.mpr rfl, hsound, htaken]
  rfl

/-- A selection that is read is that of choices in which nothing is wrong. -/
theorem exists_choices_of_parse {selection : Selection} (h : (parse schema t names).1 = .ok selection) :
    ∃ choices : List Choice, (Selection.items t.squeeze).flatMap (Selection.choices schema) = choices.map .ok ∧
      (ofChoices choices names).1 = selection := by
  obtain ⟨choices, hc, -⟩ := Outcome.map_eq_ok_iff.mp h
  have hmap := Outcome.mapM_id_eq_ok_iff.mp hc
  rw [parse_eq_of_map_ok hmap] at h
  exact ⟨choices, hmap, Except.ok.inj h⟩

theorem findSome?_written : ∀ {items : List Item}, (∀ item ∈ items, item.WellFormed) →
    ((items.map Item.text).flatMap (choices schema)).findSome? error? = items.findSome? (Item.fault? schema)
  | [], _ => rfl
  | item :: items, h => by
    rw [List.map_cons, List.flatMap_cons, List.findSome?_append, List.findSome?_cons,
      Item.findSome?_choices (h item List.mem_cons_self),
      findSome?_written fun i hi => h i (List.mem_cons_of_mem item hi)]
    cases item.fault? schema <;> rfl

/-- **Selections are read by their grammar.** A text of well-formed items and of empty ones, with commas between them and
blanks anywhere, selects what the items select, with sub-selections numbered from the next number on; or if there is an
item with a fault, reading fails with that of the first one. -/
theorem parse_written (hitems : ∀ item ∈ items, item.WellFormed)
    (hpadded : padded.filter (!·.isEmpty) = items.map Item.text) (ht : Spaced (joinWith "," padded) t) :
    ((∀ item ∈ items, item.fault? schema = none) → parse schema t names =
      (.ok (ofItems schema names.subSelects items),
        { names with subSelects := names.subSelects + (items.flatMap (Item.pairs schema)).length })) ∧
    ∀ e, items.findSome? (Item.fault? schema) = some e → (parse schema t names).1 = .error e := by
  have hread := items_squeeze hitems hpadded ht
  constructor
  · intro hsound
    have hpicks : (Selection.items t.squeeze).flatMap (choices schema) =
        (items.flatMap (Item.picks schema)).map .ok := by
      rw [hread, List.flatMap_map, List.map_flatMap]
      exact List.flatMap_congr fun item hi => Item.choices_text (hitems item hi) (hsound item hi)
    rw [parse_eq_of_map_ok hpicks, ofChoices_picks]
    rfl
  · intro e he
    rw [← Outcome.error?_eq_some_iff, parse, Outcome.error?_map, Outcome.error?_mapM, hread]
    exact (findSome?_written hitems).trans he

end Written

/-- Kinds of names that overlap, and relations. -/
def overlapping : Schema where
  properties := ["id", "name"]
  relations := .ofList [("name", {}), ("owner", {}), ("site", {})]
  metadataKeys := ["name", "site"]
  taxonomies := .ofList []
  capabilities := { usesMetadata := true }

/-- Items of all forms with blanks and empty items between them, numbered from four on; and a member that is no
identifier in front of an unknown relation. -/
theorem parse_written_overlapping :
    parse overlapping " owner.\x7bid,,\tna me\x7d,,site, name ,owner,bogus,owner.x,name," ⟨1, 4⟩ =
      (.ok ⟨["name"], ["site"], [⟨"#sq:4", "sq4", "owner", "id"⟩, ⟨"#sq:5", "sq5", "owner", "name"⟩,
        ⟨"#sq:6", "sq6", "owner", "id"⟩, ⟨"#sq:7", "sq7", "owner", "x"⟩]⟩, ⟨1, 8⟩) ∧
    (parse overlapping "id,owner.a.b,none.id" {}).1 =
      .error (.invalidArgument "@select" (.badMember "a.b" "owner.a.b")) := by
  constructor
  · have hread := @parse_written overlapping ⟨1, 4⟩
      [.members "owner" ["id", "", "name"], .name "site", .name "name", .name "owner", .name "bogus",
        .member "owner" "x", .name "name"]
      ["owner.\x7bid,,name\x7d", "", "site", "name", "owner", "bogus", "owner.x", "name", ""]
      " owner.\x7bid,,\tna me\x7d,,site, name ,owner,bogus,owner.x,name,"
      (by decide) (by decide) (Text.spaced_of_squeeze_eq rfl)
    exact hread.1 (by decide)
  · have hread := @parse_written overlapping {} [.name "id", .member "owner" "a.b", .member "none" "id"]
      ["id", "owner.a.b", "none.id"] "id,owner.a.b,none.id" (by decide) (by decide)
      (Text.spaced_of_squeeze_eq rfl)
    exact hread.2 _ (by decide)

end Selection

end FilterPlan
