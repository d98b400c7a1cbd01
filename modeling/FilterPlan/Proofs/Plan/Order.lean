import FilterPlan.Proofs.Plan.Build
import FilterPlan.Proofs.Plan.Settings
import FilterPlan.Proofs.Text.Words

/-!
# The order of the rows as it is written

An order is written as items with commas between them: a property, and a direction behind it if there are two words
(`OrderBy.IsItem`). Its words are found again whatever blanks there are (`OrderBy.ofWords?_of_isItem`), and nothing else is
taken for an item (`OrderBy.isItem_of_ofWords?`). So what a text says as an order, or which of its items is wrong first, can
be told without reading it (`OrderBy.Says`, `OrderBy.parseList_eq_iff`). The rows of a plan are sorted as the last directive
about it says, or by the configured order if that says one (`Plan.build_order`).
-/

namespace FilterPlan

open Outcome (error?)
open Text (IsGap IsSolid joinWith words)

theorem Direction.ofKeyword?_eq_some_iff {word : Text} {direction : Direction} :
    ofKeyword? word = some direction ↔ word.upper = direction.keyword := by
  unfold ofKeyword?
  constructor
  · intro h
    have hkeyword := List.find?_some h
    exact (of_decide_eq_true hkeyword).symm
  · intro h
    rw [h]
    cases direction <;> rfl

theorem Direction.isSolid_of_upper {word : Text} {direction : Direction} (h : word.upper = direction.keyword) :
    word.IsSolid := by
  have hkeyword : direction.keyword.IsWord := by
    cases direction <;> exact ⟨List.cons_ne_nil _ _, List.all_eq_true.mp rfl⟩
  have hword := Text.isWord_of_upper h hkeyword
  refine ⟨hword.1, fun c hc => Text.isBlank_of_isNameChar (Text.isNameChar_iff.mpr (Or.inl ?_))⟩
  exact Bool.or_eq_true_iff.mpr (Or.inl (hword.2 c hc))

namespace OrderBy

/-! ## Items -/

/-- The order as it is written: its column, with its direction in any letter case behind a gap. Sorting from small to
large need not be said. There may be blanks in front and behind. -/
inductive IsItem : OrderBy → Text → Prop
  | plain {before column behind : Text} (hbefore : before.IsGap) (hcolumn : column.IsSolid) (hbehind : behind.IsGap) :
      IsItem ⟨column, .ascending⟩ (before ++ (column ++ behind))
  | directed {before column gap word behind : Text} {direction : Direction} (hbefore : before.IsGap)
      (hcolumn : column.IsSolid) (hgap : gap.IsGap) (hne : gap ≠ []) (hword : word.upper = direction.keyword)
      (hbehind : behind.IsGap) : IsItem ⟨column, direction⟩ (before ++ (column ++ (gap ++ (word ++ behind))))

theorem ofWords?_of_isItem {o : OrderBy} {item : Text} (h : IsItem o item) : ofWords? item.words = some o := by
  cases h with
  | plain hbefore hcolumn hbehind =>
    rw [Text.words_gap_append hbefore, Text.words_append_trailing hbehind, Text.words_of_isSolid hcolumn]
    rfl
  | directed hbefore hcolumn hgap hne hword hbehind =>
    rw [Text.words_gap_append hbefore, Text.words_append_gap hcolumn hgap hne, Text.words_append_trailing hbehind,
      Text.words_of_isSolid (Direction.isSolid_of_upper hword), ofWords?,
      Direction.ofKeyword?_eq_some_iff.mpr hword]
    rfl

theorem isItem_of_ofWords? {o : OrderBy} {item : Text} (h : ofWords? item.words = some o) : IsItem o item := by
  cases hw : item.words with
  | nil =>
    rw [hw] at h
    cases h
  | cons column rest =>
    obtain ⟨before, behind, rfl, hbefore, hcolumn, hstops, hrest⟩ := Text.exists_of_words_eq_cons hw
    rw [hw] at h
    cases rest with
    | nil =>
      cases h
      exact .plain hbefore hcolumn (Text.isGap_of_words_eq_nil hrest)
    | cons word rest =>
      cases rest with
      | cons => cases h
      | nil =>
        obtain ⟨direction, hd, rfl⟩ := Option.map_eq_some_iff.mp h
        obtain ⟨gap, behind, rfl, hgap, hsolid, -, hend⟩ := Text.exists_of_words_eq_cons hrest
        refine .directed hbefore hcolumn hgap ?_ (Direction.ofKeyword?_eq_some_iff.mp hd) (Text.isGap_of_words_eq_nil hend)
        -- without a gap, the second word would begin where the first one stops
        rintro rfl
        obtain ⟨c, word, rfl⟩ := List.exists_cons_of_ne_nil hsolid.1
        have hblank : (!Text.isBlank c) = false := hstops c rfl
        rw [hsolid.2 c List.mem_cons_self] at hblank
        cases hblank

/-- An item is written for one order only. -/
theorem IsItem.unique {o o' : OrderBy} {item : Text} (h : IsItem o item) (h' : IsItem o' item) : o = o' :=
  Option.some.inj ((ofWords?_of_isItem h).symm.trans (ofWords?_of_isItem h'))

variable {schema : Schema} {key item t : Text}

/-- What an item says: the order for which it is written, if there is such a column. -/
inductive ItemSays (schema : Schema) (key item : Text) : Except QueryError OrderBy → Prop
  | order {o : OrderBy} (h : IsItem o item) (hcolumn : schema.hasProperty o.column) : ItemSays schema key item (.ok o)
  | unknown {o : OrderBy} (h : IsItem o item) (hcolumn : schema.hasProperty o.column = false) :
      ItemSays schema key item (.error (.unknownField o.column))
  | malformed (h : ∀ o, ¬ IsItem o item) : ItemSays schema key item (.error (.invalidArgument key (.badOrder item.trim)))

theorem itemSays_ofItem (schema : Schema) (key item : Text) : ItemSays schema key item (ofItem schema key item.trim) := by
  rw [ofItem, Text.words_trim]
  cases hw : ofWords? item.words with
  | none =>
    refine .malformed fun o ho => ?_
    rw [ofWords?_of_isItem ho] at hw
    cases hw
  | some o =>
    dsimp only
    split
    · next hp => exact .order (isItem_of_ofWords? hw) hp
    · next hp => exact .unknown (isItem_of_ofWords? hw) (Bool.eq_false_iff.mpr hp)

/-- An item says one thing only. -/
theorem ItemSays.unique {r r' : Except QueryError OrderBy} (h : ItemSays schema key item r)
    (h' : ItemSays schema key item r') : r = r' := by
  cases h with
  | order h hcolumn =>
    cases h' with
    | order h' => rw [h.unique h']
    | unknown h' hunknown => rw [h.unique h', hunknown] at hcolumn; cases hcolumn
    | malformed hnone => exact absurd h (hnone _)
  | unknown h hunknown =>
    cases h' with
    | order h' hcolumn => rw [h'.unique h, hunknown] at hcolumn; cases hcolumn
    | unknown h' => rw [h.unique h']
    | malformed hnone => exact absurd h (hnone _)
  | malformed hnone =>
    cases h' with
    | order h' | unknown h' => exact absurd h' (hnone _)
    | malformed => rfl

/-- An item is read as what it says. -/
theorem ofItem_eq_iff {r : Except QueryError OrderBy} : ofItem schema key item.trim = r ↔ ItemSays schema key item r :=
  ⟨fun h => h ▸ itemSays_ofItem schema key item, (itemSays_ofItem schema key item).unique⟩

theorem itemSays_ok_iff {o : OrderBy} : ItemSays schema key item (.ok o) ↔ schema.hasProperty o.column ∧ IsItem o item := by
  constructor
  · rintro (⟨h, hcolumn⟩ | _)
    exact ⟨hcolumn, h⟩
  · exact fun ⟨hcolumn, h⟩ => .order h hcolumn

/-! ## Lists of items -/

/-- The items of an order: the parts between commas that do not consist of blanks. -/
def items (t : Text) : List Text :=
  (t.splitOn ',').filter fun item => !item.all Text.isBlank

/-- What a text says as an order: that of its items, or the error of the first item that says one. -/
inductive Says (schema : Schema) (key t : Text) : Except QueryError (List OrderBy) → Prop
  | order {orders : List OrderBy} (hitems : List.Forall₂ IsItem orders (items t))
      (hcolumns : ∀ o ∈ orders, schema.hasProperty o.column) : Says schema key t (.ok orders)
  | fault {before after : List Text} {item : Text} {e : QueryError} (hsplit : items t = before ++ item :: after)
      (hbefore : ∀ i ∈ before, ∃ o, ItemSays schema key i (.ok o)) (hitem : ItemSays schema key item (.error e)) :
      Says schema key t (.error e)

theorem parseList_eq_mapM (schema : Schema) (key t : Text) :
    parseList schema key t = (items t).mapM fun item => ofItem schema key item.trim := by
  have hentries : t.entries = (items t).map Text.trim := by
    rw [Text.entries, Text.fields_eq_splitOn, items, List.filter_map]
    refine congrArg (List.map Text.trim) (List.filter_congr fun item _ => ?_)
    have htrim : item.trim.isEmpty = item.all Text.isBlank := by
      rw [Bool.eq_iff_iff, List.isEmpty_iff, Text.trim_eq_nil_iff, List.all_eq_true]
    rw [Function.comp_apply, htrim]
  rw [parseList, hentries, List.mapM_map]
  rfl

/-- **A text is read as the order that it says.** -/
theorem parseList_eq_iff {outcome : Except QueryError (List OrderBy)} :
    parseList schema key t = outcome ↔ Says schema key t outcome := by
  rw [parseList_eq_mapM]
  cases outcome with
  | ok orders =>
    rw [Outcome.mapM_eq_ok_iff]
    simp only [ofItem_eq_iff, itemSays_ok_iff]
    constructor
    · intro h
      obtain ⟨hcolumns, hitems⟩ := (List.forall₂_and_left _ _).mp h.flip
      exact .order hitems hcolumns
    · rintro (⟨hitems, hcolumns⟩ | _)
      exact ((List.forall₂_and_left _ _).mpr ⟨hcolumns, hitems⟩).flip
  | error e =>
    rw [Outcome.mapM_eq_error_iff]
    simp only [ofItem_eq_iff]
    constructor
    · rintro ⟨before, item, after, hsplit, hbefore, hitem⟩
      exact .fault hsplit hbefore hitem
    · rintro (_ | ⟨hsplit, hbefore, hitem⟩)
      exact ⟨_, _, _, hsplit, hbefore, hitem⟩

/-- Items can be joined by commas, and others with nothing but blanks put between them. -/
theorem parseList_joinWith {orders : List OrderBy} {parts : List Text} (hparts : ∀ part ∈ parts, ',' ∉ part)
    (hitems : List.Forall₂ IsItem orders (parts.filter fun part => !part.all Text.isBlank))
    (hcolumns : ∀ o ∈ orders, schema.hasProperty o.column) : parseList schema key (joinWith "," parts) = .ok orders := by
  refine parseList_eq_iff.mpr (.order ?_ hcolumns)
  cases parts with
  | nil => exact hitems
  | cons part parts =>
    have hsplit : (joinWith "," (part :: parts)).splitOn ',' = part :: parts :=
      List.splitOn_intercalate ',' hparts (List.cons_ne_nil part parts)
    rwa [items, hsplit]

end OrderBy

/-! ## The order of a plan -/

namespace Plan

/-- What the rows are sorted by: what the last directive about it says, or without one what the configuration says, which
may be nothing that can be sorted by. -/
inductive SortedBy (schema : Schema) (config : Config) (params : List (Text × Text)) : List OrderBy → Prop
  | asked {before : List (Text × Text)} {p : Text × Text} {orders : List OrderBy}
      (hlast : Settings.said [.order] params = before ++ [p]) (h : OrderBy.Says schema p.1 p.2 (.ok orders)) :
      SortedBy schema config params orders
  | configured {orders : List OrderBy} (hunsaid : Settings.said [.order] params = [])
      (h : OrderBy.Says schema "@order" config.defaultOrder (.ok orders)) : SortedBy schema config params orders
  | unsorted {e : QueryError} (hunsaid : Settings.said [.order] params = [])
      (h : OrderBy.Says schema "@order" config.defaultOrder (.error e)) : SortedBy schema config params []

theorem sortedBy_of_ofParams {schema : Schema} {config : Config} {params : List (Text × Text)} {settings : Settings}
    (h : Settings.ofParams schema config params = .ok settings) :
    SortedBy schema config params (settings.order?.getD (defaultOrder schema config)) := by
  obtain ⟨hfault, rfl⟩ := Settings.ofParams_eq_ok_iff.mp h
  show SortedBy schema config params (((Settings.said [.order] params).getLast?.bind fun p =>
    (OrderBy.parseList schema p.1 p.2).toOption).getD (defaultOrder schema config))
  rcases List.eq_nil_or_concat' (Settings.said [.order] params) with hs | ⟨before, p, hs⟩
  · rw [hs, defaultOrder]
    cases hd : OrderBy.parseList schema Directive.order.key config.defaultOrder with
    | ok orders => exact .configured hs (OrderBy.parseList_eq_iff.mp hd)
    | error e => exact .unsorted hs (OrderBy.parseList_eq_iff.mp hd)
  · have hsaid : p ∈ Settings.said [.order] params := hs ▸ List.mem_concat_self
    have hvalid : error? (OrderBy.parseList schema p.1 p.2) = none := Settings.fault?_of_mem_said hfault hsaid
    obtain ⟨orders, ho⟩ := Outcome.error?_eq_none_iff.mp hvalid
    rw [hs, List.getLast?_concat, Option.bind_some, ho]
    exact .asked hs (OrderBy.parseList_eq_iff.mp ho)

/-- The configured order decides about nothing but the order of the rows. -/
theorem map_build_defaultOrder (registry : Registry) (kind : Text) (resolver : Resolver) (config : Config)
    (request : Request) (other : Text) :
    (build registry kind resolver { config with defaultOrder := other } request).map
        (fun plan => { plan with order := [] }) =
      (build registry kind resolver config request).map fun plan => { plan with order := [] } := by
  unfold build
  cases registry.get? kind with
  | none => rfl
  | some schema =>
    have hs : Settings.ofParams schema { config with defaultOrder := other } request.entries =
        Settings.ofParams schema config request.entries := rfl
    have hc : ∀ names, Clauses.ofParams schema resolver { config with defaultOrder := other } names request.entries =
        Clauses.ofParams schema resolver config names request.entries := fun names => rfl
    simp only [ofSchema, hs, hc]
    cases Settings.ofParams schema config request.entries with
    | error e => rfl
    | ok settings =>
      cases hclauses : Clauses.ofParams schema resolver config settings.names request.entries with
      | error e => simp only [bind, Except.bind, hclauses]
      | ok clauses => simp only [bind, Except.bind, hclauses]; rfl

/-- **Orders are read by their grammar, and plans are sorted by them.** A text is read as the order that its items say, or
fails with the error of the first item that says one; so orders written as items, with commas between them and any items of
blanks, are read back. The rows of a plan are sorted by what the last directive about it says, and without one by what the
configuration says, which decides about nothing else: whatever it says, there is a plan if there would be one otherwise. -/
theorem build_order :
    (∀ schema key t outcome, OrderBy.parseList schema key t = outcome ↔ OrderBy.Says schema key t outcome) ∧
    (∀ schema key orders parts, (∀ part ∈ parts, ',' ∉ part) →
      List.Forall₂ OrderBy.IsItem orders (parts.filter fun part => !part.all Text.isBlank) →
      (∀ o ∈ orders, schema.hasProperty o.column) → OrderBy.parseList schema key (joinWith "," parts) = .ok orders) ∧
    ∀ registry kind resolver config request,
      (∀ plan, build registry kind resolver config request = .ok plan →
        ∃ schema, registry.get? kind = some schema ∧ SortedBy schema config request.entries plan.order) ∧
      ∀ other, (build registry kind resolver { config with defaultOrder := other } request).map
          (fun plan => { plan with order := [] }) =
        (build registry kind resolver config request).map fun plan => { plan with order := [] } := by
  refine ⟨fun schema key t outcome => OrderBy.parseList_eq_iff,
    fun schema key orders parts hparts hitems hcolumns => OrderBy.parseList_joinWith hparts hitems hcolumns,
    fun registry kind resolver config request => ⟨fun plan h => ?_, fun other => ?_⟩⟩
  · obtain ⟨schema, settings, clauses, hschema, hsettings, -, rfl⟩ := build_eq_ok_iff.mp h
    exact ⟨schema, hschema, sortedBy_of_ofParams hsettings⟩
  · exact map_build_defaultOrder registry kind resolver config request other

/-- Columns of which one has the name of a direction. -/
def sortable : Schema where
  properties := ["desc", "name"]
  relations := .ofList []
  taxonomies := .ofList []

/-- Items with directions in other letter cases, with blanks of other kinds, and without anything else. -/
def spacedItems : List Text :=
  ["\tname\u2003DesC ", "", " desc", "\u00a0", "name aSC ", " desc  desc "]

/-- The default order is none of the entity, and the later one of two directives counts. -/
def sortedTwice : Request :=
  .ofList [("@ORDER", "id"), ("name", "EQ(a)"), ("@order", "name  desc")]

theorem build_order_spaced :
    OrderBy.parseList sortable "@order" (joinWith "," spacedItems) =
      .ok [⟨"name", .descending⟩, ⟨"desc", .ascending⟩, ⟨"name", .ascending⟩, ⟨"desc", .descending⟩] ∧
    OrderBy.Says sortable "@order" "name, desc up,none" (.error (.invalidArgument "@order" (.badOrder "desc up"))) ∧
    ∃ schema plan, agents.get? "agent" = some schema ∧
      build agents "agent" .anonymous { defaultOrder := "none" } sortedTwice = .ok plan ∧
      plan.order = [⟨"name", .descending⟩] ∧
      SortedBy schema { defaultOrder := "none" } sortedTwice.entries plan.order := by
  obtain ⟨hread, hwritten, hplan⟩ := build_order
  refine ⟨hwritten _ _ _ spacedItems (by decide) ?_ (by decide), (hread _ _ _ _).mp (by decide), ?_⟩
  · refine .cons ?_ (.cons ?_ (.cons ?_ (.cons ?_ .nil)))
    · exact @OrderBy.IsItem.directed "\t" "name" "\u2003" "DesC" " " .descending (by decide) (by decide) (by decide)
        (by decide) (by decide) (by decide)
    · exact @OrderBy.IsItem.plain " " "desc" "" (by decide) (by decide) (by decide)
    · exact @OrderBy.IsItem.directed "" "name" " " "aSC" " " .ascending (by decide) (by decide) (by decide)
        (by decide) (by decide) (by decide)
    · exact @OrderBy.IsItem.directed " " "desc" "  " "desc" " " .descending (by decide) (by decide) (by decide)
        (by decide) (by decide) (by decide)
  · have horder : (build agents "agent" .anonymous { defaultOrder := "none" } sortedTwice).map Plan.order =
        .ok [⟨"name", .descending⟩] := by decide +kernel
    obtain ⟨plan, hb, ho⟩ := Outcome.map_eq_ok_iff.mp horder
    obtain ⟨schema, hschema, hsorted⟩ := (hplan agents "agent" .anonymous _ sortedTwice).1 plan hb
    exact ⟨schema, plan, hschema, hb, ho, hsorted⟩

end Plan

end FilterPlan
