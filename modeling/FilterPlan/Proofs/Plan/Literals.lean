import FilterPlan.Plan.Render
import FilterPlan.Proofs.Plan.Build
import FilterPlan.Proofs.Text.Separable

/-!
# String literals in query text

Metadata keys are free text, and they stand in query text as string literals. A literal goes from its opening quote to
the first quote that is not doubled, and a doubled quote stands for one (`Text.literal?`). So a key is read back from its
literal, whatever quotes it has itself, if no quote follows (`Text.literal?_quoteLiteral`); lists of keys are read back
too (`Text.literals?_joinWith`). In the queries of a plan no literal is followed by a quote (`Plan.keys_read_back`).
-/

namespace FilterPlan

namespace Text

/-! ## Reading literals -/

/-- Reads a literal behind its opening quote: the text that it stands for, and what follows the quote that ends it. -/
def unquoted? : Text → Option (Text × Text)
  | [] => none
  | '\'' :: '\'' :: t => (unquoted? t).map fun (value, rest) => ('\'' :: value, rest)
  | '\'' :: t => some ([], t)
  | c :: t => (unquoted? t).map fun (value, rest) => (c :: value, rest)

/-- Reads the literal in front of a text: the text that it stands for, and what follows it. -/
def literal? : Text → Option (Text × Text)
  | '\'' :: t => unquoted? t
  | _ => none

/-- Less text is left behind a literal. -/
theorem length_of_unquoted? {t value rest : Text} (h : unquoted? t = some (value, rest)) : rest.length < t.length := by
  induction t using unquoted?.induct generalizing value with
  | case1 => cases h
  | case2 t ih =>
    obtain ⟨⟨value', rest'⟩, hread, he⟩ := Option.map_eq_some_iff.mp h
    cases he
    have hlength := ih hread
    simp only [List.length_cons]
    omega
  | case3 t hnext =>
    rw [unquoted?.eq_3 _ hnext] at h
    cases h
    exact Nat.lt_succ_self _
  | case4 c t hpair hquote ih =>
    rw [unquoted?.eq_4 _ _ hpair hquote] at h
    obtain ⟨⟨value', rest'⟩, hread, he⟩ := Option.map_eq_some_iff.mp h
    cases he
    exact Nat.lt_succ_of_lt (ih hread)

theorem length_of_literal? {t value rest : Text} (h : literal? t = some (value, rest)) : rest.length < t.length := by
  unfold literal? at h
  split at h
  · exact Nat.lt_succ_of_lt (length_of_unquoted? h)
  · cases h

/-- Reads literals with a comma and a blank between neighbours, up to a closing parenthesis: the texts that they stand
for, and what follows the parenthesis. -/
def literals? (t : Text) : Option (List Text × Text) :=
  match _h : literal? t with
  | some (value, ')' :: rest) => some ([value], rest)
  | some (value, ',' :: ' ' :: rest) => (literals? rest).map fun (values, behind) => (value :: values, behind)
  | _ => none
termination_by t.length
decreasing_by
  have hlength := length_of_literal? ‹_›
  simp only [List.length_cons] at hlength
  omega

/-! ## Keys are read back -/

/-- Behind the opening quote, a text is read back where no quote follows its literal. -/
theorem unquoted?_quoted {rest : Text} (hrest : rest.head? ≠ some '\'') : ∀ key : Text,
    unquoted? ((key.flatMap fun c => if c = '\'' then ['\'', '\''] else [c]) ++ '\'' :: rest) = some (key, rest)
  | [] => by
    cases rest with
    | nil => rfl
    | cons c rest =>
      rw [List.flatMap_nil, List.nil_append, unquoted?.eq_3]
      rintro t he
      exact hrest (congrArg List.head? he)
  | c :: key => by
    have ih := unquoted?_quoted hrest key
    rw [List.flatMap_cons, List.append_assoc]
    split
    · next hc =>
      subst hc
      rw [List.cons_append, List.cons_append, List.nil_append, unquoted?, ih]
      rfl
    · next hc =>
      rw [List.cons_append, List.nil_append, unquoted?.eq_4, ih]
      · rfl
      · exact fun t he => absurd he hc
      · exact fun he => absurd he hc

/-- **A text is read back from its literal** where no quote follows. -/
theorem literal?_quoteLiteral {rest : Text} (hrest : rest.head? ≠ some '\'') (key : Text) :
    literal? (quoteLiteral key ++ rest) = some (key, rest) := by
  rw [quoteLiteral, List.append_assoc, List.cons_append]
  exact unquoted?_quoted hrest key

/-- The last literal of a list. -/
theorem literals?_of_last {t key rest : Text} (h : literal? t = some (key, ')' :: rest)) :
    literals? t = some ([key], rest) := by
  rw [literals?]
  split
  · next he =>
    rw [h] at he
    cases he
    rfl
  · next he =>
    rw [h] at he
    cases he
  · next hne _ => exact absurd h (hne _ _)

/-- A literal with others behind it. -/
theorem literals?_of_next {t key behind rest : Text} {keys : List Text} (h : literal? t = some (key, ',' :: ' ' :: behind))
    (hbehind : literals? behind = some (keys, rest)) : literals? t = some (key :: keys, rest) := by
  rw [literals?]
  split
  · next he =>
    rw [h] at he
    cases he
  · next he =>
    rw [h] at he
    cases he
    rw [hbehind]
    rfl
  · next _ hne => exact absurd h (hne _ _)

/-- **Texts are read back from a list of their literals.** -/
theorem literals?_joinWith (rest : Text) : ∀ {keys : List Text}, keys ≠ [] →
    literals? (joinWith ", " (keys.map quoteLiteral) ++ ')' :: rest) = some (keys, rest)
  | [], hne => absurd rfl hne
  | [key], _ => by
    rw [List.map_singleton, joinWith, List.intercalate_singleton]
    exact literals?_of_last (literal?_quoteLiteral (by simp) key)
  | key :: key' :: keys, _ => by
    have ih := literals?_joinWith rest (List.cons_ne_nil key' keys)
    have hjoin : joinWith ", " ((key :: key' :: keys).map quoteLiteral) =
        quoteLiteral key ++ ',' :: ' ' :: joinWith ", " ((key' :: keys).map quoteLiteral) := by
      simp only [List.map_cons, joinWith, List.intercalate_cons_cons, List.append_assoc]
      rfl
    rw [hjoin, List.append_assoc]
    exact literals?_of_next (literal?_quoteLiteral (by simp) key) ih

end Text

/-! ## The literals of a plan -/

theorem Join.render_of_metadataKey {j : Join} {key : Text} (h : j.condition? = some (.metadataKey key)) (root : Text) :
    j.render root = "LEFT JOIN " ++ j.source.render root ++ " " ++ j.aliasName ++
      (" WITH " ++ j.aliasName ++ ".key = " ++ quoteLiteral key) := by
  unfold render
  rw [h]
  rfl

namespace Plan

/-- What follows a join in the body of a query does not begin with a quote. -/
theorem exists_bodyText_of_mem {p : Plan} {j : Join} (hj : j ∈ p.joins) (root : Text) :
    ∃ before behind, p.bodyText root = before ++ j.render root ++ behind ∧ behind.head? ≠ some '\'' := by
  obtain ⟨first, last, hsplit⟩ := List.append_of_mem hj
  obtain ⟨filter, hfilter, hbody⟩ : ∃ filter : Text, filter.head? ≠ some '\'' ∧ p.bodyText root =
      "FROM " ++ p.entityClass ++ " " ++ root ++ (p.joins.flatMap fun j => ("\n\t" : Text) ++ j.render root) ++ filter := by
    refine ⟨_, ?_, rfl⟩
    split
    · exact fun h => absurd (Option.some.inj h) (by decide)
    · exact nofun
  refine ⟨"FROM " ++ p.entityClass ++ " " ++ root ++ (first.flatMap fun j => ("\n\t" : Text) ++ j.render root) ++ "\n\t",
    (last.flatMap fun j => ("\n\t" : Text) ++ j.render root) ++ filter, ?_, ?_⟩
  · rw [hbody, hsplit, List.flatMap_append, List.flatMap_cons]
    simp only [List.append_assoc]
  · cases last with
    | nil => exact hfilter
    | cons j' last => exact fun h => absurd (Option.some.inj h) (by decide)

/-- **Metadata keys cannot break out of their literals.** The text of a join for a metadata key ends in a literal, and
the key is read back from it, with nothing left at the end of the join, and with no more and no less than what follows the
join in the body of a query. In the query for metadata, the selected keys are read back from the list of their literals. -/
theorem keys_read_back (p : Plan) :
    (∀ j ∈ p.joins, ∀ key, j.condition? = some (.metadataKey key) → ∀ root, ∃ literal before behind,
      j.render root = "LEFT JOIN " ++ j.source.render root ++ " " ++ j.aliasName ++ " WITH " ++ j.aliasName ++ ".key = " ++
        literal ∧
      Text.literal? literal = some (key, []) ∧
      p.bodyText root = before ++ j.render root ++ behind ∧
      Text.literal? (literal ++ behind) = some (key, behind)) ∧
    ∀ text, p.metadataText? = some text → ∃ className listed, p.metadataClass? = some className ∧
      text = "SELECT\n\tIDENTITY(m.owner) AS id, m.key, m.value\nFROM " ++ className ++ " m\nWHERE\n\tm.key IN (" ++
        listed ∧
      Text.literals? listed = some (p.metadata, " AND\n\tm.owner IN (" ++ p.nestedText idProperty ++ ")") := by
  constructor
  · intro j hj key hkey root
    obtain ⟨before, behind, hbody, hquote⟩ := exists_bodyText_of_mem hj root
    refine ⟨quoteLiteral key, before, behind, ?_, ?_, hbody, Text.literal?_quoteLiteral hquote key⟩
    · rw [Join.render_of_metadataKey hkey root]
      simp only [List.append_assoc]
    · have hempty : ([] : Text).head? ≠ some '\'' := nofun
      have hend := Text.literal?_quoteLiteral hempty key
      rwa [List.append_nil] at hend
  · intro text htext
    unfold metadataText? at htext
    split at htext
    · cases htext
    · next hmetadata =>
      obtain ⟨className, hclass, rfl⟩ := Option.map_eq_some_iff.mp htext
      have hne : p.metadata ≠ [] := fun h => hmetadata (List.isEmpty_iff.mpr h)
      have hlist := Text.literals?_joinWith (" AND\n\tm.owner IN (" ++ p.nestedText idProperty ++ ")") hne
      have hclosing : (") AND\n\tm.owner IN (" : Text) = ')' :: (" AND\n\tm.owner IN (" : Text) := rfl
      refine ⟨className, _, hclass, ?_, hlist⟩
      simp only [hclosing, List.append_assoc, List.cons_append]

/-- Keys of quotes and of what stands around literals. -/
def quotedKeys : List Text := ["')\\", "'", "''"]

/-- A key that looks like two literals. -/
def pairedKey : Text := "a', 'b\n"

/-- A registry of one kind with such keys. -/
def quoted : Registry where
  schemas := [{
    kind := "agent"
    className := "Agent"
    metadataClass? := some "AgentMeta"
    relations := .ofList []
    metadataKeys := pairedKey :: quotedKeys
    taxonomies := .ofList []
    capabilities := { usesMetadata := true } }]

/-- The join for the key that looks like two literals. -/
def pairedJoin : Join where
  aliasName := "m0"
  source := .ofRoot "__metadata"
  condition? := some (.metadataKey pairedKey)

theorem keys_read_back_paired : ∃ plan, build quoted "agent" .anonymous {}
      (.ofList [(pairedKey, "NULL()"), ("@select", "')\\,',''")]) = .ok plan ∧
    (∃ literal, pairedJoin.render "e_1" = "LEFT JOIN e_1.__metadata m0 WITH m0.key = " ++ literal ∧
      Text.literal? literal = some (pairedKey, [])) ∧
    ∃ text className listed rest, plan.metadataText? = some text ∧
      text = "SELECT\n\tIDENTITY(m.owner) AS id, m.key, m.value\nFROM " ++ className ++ " m\nWHERE\n\tm.key IN (" ++
        listed ∧
      Text.literals? listed = some (quotedKeys, rest) := by
  have hplan : (build quoted "agent" .anonymous {}
      (.ofList [(pairedKey, "NULL()"), ("@select", "')\\,',''")])).map (fun plan =>
        (plan.joins, plan.metadata, plan.metadataText?.isSome)) = .ok ([pairedJoin], quotedKeys, true) := by
    decide +kernel
  obtain ⟨plan, hb, hp⟩ := Outcome.map_eq_ok_iff.mp hplan
  simp only [Prod.mk.injEq] at hp
  obtain ⟨hjoins, hmetadata, hsome⟩ := hp
  have hjoin : pairedJoin ∈ plan.joins := by
    rw [hjoins]
    exact List.mem_cons_self
  obtain ⟨text, htext⟩ := Option.isSome_iff_exists.mp hsome
  obtain ⟨hkey, hquery⟩ := keys_read_back plan
  obtain ⟨literal, -, -, hrender, hliteral, -⟩ := hkey pairedJoin hjoin pairedKey rfl "e_1"
  obtain ⟨className, listed, -, hlisted, hread⟩ := hquery text htext
  rw [hmetadata] at hread
  exact ⟨plan, hb, ⟨literal, hrender, hliteral⟩, text, className, listed, _, htext, hlisted, hread⟩

end Plan

end FilterPlan
