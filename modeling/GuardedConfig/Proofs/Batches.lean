import GuardedConfig.Proofs.Lexing
import GuardedConfig.Proofs.Wiring

/-!
# `Proofs.Batches` — batches of declarations on one catalog

A catalog goes on from batch to batch. The statements of all batches, one after another, create the tables that the
catalog has recorded: each of them once, and after the tables that it refers to, although a table for items may be made
for one batch and used by the next.

## Contents

* `SchemaStatement.createText?`, `name_eq_of_createText` — the text tells the table
* `Slot.tables` — what a slot refers to
* `CompiledSchema.concat`, `outlined_mapM` — batch by batch
* `CompiledSchema.Closed`, `closed_of_batches`
-/

namespace GuardedConfig.Schema

variable {c c' : Catalog} {s : CompiledSchema} {made : List Table}

/-! ## Texts -/

/-- The text of a statement that creates a table. -/
def SchemaStatement.createText? (st : SchemaStatement) : Option String := st.table?.map Table.createText

theorem createTexts_eq (ss : List SchemaStatement) :
    ss.filterMap SchemaStatement.createText? = (tablesOf ss).map Table.createText := by
  unfold SchemaStatement.createText? tablesOf
  rw [List.map_filterMap]

theorem mem_tablesOf {t : Table} {ss : List SchemaStatement} : t ∈ tablesOf ss ↔ .create t ∈ ss := by
  unfold tablesOf
  rw [List.mem_filterMap]
  constructor
  · rintro ⟨st, hst, ht⟩
    cases st with
    | create u =>
      cases ht
      exact hst
    | configRow config => cases ht
  · exact fun h => ⟨_, h, rfl⟩

/-- The quotes say where a name ends. -/
theorem name_eq_of_quoteName_append {name other : String} {front back : List Char}
    (hfront : Sql.Separated front) (hback : Sql.Separated back)
    (h : (quoteName name).toList ++ front = (quoteName other).toList ++ back) : name = other := by
  rw [Sql.toList_quoteName, Sql.toList_quoteName, List.cons_append, List.cons_append, List.append_assoc, List.append_assoc] at h
  have hread := congrArg (Sql.takeQuoted '"') (List.cons.inj h).2
  rw [List.singleton_append, List.singleton_append, Sql.takeQuoted_doubleQuotes _ hfront,
    Sql.takeQuoted_doubleQuotes _ hback] at hread
  exact String.toList_inj.1 (Prod.mk.inj (Option.some.inj hread)).1

/-- Tables with different names have different texts. -/
theorem name_eq_of_createText {t u : Table} (h : t.createText = u.createText) : t.name = u.name := by
  -- all texts begin alike up to the name, which is followed by a blank
  have htext : ∀ t : Table, ∃ rest, Sql.Separated rest ∧
      t.createText.toList = "CREATE TABLE IF NOT EXISTS ".toList ++ ((quoteName t.name).toList ++ rest) := by
    intro t
    refine ⟨(" (\n    " ++ Text.joinWith ",\n    " t.lines ++ "\n)").toList, ?_, ?_⟩
    · rw [String.toList_append, String.toList_append]
      exact Sql.separated_cons (by decide) _
    · unfold Table.createText
      simp only [String.toList_append, List.append_assoc]
  obtain ⟨front, hfront, ht⟩ := htext t
  obtain ⟨back, hback, hu⟩ := htext u
  rw [h, hu] at ht
  exact (name_eq_of_quoteName_append hback hfront (List.append_cancel_left ht)).symm

/-! ## Slots -/

/-- The tables that a slot refers to, apart from that of its config. -/
def Slot.tables (slot : Slot) : List Table :=
  match slot.storage with
  | .scalar .. => []
  | .reference _ _ target => [target]
  | .list table item _ => [item, .junction item.name table]

theorem Outlined.tables_slot (h : Outlined c s) {slot : Slot} (hslot : slot ∈ s.slots) : slot.tables ⊆ s.tables := by
  obtain ⟨-, hplaced, hjunctions⟩ := h.slots slot hslot
  unfold Slot.Placed at hplaced
  unfold Slot.junction? at hjunctions
  unfold Slot.tables
  cases hs : slot.storage with
  | scalar table column => exact List.nil_subset _
  | reference table column target =>
    rw [hs] at hplaced
    exact List.cons_subset.2 ⟨hplaced.2.2.1, List.nil_subset _⟩
  | list table item scalarItems =>
    rw [hs] at hplaced hjunctions
    exact List.cons_subset.2 ⟨hplaced.2.1, List.cons_subset.2 ⟨hjunctions _ rfl, List.nil_subset _⟩⟩

/-! ## Batches -/

/-- Schemas one after another. -/
def CompiledSchema.concat (ss : List CompiledSchema) : CompiledSchema :=
  ⟨ss.flatMap (·.units), ss.flatMap (·.configs), ss.flatMap (·.slots)⟩

theorem append_concat_cons (s more : CompiledSchema) (ss : List CompiledSchema) :
    s.append (.concat (more :: ss)) = (s.append more).append (.concat ss) := by
  simp [CompiledSchema.append, CompiledSchema.concat]

/-- What is compiled batch by batch. -/
theorem outlined_mapM {batches : List Declarations} {schemas : List CompiledSchema} (h : Outlined c s)
    (hok : outcome (batches.mapM compileDeclarations) c = (.ok schemas, c')) :
    Outlined c' (s.append (.concat schemas)) := by
  induction batches generalizing c s schemas with
  | nil =>
    cases hok
    simpa [CompiledSchema.append, CompiledSchema.concat] using h
  | cons decls batches ih =>
    rw [List.mapM_cons] at hok
    obtain ⟨more, c₁, hmore, hok⟩ := outcome_bind_eq_ok.1 hok
    obtain ⟨rest, c₂, hrest, hok⟩ := outcome_bind_eq_ok.1 hok
    cases hok
    rw [append_concat_cons]
    exact ih (outlined_compileDeclarations h hmore) hrest

/-! ## Closed schemas -/

/-- A schema whose statements create the tables that a catalog has recorded, each once and after what it refers to, and
insert the row of each config once and after its table. -/
structure CompiledSchema.Closed (s : CompiledSchema) (c : Catalog) : Prop where
  recorded : s.statements.filterMap SchemaStatement.createText? = c.tables.map fun entry => entry.2.createText
  once : (s.statements.filterMap SchemaStatement.createText?).Nodup
  named : ∀ entry ∈ c.tables, entry.2.name = entry.1 ∧ .create entry.2 ∈ s.statements
  foreignKeys : ∀ entry ∈ c.tables, ∀ k ∈ entry.2.foreignKeys, ∃ p, .create p ∈ s.statements ∧ p.name = k.references
  slots : ∀ slot ∈ s.slots, ∀ t ∈ slot.tables, .create t ∈ s.statements
  order : ∀ front t back, s.statements = front ++ .create t :: back →
    ∀ k ∈ t.foreignKeys, ∃ p, .create p ∈ front ∧ p.name = k.references
  rows : s.statements.filterMap SchemaStatement.row? = s.configs ∧ s.configs.Nodup
  rowOrder : ∀ front config back, s.statements = front ++ .configRow config :: back →
    ∃ t, .create t ∈ front ∧ t.name = config

theorem Outlined.closed (h : Outlined c s) : s.Closed c := by
  have hgrounded : ∀ t ∈ s.tables, ∀ k ∈ t.foreignKeys, ∃ p ∈ s.tables, p.name = k.references :=
    fun t ht k hk => ((h.inOrder.grounded ht).leads k hk).2
  refine ⟨?recorded, ?once, ?named, ?foreignKeys, fun slot hslot t ht => mem_tablesOf.1 (h.tables_slot hslot ht), ?order,
    ⟨h.rows, h.nodup⟩, ?rowOrder⟩
  case recorded =>
    rw [createTexts_eq, h.supplies.tables, List.map_map]
    rfl
  case once =>
    rw [createTexts_eq]
    exact List.pairwise_map.2 ((List.pairwise_map.1 h.supplies.nodup).imp fun hne htext =>
      hne (name_eq_of_createText htext))
  case named =>
    rw [h.supplies.tables]
    exact List.forall_mem_map.2 fun t ht => ⟨rfl, mem_tablesOf.1 ht⟩
  case foreignKeys =>
    rw [h.supplies.tables]
    refine List.forall_mem_map.2 fun t ht k hk => ?_
    obtain ⟨p, hp, hname⟩ := hgrounded t ht k hk
    exact ⟨p, mem_tablesOf.1 hp, hname⟩
  case order =>
    intro front t back hsplit k hk
    have horder := h.inOrder
    rw [hsplit, inOrder_append] at horder
    obtain ⟨p, hp, hname⟩ := (horder.2.1.leads k hk).2
    exact ⟨p, mem_tablesOf.1 hp, hname⟩
  case rowOrder =>
    intro front config back hsplit
    have horder := h.inOrder
    rw [hsplit, inOrder_append] at horder
    obtain ⟨t, ht, hname⟩ := horder.2.1
    exact ⟨t, mem_tablesOf.1 ht, hname⟩

/-- **Compiled batches are closed and in order**: what they create is what the catalog has recorded after them. -/
theorem closed_of_batches {batches : List Declarations} {schemas : List CompiledSchema}
    (hok : outcome (batches.mapM compileDeclarations) {} = (.ok schemas, c)) :
    (CompiledSchema.concat schemas).Closed c := by
  have houtlined := outlined_mapM outlined_empty hok
  have hempty : ({} : CompiledSchema).append (.concat schemas) = .concat schemas := rfl
  rw [hempty] at houtlined
  exact houtlined.closed

/-- Two configs share the table of integers, and the second one, which is declared later, refers to a struct of the
first batch. -/
def sharingBatches : List Declarations :=
  [{ structs := [⟨"Limit", "level TEXT", none⟩], configs := [⟨"Network", "ports LIST(INTEGER)"⟩] },
   { configs := [⟨"Audio", "limit Limit, rates LIST(INTEGER)"⟩] }]

theorem closed_sharing : ∃ schemas c,
    outcome (sharingBatches.mapM compileDeclarations) {} = (.ok schemas, c) ∧
      (CompiledSchema.concat schemas).Closed c ∧
      c.tables.map (·.1) = ["Limit", "INTEGER", "Network", "INTEGER_Network", "Audio", "INTEGER_Audio"] := by
  have hrun : (outcome (sharingBatches.mapM compileDeclarations) {}).map (·.isOk) (·.tables.map (·.1)) =
      (true, ["Limit", "INTEGER", "Network", "INTEGER_Network", "Audio", "INTEGER_Audio"]) := by decide +kernel
  rcases houtcome : outcome (sharingBatches.mapM compileDeclarations) {} with ⟨e | schemas, c⟩
  · rw [houtcome] at hrun
    cases hrun
  · rw [houtcome] at hrun
    exact ⟨schemas, c, rfl, closed_of_batches houtcome, (Prod.mk.inj hrun).2⟩

end GuardedConfig.Schema
