import GuardedConfig.Proofs.Batches
import GuardedConfig.Proofs.KeptTables
import GuardedConfig.Proofs.Loading

/-!
# `Proofs.Clashes` — tables whose names the store takes for the same

A catalog tells names apart by their characters, but the store also ignores the case of letters, and a table that is
already there is not created again. So of two tables whose names differ by case alone, at most one is created. The
tables of all other names are created as they should be.

## Contents

* `Table.Legible`, `Table.IsSimple.legible` — a text that defines its own table
* `Standing` — what stands in a store after some of the statements: `Standing.units`
* `created_iff_apart`, `clashing_instances`
-/

namespace GuardedConfig

open Sql

namespace Schema

variable {s : CompiledSchema} {ss : List SchemaStatement} {t u : Table} {content : Content}

/-! ## Texts that define their tables -/

/-- A table of the store that is what a table should be: its text, its name, its key and its columns. -/
structure Table.Describes (t : Table) (info : TableInfo) : Prop where
  definition : info.definition = t.createText
  name : info.name = t.name
  key : info.key = some 0
  columns : info.columns.map (·.name) = t.key :: t.columnNames

/-- A table whose text is read as a definition and nothing else, which defines what the table should be. -/
def Table.Legible (t : Table) : Prop :=
  ∃ d parameters, readFirst (lexemes t.createText) = .ok (some ⟨.create d, parameters, []⟩) ∧ d.name = t.name ∧
    ∀ info, d.info = .ok info → t.Describes info

theorem Table.describes_info (t : Table) : t.Describes t.info where
  definition := rfl
  name := rfl
  key := rfl
  columns := by
    show t.key :: (t.columns.map Column.info).map (·.name) = t.key :: t.columns.map (·.name)
    rw [List.map_map]
    exact congrArg _ (List.map_congr_left fun c _ => c.info_name)

/-- Simple tables are legible. -/
theorem Table.IsSimple.legible (h : t.IsSimple) (hw : t.IsWritable)
    (hkeys : ∀ k ∈ t.foreignKeys, ∃ c ∈ t.columns, c.name = k.column) : t.Legible := by
  refine ⟨t.definition, 0, ?_, rfl, fun info hinfo => ?_⟩
  · rw [lexemes_createText h hw]
    exact readFirst_tokens h
  · rw [((info_definition hkeys info).1 hinfo).2]
    exact t.describes_info

/-! ## What stands in a store -/

/-- The first of some tables that the store takes for the one with a name. -/
def firstNamed (tables : List Table) (name : String) : Option Table := tables.find? fun t => sameName t.name name

/-- What stands in a store after some statements: for each name the first of their tables that goes by it. -/
def Standing (ss : List SchemaStatement) (content : Content) : Prop :=
  ∀ name, Option.Rel Table.Describes (firstNamed (tablesOf ss) name) (content.infos.find? fun t => sameName t.name name)

theorem standing_nil {store : Store} (hempty : store.IsEmpty) : Standing [] store.content := by
  intro name
  unfold Content.infos
  rw [hempty.tables]
  exact .none

/-- A row is inserted, or skipped. -/
theorem Standing.configRow (h : Standing ss content) (config : String) {after : Content}
    (hafter : after.infos = content.infos) : Standing (ss ++ [.configRow config]) after := by
  have htables : tablesOf (ss ++ [SchemaStatement.configRow config]) = tablesOf ss :=
    (tablesOf_append ..).trans (List.append_nil _)
  unfold Standing
  rw [htables, hafter]
  exact h

/-- A table is created, unless there is one that goes by its name. -/
theorem Standing.create (h : Standing ss content) {d : TableText} (hname : d.name = t.name)
    (hinfo : ∀ info, d.info = .ok info → t.Describes info) {after : Content} (hok : content.define d = .ok after) :
    Standing (ss ++ [.create t]) after := by
  have htables : tablesOf (ss ++ [SchemaStatement.create t]) = tablesOf ss ++ [t] := tablesOf_append ..
  have hfirst : ∀ name, firstNamed (tablesOf ss ++ [t]) name =
      (firstNamed (tablesOf ss) name).or (if sameName t.name name then some t else none) := by
    intro name
    unfold firstNamed
    rw [List.find?_append, List.find?_singleton]
  unfold Content.define at hok
  split at hok
  · cases hok
  intro name
  rw [htables, hfirst]
  have hrel := h name
  rw [hname] at hok
  split at hok
  · -- nothing goes by the name yet, and the new table is put behind the others
    cases hd : d.info with
    | error f =>
      rw [hd] at hok
      cases hok
    | ok info =>
      rw [hd] at hok
      cases hok
      have hdescribes := hinfo info hd
      have hinfos : (content.add info).infos = content.infos ++ [info] := List.map_append
      rw [hinfos, List.find?_append, List.find?_singleton, hdescribes.name]
      generalize firstNamed (tablesOf ss) name = first at hrel ⊢
      generalize content.infos.find? (fun t => sameName t.name name) = found at hrel ⊢
      cases hrel with
      | some hrel => exact .some hrel
      | none =>
        split
        · exact .some hdescribes
        · exact .none
  · rename_i stored hstored
    have hsame : after = content := by
      split at hok
      · cases hok
      · split at hok <;> cases hok
        rfl
    rw [hsame]
    -- the new table would go by a name only if the one that is there does
    have hfound : sameName t.name name = true → content.infos.find? (fun t => sameName t.name name) ≠ none := by
      intro hgoes hnone
      rw [← funext fun u : TableInfo => sameName_congr_right hgoes u.name, Content.find?_infos, hstored] at hnone
      cases hnone
    generalize firstNamed (tablesOf ss) name = first at hrel ⊢
    generalize content.infos.find? (fun t => sameName t.name name) = found at hrel hfound ⊢
    cases hrel with
    | some hrel => exact .some hrel
    | none =>
      rw [if_neg fun hgoes => hfound hgoes rfl]
      exact .none

/-! ## Installing -/

/-- A statement of a schema that succeeds. -/
theorem Standing.statement {before after : Store} (h : Standing ss before.content) {statement : SchemaStatement}
    (hlegible : ∀ t ∈ statement.table?, t.Legible) (hok : outcome (installStatement statement) before = (.ok (), after)) :
    Standing (ss ++ [statement]) after.content := by
  cases statement with
  | create t =>
    obtain ⟨d, parameters, hread, hname, hinfo⟩ := hlegible t rfl
    unfold installStatement Store.batch at hok
    dsimp only at hok
    rw [Store.onSession_outcome, batch_of_create hread] at hok
    cases hdefine : before.session.content.define d with
    | error f =>
      rw [hdefine] at hok
      cases hok
    | ok content =>
      rw [hdefine] at hok
      cases hok
      exact h.create hname hinfo hdefine
  | configRow config =>
    obtain ⟨result, last, hinsert, hok⟩ := outcome_bind_eq_ok.1 hok
    cases hok
    refine h.configRow config ?_
    unfold Store.perform at hinsert
    rw [Store.onSession_outcome] at hinsert
    rcases hperform : before.session.perform _ [] with ⟨f | r, session⟩
    · rw [hperform] at hinsert
      cases hinsert
    · rw [hperform] at hinsert
      cases hinsert
      exact Session.infos_perform_insert hperform

theorem Standing.statements {more : List SchemaStatement} {before after : Store} (h : Standing ss before.content)
    (hlegible : ∀ t ∈ tablesOf more, t.Legible) (hok : outcome (more.forM installStatement) before = (.ok (), after)) :
    Standing (ss ++ more) after.content := by
  induction more generalizing ss before with
  | nil =>
    cases hok
    rw [List.append_nil]
    exact h
  | cons statement more ih =>
    obtain ⟨⟨⟩, next, hstatement, hok⟩ := outcome_bind_eq_ok.1 hok
    have hmem : ∀ t ∈ statement.table?, t ∈ tablesOf (statement :: more) :=
      fun t ht => List.mem_filterMap.2 ⟨statement, List.mem_cons_self .., ht⟩
    have hsub : ∀ t ∈ tablesOf more, t ∈ tablesOf (statement :: more) := fun t ht => by
      obtain ⟨other, hother, ht⟩ := List.mem_filterMap.1 ht
      exact List.mem_filterMap.2 ⟨other, List.mem_cons_of_mem _ hother, ht⟩
    rw [List.append_cons]
    exact ih (h.statement (fun t ht => hlegible t (hmem t ht)) hstatement) (fun t ht => hlegible t (hsub t ht)) hok

/-- Committing keeps the content. -/
theorem content_of_commit {before after : Store} (hok : outcome Store.commit before = (.ok (), after)) :
    after.content = before.content := by
  obtain ⟨opened, _, hget, hok⟩ := outcome_bind_eq_ok.1 hok
  cases hget
  obtain ⟨⟨⟩, _, hmodify, hok⟩ := outcome_bind_eq_ok.1 hok
  cases hmodify
  rw [Store.onSession_outcome] at hok
  rw [← (Prod.mk.inj hok).2]
  show (before.session.release _).2.content = before.session.content
  unfold Session.release
  split
  · rfl
  · split <;> rfl
  · rfl

theorem Standing.units {units : List SchemaUnit} {before after : Store} (h : Standing ss before.content)
    (hlegible : ∀ t ∈ tablesOf (units.flatMap (·.statements)), t.Legible)
    (hok : outcome (install units) before = (.ok (), after)) :
    Standing (ss ++ units.flatMap (·.statements)) after.content := by
  induction units generalizing ss before with
  | nil =>
    cases hok
    rw [List.flatMap_nil, List.append_nil]
    exact h
  | cons unit units ih =>
    obtain ⟨⟨⟩, next, hunit, hok⟩ := outcome_bind_eq_ok.1 hok
    obtain ⟨last, hstatements, hcommit⟩ := installUnit_eq_ok.1 hunit
    rw [List.flatMap_cons, tablesOf_append, List.forall_mem_append] at hlegible
    have hlast := Standing.statements (show Standing ss before.begun.content from h) hlegible.1 hstatements
    rw [← content_of_commit hcommit] at hlast
    rw [List.flatMap_cons, ← List.append_assoc]
    exact ih hlast hlegible.2 hok

/-! ## Names that are the same up to case -/

/-- A table is in a store as it should be. -/
def Table.IsIn (t : Table) (content : Content) : Prop :=
  ∃ stored, content.find? t.name = some stored ∧ t.Describes stored.info

/-- **Tables are created exactly if no two names are the same up to case.** On an empty store, each name leads to the
first table that goes by it; so all tables are what they should be if and only if their names are apart. -/
theorem created_iff_apart {decls : Declarations} (hcompile : compile decls = .ok s) (hlegible : ∀ t ∈ s.tables, t.Legible)
    {before after : Store} (hempty : before.IsEmpty) (hok : outcome (install s.units) before = (.ok (), after)) :
    (∀ t ∈ s.tables, ∃ first, firstNamed s.tables t.name = some first ∧ ∃ stored,
        after.content.find? t.name = some stored ∧ first.Describes stored.info) ∧
      ((∀ t ∈ s.tables, t.IsIn after.content) ↔ s.tables.Pairwise fun t u => sameName t.name u.name = false) := by
  have houtcome : outcome (compileDeclarations decls) {} = (.ok s, (({} : Catalog).compile decls).2) := Prod.ext hcompile rfl
  have houtlined : Outlined _ s := outlined_compileDeclarations outlined_empty houtcome
  have hstanding : Standing s.statements after.content := (standing_nil hempty).units hlegible hok
  have hfirst : ∀ t ∈ s.tables, ∃ first, firstNamed s.tables t.name = some first ∧ ∃ stored,
      after.content.find? t.name = some stored ∧ first.Describes stored.info := by
    intro t ht
    have hrel := hstanding t.name
    rw [Content.find?_infos] at hrel
    cases hfirst : firstNamed (tablesOf s.statements) t.name with
    | none =>
      refine absurd (sameName_self t.name) ?_
      exact List.find?_eq_none.1 hfirst t ht
    | some first =>
      rw [hfirst] at hrel
      cases hfound : after.content.find? t.name with
      | none =>
        rw [hfound] at hrel
        cases hrel
      | some stored =>
        rw [hfound] at hrel
        cases hrel with
        | some hdescribes => exact ⟨first, hfirst, stored, rfl, hdescribes⟩
  refine ⟨hfirst, ?apart, ?created⟩
  case apart =>
    -- one table cannot be what two tables with different names should be
    intro hin
    refine (List.pairwise_map.1 houtlined.supplies.nodup).imp_of_mem fun {t u} ht hu hne => ?_
    rw [Bool.eq_false_iff]
    intro hsame
    obtain ⟨stored, hstored, hdescribes⟩ := hin t ht
    obtain ⟨stored', hstored', hdescribes'⟩ := hin u hu
    have hfind : after.content.find? t.name = after.content.find? u.name := Content.find?_congr _ hsame
    rw [hfind, hstored'] at hstored
    cases hstored
    exact hne (hdescribes.name.symm.trans hdescribes'.name)
  case created =>
    intro hapart t ht
    obtain ⟨first, hfirst, stored, hstored, hdescribes⟩ := hfirst t ht
    have hmem : first ∈ s.tables := List.mem_of_find?_eq_some hfirst
    have hsame : sameName first.name t.name = true := List.find?_some (p := fun u : Table => sameName u.name t.name) hfirst
    exact ⟨stored, hstored, eq_of_sameName hapart hmem ht hsame ▸ hdescribes⟩

theorem created_server : ∃ after, outcome (install serverSchema.units) (.ofContent {}) = (.ok (), after) ∧
    ∀ t ∈ serverSchema.tables, t.IsIn after.content := by
  obtain ⟨c, hdescribed⟩ := described_of_compile compile_server plain_server.configs
  have hlegible : ∀ t ∈ serverSchema.tables, t.Legible := fun t ht => by
    have hwritable : ∀ t ∈ serverSchema.tables, NulFree t.name.toList ∧ (∀ c ∈ t.columns, NulFree c.name.toList) ∧
        ∀ k ∈ t.foreignKeys, NulFree k.column.toList ∧ NulFree k.references.toList := by decide +kernel
    obtain ⟨hname, hcolumns, hkeys⟩ := hwritable t ht
    refine (plain_server.simple ht).legible ⟨hname, hcolumns, hkeys⟩ fun k hk => ?_
    obtain ⟨⟨column, hc, hcolumn, -⟩, -⟩ := (hdescribed.grounded ht).leads k hk
    exact ⟨column, hc, hcolumn⟩
  have hok : (outcome (install serverSchema.units) (.ofContent {})).1.isOk = true :=
    (isOk_install hdescribed plain_server isEmpty_new).2 (by decide +kernel)
  rcases hinstall : outcome (install serverSchema.units) (.ofContent {}) with ⟨e | ⟨⟩, after⟩
  · rw [hinstall] at hok
    cases hok
  · exact ⟨after, rfl, (created_iff_apart compile_server hlegible isEmpty_new hinstall).2.2 plain_server.apart⟩

/-! ### Two instances of a template -/

/-- A config that refers to two instances of a template, whose arguments differ by case alone. -/
def clashingDeclarations : Declarations where
  structs := [⟨"T", "v TEXT DEFAULT x", some "x:TEXT=a"⟩]
  configs := [⟨"C", "p T(a), q T(A)"⟩]

/-- The table of an instance. -/
def instanceTable (argument : String) : Table where
  name := "T_" ++ argument
  columns := [⟨"v", "TEXT DEFAULT '" ++ argument ++ "'"⟩]

def clashingSchema : CompiledSchema where
  units := [⟨"C", [
    .create (instanceTable "a"), .create (instanceTable "A"),
    .create {
      name := "C", columns := [⟨"p", "INTEGER"⟩, ⟨"q", "INTEGER"⟩],
      foreignKeys := [⟨"p", "T_a", some .setNull⟩, ⟨"q", "T_A", some .setNull⟩] },
    .configRow "C"]⟩]
  configs := ["C"]
  slots := [
    ⟨"C", "p", .reference "C" "p" (instanceTable "a")⟩,
    ⟨"C", "q", .reference "C" "q" (instanceTable "A")⟩]

/-- The declarations are compiled and installed, but the second instance has no table of its own: its name leads to the
first one. -/
theorem clashing_instances : compile clashingDeclarations = .ok clashingSchema ∧
    instanceTable "a" ∈ clashingSchema.tables ∧ instanceTable "A" ∈ clashingSchema.tables ∧
    sameName (instanceTable "a").name (instanceTable "A").name = true ∧
    ∃ after, outcome (install clashingSchema.units) (.ofContent {}) = (.ok (), after) ∧
      (instanceTable "a").name ∈ (after.content.find? (instanceTable "A").name).map (·.info.name) ∧
      ¬ (instanceTable "A").IsIn after.content := by
  have hcompile : compile clashingDeclarations = .ok clashingSchema := by decide +kernel
  have hrun : (outcome (install clashingSchema.units) (.ofContent {})).map (·.isOk)
      (fun after => (after.content.find? "T_A").map (·.info.name)) = (true, some "T_a") := by decide +kernel
  refine ⟨hcompile, by decide, by decide, by decide, ?_⟩
  generalize outcome (install clashingSchema.units) (.ofContent {}) = run at hrun ⊢
  rcases run with ⟨e | ⟨⟩, after⟩
  · cases hrun
  · have hfound : (after.content.find? "T_A").map (·.info.name) = some "T_a" := (Prod.mk.inj hrun).2
    refine ⟨after, rfl, hfound, ?_⟩
    rintro ⟨stored, hstored, hdescribes⟩
    rw [show (instanceTable "A").name = "T_A" from rfl] at hstored
    rw [hstored] at hfound
    exact absurd (hdescribes.name.symm.trans (Option.some.inj hfound)) (by decide)

end Schema

end GuardedConfig
