import GuardedConfig.Proofs.Agreement
import GuardedConfig.Proofs.FailedLoad
import GuardedConfig.Proofs.Heads
import GuardedConfig.Proofs.SkippedRows

/-!
# `Proofs.Reinstallation` — installing again

An installation that has succeeded leaves tables that its texts do not create again, with rows that it does not insert
again. So where the tables are still there and every config has its row, installing once more changes no row, and the
fields of an artifact that is loaded once more are read as before.

This needs texts that define their tables and nothing else. The type of a field can end the definition and go on with
other statements, and these are run once more as well.

## Contents

* `SchemaStatement.Done`, `OwnTables`, `define_eq_ok` — what a statement has made
* `Installs`, `installs_units` — what a first installation leaves
* `LeavesRows`, `statement_again`, `unit_again`, `install_leavesRows` — a later one
* `load_of_prepare`, `Routed.slot_eq`, `getField_of_tables`, `Reachable.exists_install` — registries
* `install_again`, `smuggled_update_resets_number`
-/

namespace GuardedConfig

open Sql

namespace Schema

variable {t : Table}

/-! ## Definitions -/

/-- A condition that may stand in a check has no subqueries. -/
theorem subquery?_of_checkOnRows {info : TableInfo} {wherever : String} {e : Expr}
    (h : checkOnRows info wherever e = .ok ()) : ∀ part ∈ e.parts, part.subquery? = none := by
  intro part hpart
  by_contra hsubquery
  have hforbidden : ∃ fault, partFault? info wherever part = some (fault, true) := by
    cases part with
    | first => exact ⟨_, rfl⟩
    | inSelect => exact ⟨_, rfl⟩
    | _ => exact absurd rfl hsubquery
  obtain ⟨fault, hfault⟩ := hforbidden
  unfold checkOnRows at h
  dsimp only at h
  cases hfound : (e.parts.filterMap (partFault? info wherever)).find? (·.2) with
  | none => exact List.find?_eq_none.1 hfound _ (List.mem_filterMap.2 ⟨part, hpart, hfault⟩) rfl
  | some found =>
    rw [hfound] at h
    cases h

/-- What is known of a table that could be defined: nothing stopped the reading, and its checks have no subqueries. -/
theorem checked_of_info {d : TableText} {info : TableInfo} (hinfo : d.info = .ok info) :
    d.fault? = none ∧ ∀ k ∈ info.checks, ∀ part ∈ k.condition.parts, part.subquery? = none := by
  unfold TableText.info at hinfo
  obtain ⟨t, -, hinfo⟩ := except_bind_eq_ok.1 hinfo
  cases hfault : d.fault? with
  | some f =>
    rw [hfault] at hinfo
    cases hinfo
  | none =>
    rw [hfault] at hinfo
    obtain ⟨⟨⟩, -, hinfo⟩ := except_bind_eq_ok.1 hinfo
    obtain ⟨⟨⟩, hchecks, hinfo⟩ := except_bind_eq_ok.1 hinfo
    cases hinfo
    exact ⟨rfl, fun k hk => subquery?_of_checkOnRows (forM_eq_ok_iff.1 hchecks k hk)⟩

theorem sameName_primaryKey {a b : String} (h : sameName a b = true) :
    sameName (primaryKey a) (primaryKey b) = true := by
  rw [sameName_iff] at h ⊢
  unfold primaryKey Text.lowerAscii at *
  rw [String.toList_append, String.toList_append, List.map_append, List.map_append, h]

theorem isConfig_congr {info : TableInfo} {a b : String} (h : info.IsConfig a) (hab : sameName a b = true) :
    info.IsConfig b where
  key := h.key
  column := by
    rw [← h.column]
    unfold TableInfo.columnIndex?
    simp only [sameName_congr_right (sameName_primaryKey hab)]
  checks := h.checks

theorem isConfig_of_begins {d : TableText} {info : TableInfo} (hinfo : d.info = .ok info)
    (h : info.Begins t.name t.key) : info.IsConfig t.name where
  key := h.key
  column := by
    obtain ⟨columns, hcolumns⟩ := h.columns
    obtain ⟨c, columns, hcolumns, hname, -⟩ := List.map_eq_cons_iff.1 hcolumns.symm
    unfold TableInfo.columnIndex?
    rw [hcolumns, List.findIdx?_cons, hname]
    have hsame : sameName t.key (primaryKey t.name) = true := sameName_self _
    rw [hsame]
    rfl
  checks := (checked_of_info hinfo).2

/-! ## Statements -/

/-- The name of the table that a statement is about. -/
def SchemaStatement.target : SchemaStatement → String
  | .create t => t.name
  | .configRow config => config

/-- What a statement of a schema has made, so that it does not make it again. -/
def SchemaStatement.Done (c : Content) : SchemaStatement → Prop
  | .create t => (c.info? t.name).isSome = true ∧
      ∀ s : Session, (s.content.info? t.name).isSome = true → s.batch t.createText = (.ok (), s)
  | .configRow config => ∃ info ∈ c.info? config, info.TakesRow config

theorem SchemaStatement.Done.mono {c c' : Content} {statement : SchemaStatement} (h : statement.Done c)
    (hc : ∀ info ∈ c.info? statement.target, info ∈ c'.info? statement.target) : statement.Done c' := by
  cases statement with
  | create t =>
    obtain ⟨info, hinfo⟩ := Option.isSome_iff_exists.1 h.1
    exact ⟨Option.isSome_iff_exists.2 ⟨info, hc info hinfo⟩, h.2⟩
  | configRow config =>
    obtain ⟨info, hinfo, htakes⟩ := h
    exact ⟨info, hc info hinfo, htakes⟩

/-- The parents of the table of a config are there. -/
def SchemaStatement.HasParents (c : Content) (statement : SchemaStatement) : Prop :=
  ∀ config ∈ statement.row?, ∃ info ∈ c.info? config, c.HasParents info

theorem SchemaStatement.HasParents.mono {c c' : Content} {statement : SchemaStatement} (h : statement.HasParents c)
    (hc : c.Extends c') : statement.HasParents c' := by
  intro config hconfig
  obtain ⟨info, hinfo, hparents⟩ := h config hconfig
  exact ⟨info, hc _ info hinfo, hparents.mono hc⟩

/-- Whatever goes by the name of some tables is defined as one of them. -/
def OwnTables (tables : List Table) (c : Content) : Prop := ∀ t ∈ tables, ∀ info ∈ c.info? t.name, info.IsConfig t.name

theorem OwnTables.extends {tables : List Table} {c c' : Content} (h : OwnTables tables c)
    (hthere : ∀ t ∈ tables, (c.info? t.name).isSome = true) (hc : c.Extends c') : OwnTables tables c' := by
  intro t ht info hinfo
  obtain ⟨known, hknown⟩ := Option.isSome_iff_exists.1 (hthere t ht)
  obtain rfl : known = info := Option.some.inj ((hc _ known hknown).symm.trans hinfo)
  exact h t ht known hknown

theorem OwnTables.of_infos {tables : List Table} {c c' : Content} (h : OwnTables tables c) (hc : c'.infos = c.infos) :
    OwnTables tables c' := by
  intro t ht info hinfo
  refine h t ht info ?_
  rw [Content.info?_eq_find?] at hinfo ⊢
  exact hc ▸ hinfo

theorem OwnTables.add {tables : List Table} {c : Content} (h : OwnTables tables c) {info : TableInfo}
    (hinfo : info.IsConfig info.name) : OwnTables tables (c.add info) := by
  intro t ht other hother
  rw [Content.info?_add] at hother
  rcases Option.or_eq_some_iff.1 hother with hother | ⟨-, hother⟩
  · exact h t ht other hother
  · obtain ⟨hsame, hother⟩ := Option.ite_none_right_eq_some.1 hother
    cases hother
    exact isConfig_congr hinfo hsame

/-- Defining a table makes it known, and only it. -/
theorem define_eq_ok {tables : List Table} {c after : Content} {d : TableText} (h : OwnTables tables c)
    {parameters : Nat} {rest : List Lexeme}
    (hread : readFirst (lexemes t.createText) = .ok (some ⟨.create d, parameters, rest⟩))
    (hok : c.define d = .ok after) :
    OwnTables tables after ∧ c.Extends after ∧ (after.info? t.name).isSome = true ∧
      ∀ c' : Content, (c'.info? t.name).isSome = true → c'.define d = .ok c' := by
  obtain ⟨hexists, hname, hbegins⟩ := head_of_read hread
  unfold Content.define at hok
  split at hok
  · cases hok
  · rename_i hreserved
    have hagain : d.fault? = none → ∀ c' : Content, (c'.info? t.name).isSome = true → c'.define d = .ok c' := by
      intro hfault c' hthere
      unfold Content.info? at hthere
      rw [Option.isSome_map, ← hname] at hthere
      obtain ⟨stored, hstored⟩ := Option.isSome_iff_exists.1 hthere
      unfold Content.define
      rw [if_neg hreserved, hstored, hexists, hfault]
      rfl
    split at hok
    · -- nothing goes by the name yet
      cases hd : d.info with
      | error f =>
        rw [hd] at hok
        cases hok
      | ok info =>
        rw [hd] at hok
        cases hok
        have hbegins := hbegins info hd
        have hconfig := isConfig_of_begins hd hbegins
        rw [← hbegins.name] at hconfig
        refine ⟨h.add hconfig, Content.extends_add c info, ?_, hagain (checked_of_info hd).1⟩
        rw [Content.info?_add, ← hbegins.name, if_pos (sameName_self _), Option.isSome_or, Option.isSome_some,
          Bool.or_true]
    · rename_i stored hstored
      rw [hexists] at hok
      cases hfault : d.fault? with
      | some f =>
        rw [hfault] at hok
        cases hok
      | none =>
        rw [hfault] at hok
        cases hok
        refine ⟨h, .refl c, ?_, hagain hfault⟩
        unfold Content.info?
        rw [← hname, hstored]
        rfl

/-! ## Installing once -/

/-- What statements that succeed leave: all tables that there were, and what they have made. -/
structure Installs (tables : List Table) (statements : List SchemaStatement) (before after : Content) : Prop where
  own : OwnTables tables after
  keeps : before.Extends after
  done : ∀ statement ∈ statements, statement.Done after ∧ statement.HasParents after

theorem Installs.nil {tables : List Table} {c : Content} (h : OwnTables tables c) : Installs tables [] c c :=
  ⟨h, .refl c, fun _ hs => nomatch hs⟩

theorem Installs.append {tables : List Table} {statements more : List SchemaStatement} {before next after : Content}
    (h : Installs tables statements before next) (h' : Installs tables more next after) :
    Installs tables (statements ++ more) before after where
  own := h'.own
  keeps := h.keeps.trans h'.keeps
  done := List.forall_mem_append.2 ⟨fun statement hs =>
    ⟨(h.done statement hs).1.mono (h'.keeps _), (h.done statement hs).2.mono h'.keeps⟩, h'.done⟩

/-- A statement that succeeds has done its work. -/
theorem installs_statement {tables : List Table} {statement : SchemaStatement} {before after : Store}
    (h : OwnTables tables before.content) (halone : ∀ t ∈ statement.table?, t.IsAlone)
    (hconfig : ∀ config ∈ statement.row?, ∃ t ∈ tables, t.name = config)
    (hok : outcome (installStatement statement) before = (.ok (), after)) :
    Installs tables [statement] before.content after.content := by
  cases statement with
  | create t =>
    obtain ⟨d, parameters, hread⟩ := halone t rfl
    change outcome (Store.batch t.createText) before = _ at hok
    unfold Store.batch at hok
    rw [Store.onSession_outcome, batch_of_create hread] at hok
    cases hdefine : before.session.content.define d with
    | error f =>
      rw [hdefine] at hok
      cases hok
    | ok content =>
      rw [hdefine] at hok
      cases hok
      obtain ⟨hown, hextends, hthere, hagain⟩ := define_eq_ok h hread hdefine
      refine ⟨hown, hextends, List.forall_mem_singleton.2 ⟨⟨hthere, fun s hs => ?_⟩, fun _ hconfig => nomatch hconfig⟩⟩
      rw [batch_of_create hread, hagain s.content hs]
  | configRow config =>
    obtain ⟨result, last, hinsert, hok⟩ := outcome_bind_eq_ok.1 hok
    cases hok
    change outcome (Store.perform (.insert (configInsert config)) []) before = _ at hinsert
    unfold Store.perform at hinsert
    rw [Store.onSession_outcome] at hinsert
    rcases hperform : before.session.perform (.insert (configInsert config)) [] with ⟨f | r, session⟩
    · rw [hperform] at hinsert
      cases hinsert
    · rw [hperform] at hinsert
      cases hinsert
      obtain ⟨t, ht, rfl⟩ := hconfig config rfl
      have hinfos := Session.infos_perform_insert hperform
      obtain ⟨info, hinfo, htakes, hparents⟩ := takesRow_of_perform (h t ht) hperform
      have hkeeps : before.content.Extends session.content := .of_infos hinfos
      refine ⟨h.of_infos hinfos, hkeeps, List.forall_mem_singleton.2 ⟨⟨info, hkeeps _ info hinfo, htakes⟩, ?_⟩⟩
      rintro _ ⟨⟩
      exact ⟨info, hkeeps _ info hinfo, hparents.mono hkeeps⟩

theorem installs_statements {tables : List Table} {statements : List SchemaStatement} {before after : Store}
    (h : OwnTables tables before.content) (halone : ∀ statement ∈ statements, ∀ t ∈ statement.table?, t.IsAlone)
    (hconfig : ∀ statement ∈ statements, ∀ config ∈ statement.row?, ∃ t ∈ tables, t.name = config)
    (hok : outcome (statements.forM installStatement) before = (.ok (), after)) :
    Installs tables statements before.content after.content := by
  induction statements generalizing before with
  | nil =>
    cases hok
    exact .nil h
  | cons statement statements ih =>
    obtain ⟨halone, halone'⟩ := List.forall_mem_cons.1 halone
    obtain ⟨hconfig, hconfig'⟩ := List.forall_mem_cons.1 hconfig
    obtain ⟨⟨⟩, next, hstatement, hok⟩ := outcome_bind_eq_ok.1 hok
    have hfirst := installs_statement h halone hconfig hstatement
    exact hfirst.append (ih hfirst.own halone' hconfig' hok)

/-- An installation that succeeds has done the work of all its statements. -/
theorem installs_units {tables : List Table} {units : List SchemaUnit} {before after : Store}
    (h : OwnTables tables before.content)
    (halone : ∀ statement ∈ units.flatMap (·.statements), ∀ t ∈ statement.table?, t.IsAlone)
    (hconfig : ∀ statement ∈ units.flatMap (·.statements), ∀ config ∈ statement.row?, ∃ t ∈ tables, t.name = config)
    (hok : outcome (install units) before = (.ok (), after)) :
    Installs tables (units.flatMap (·.statements)) before.content after.content := by
  induction units generalizing before with
  | nil =>
    cases hok
    exact .nil h
  | cons unit units ih =>
    rw [List.flatMap_cons, List.forall_mem_append] at halone hconfig
    obtain ⟨⟨⟩, next, hunit, hok⟩ := outcome_bind_eq_ok.1 hok
    obtain ⟨last, hstatements, hcommit⟩ := installUnit_eq_ok.1 hunit
    have hbegun : OwnTables tables before.begun.content := h
    have hfirst := installs_statements hbegun halone.1 hconfig.1 hstatements
    rw [← content_of_commit hcommit] at hfirst
    rw [List.flatMap_cons]
    exact hfirst.append (ih hfirst.own halone.2 hconfig.2 hok)

/-! ## Installing again -/

/-- The store does not refuse the row of a config for a foreign key of its table, or to it. -/
def Accepts (c : Content) (config : String) : Prop := ∀ info ∈ c.info? config, c.Accepts info

theorem accepts_of_tables {c c' : Content} (h : c'.tables = c.tables) (config : String) :
    Accepts c' config ↔ Accepts c config := by
  unfold Accepts Content.Accepts Content.HasParents Content.info? Content.find? mismatches referrers
  rw [h]

/-- A step that changes no row and leaves the transactions open that were open, and that succeeds exactly under a
condition. -/
structure LeavesRows (now : Store) (condition : Prop) (p : Except Error Unit × Store) : Prop where
  isOk : p.1.isOk = true ↔ condition
  tables : p.2.content.tables = now.content.tables
  stack : p.2.SameStack now

theorem statement_again {statement : SchemaStatement} {now : Store} (h : statement.Done now.content)
    (hrow : ∀ config ∈ statement.row?, configRow ∈ now.content.idsOf config) :
    LeavesRows now (∀ config ∈ statement.row?, Accepts now.content config)
      (outcome (installStatement statement) now) := by
  cases statement with
  | create t =>
    have hbatch : outcome (Store.batch t.createText) now = (.ok (), now) := by
      unfold Store.batch
      rw [Store.onSession_outcome, h.2 now.session h.1]
      rfl
    change LeavesRows now _ (outcome (Store.batch t.createText) now)
    rw [hbatch]
    exact ⟨⟨fun _ _ hconfig => (nomatch hconfig), fun _ => rfl⟩, rfl, rfl, rfl⟩
  | configRow config =>
    obtain ⟨info, hinfo, htakes⟩ := h
    obtain ⟨stored, hfind, rfl⟩ := Content.info?_eq_some.1 hinfo
    have htaken : ∃ row ∈ stored.rows, row.id = configRow := by
      have hids := hrow config rfl
      unfold Content.idsOf Content.rowsOf at hids
      rw [hfind] at hids
      exact List.mem_map.1 hids
    have hinsert : outcome (installStatement (.configRow config)) now =
        outcome (Store.perform (.insert (configInsert config)) [] >>= fun _ => pure ()) now := rfl
    have haccepts : (∀ config' ∈ (SchemaStatement.configRow config).row?, Accepts now.content config') ↔
        referenceFault? now.session.content stored.info (fun _ => true) (·.deferred) = none := by
      rw [referenceFault?_eq_none_iff]
      constructor
      · exact fun h => h config rfl stored.info hinfo
      · rintro h _ ⟨⟩ info' hinfo'
        obtain rfl : stored.info = info' := Option.some.inj (hinfo.symm.trans hinfo')
        exact h
    rw [haccepts, hinsert, outcome_bind]
    unfold Store.perform
    rw [Store.onSession_outcome, perform_taken (show now.session.content.find? config = _ from hfind) htakes htaken]
    cases referenceFault? now.session.content stored.info (fun _ => true) (·.deferred) with
    | none => exact ⟨⟨fun _ => rfl, fun _ => rfl⟩, Content.tables_noted .., rfl, rfl⟩
    | some f => exact ⟨⟨fun h => (nomatch h), fun h => (nomatch h)⟩, rfl, rfl, rfl⟩

/-- Steps one after another. -/
theorem LeavesRows.bind {now : Store} {first second : Prop} {x : Task Store Unit} {f : Unit → Task Store Unit}
    (hx : LeavesRows now first (outcome x now))
    (hf : ∀ next : Store, next.content.tables = now.content.tables → LeavesRows next second (outcome (f ()) next)) :
    LeavesRows now (first ∧ second) (outcome (x >>= f) now) := by
  rw [outcome_bind]
  revert hx
  rcases outcome x now with ⟨e | ⟨⟩, next⟩ <;> rintro ⟨hok, htables, hstack⟩
  · exact ⟨⟨fun h => (nomatch h), fun h => (nomatch hok.2 h.1)⟩, htables, hstack⟩
  · obtain ⟨hok', htables', hstack'⟩ := hf next htables
    exact ⟨hok'.trans ⟨fun h => ⟨hok.1 rfl, h⟩, And.right⟩, htables'.trans htables, hstack'.saved.trans hstack.saved,
      hstack'.depth.trans hstack.depth⟩

theorem LeavesRows.congr {now : Store} {p q : Prop} {o : Except Error Unit × Store} (h : LeavesRows now p o)
    (hpq : p ↔ q) : LeavesRows now q o := ⟨h.isOk.trans hpq, h.tables, h.stack⟩

/-- Statements that have been done before, where the configs have their rows. -/
def Repeated (c : Content) (statements : List SchemaStatement) : Prop :=
  ∀ statement ∈ statements, statement.Done c ∧ ∀ config ∈ statement.row?, configRow ∈ c.idsOf config

theorem Repeated.of_tables {c c' : Content} {statements : List SchemaStatement} (h : Repeated c statements)
    (hc : c'.tables = c.tables) : Repeated c' statements := by
  intro statement hs
  obtain ⟨hdone, hrow⟩ := h statement hs
  refine ⟨hdone.mono (Content.Extends.of_tables hc _), fun config hconfig => ?_⟩
  have hids := hrow config hconfig
  unfold Content.idsOf at hids ⊢
  rwa [Content.rowsOf_of_tables hc]

/-- The store refuses no row of the configs of some statements. -/
def AcceptsAll (c : Content) (statements : List SchemaStatement) : Prop :=
  ∀ statement ∈ statements, ∀ config ∈ statement.row?, Accepts c config

theorem acceptsAll_cons {c : Content} {statement : SchemaStatement} {statements : List SchemaStatement} :
    AcceptsAll c (statement :: statements) ↔
      (∀ config ∈ statement.row?, Accepts c config) ∧ AcceptsAll c statements := List.forall_mem_cons

theorem acceptsAll_append {c : Content} {statements more : List SchemaStatement} :
    AcceptsAll c (statements ++ more) ↔ AcceptsAll c statements ∧ AcceptsAll c more := List.forall_mem_append

theorem acceptsAll_of_tables {c c' : Content} (h : c'.tables = c.tables) (statements : List SchemaStatement) :
    AcceptsAll c' statements ↔ AcceptsAll c statements := by
  unfold AcceptsAll
  simp only [accepts_of_tables h]

theorem statements_again {statements : List SchemaStatement} {now : Store} (h : Repeated now.content statements) :
    LeavesRows now (AcceptsAll now.content statements) (outcome (statements.forM installStatement) now) := by
  induction statements generalizing now with
  | nil => exact ⟨⟨fun _ _ hs => (nomatch hs), fun _ => rfl⟩, rfl, rfl, rfl⟩
  | cons statement statements ih =>
    obtain ⟨⟨hdone, hrow⟩, hrest⟩ := List.forall_mem_cons.1 h
    refine ((statement_again hdone hrow).bind fun next htables => ?_).congr acceptsAll_cons.symm
    exact (ih (Repeated.of_tables hrest htables)).congr (acceptsAll_of_tables htables statements)

theorem orphans_of_tables {c c' : Content} (h : c'.tables = c.tables) (deferred : Bool) :
    orphans c' deferred = orphans c deferred := by
  unfold orphans isOrphan parentOf Content.find?
  rw [h]

/-- A unit is committed or undone, and either leaves the rows. -/
theorem unit_again {unit : SchemaUnit} {now : Store} (h : Repeated now.content unit.statements) :
    LeavesRows now (AcceptsAll now.content unit.statements) (outcome (installUnit unit) now) := by
  have hagain := statements_again (show Repeated now.begun.content unit.statements from h)
  rw [installUnit_outcome]
  revert hagain
  rcases outcome (unit.statements.forM installStatement) now.begun with ⟨e | ⟨⟩, last⟩ <;>
    rintro ⟨hok, htables, hstack⟩ <;> dsimp only
  · rw [Store.rollback_outcome hstack]
    exact ⟨hok, rfl, rfl, rfl⟩
  · have hsettled : Store.Settled now.session.content last.session.content :=
      (orphans_of_tables (show last.session.content.tables = now.session.content.tables from htables) true).le
    rw [Store.commit_outcome hstack fun _ => hsettled]
    exact ⟨hok, htables, rfl, rfl⟩

theorem install_leavesRows {units : List SchemaUnit} {now : Store}
    (h : Repeated now.content (units.flatMap (·.statements))) :
    LeavesRows now (AcceptsAll now.content (units.flatMap (·.statements))) (outcome (install units) now) := by
  induction units generalizing now with
  | nil => exact ⟨⟨fun _ _ hs => (nomatch hs), fun _ => rfl⟩, rfl, rfl, rfl⟩
  | cons unit units ih =>
    rw [List.flatMap_cons] at h ⊢
    obtain ⟨hunit, hrest⟩ := List.forall_mem_append.1 h
    refine ((unit_again hunit).bind fun next htables => ?_).congr acceptsAll_append.symm
    exact (ih (Repeated.of_tables hrest htables)).congr (acceptsAll_of_tables htables _)

/-! ## Schemas -/

section Outlined

variable {s : CompiledSchema} {c : Catalog}

theorem Outlined.mem_configs (h : Outlined c s) {config : String} :
    config ∈ s.configs ↔ ∃ statement ∈ s.statements, config ∈ statement.row? := by
  rw [← h.rows, List.mem_filterMap]
  rfl

theorem Outlined.table_of_config (h : Outlined c s) {config : String} (hc : config ∈ s.configs) :
    ∃ t ∈ s.tables, t.name = config := h.inOrder.row (h.rows.symm ▸ hc)

/-- Every statement is about a table of the schema. -/
theorem Outlined.table_of_statement (h : Outlined c s) {statement : SchemaStatement} (hs : statement ∈ s.statements) :
    ∃ t ∈ s.tables, t.name = statement.target := by
  cases statement with
  | create t => exact ⟨t, mem_tablesOf.2 hs, rfl⟩
  | configRow config => exact h.table_of_config (h.mem_configs.2 ⟨_, hs, rfl⟩)

theorem Outlined.installs (h : Outlined c s) (halone : ∀ t ∈ s.tables, t.IsAlone) {start loaded : Store}
    (hown : OwnTables s.tables start.content) (hloaded : outcome (install s.units) start = (.ok (), loaded)) :
    Installs s.tables s.statements start.content loaded.content := by
  refine installs_units hown (fun statement hs t ht => ?_) (fun statement hs config hc => ?_) hloaded
  · exact halone t (List.mem_filterMap.2 ⟨statement, hs, ht⟩)
  · exact h.table_of_config (h.mem_configs.2 ⟨statement, hs, hc⟩)

/-- A schema whose tables are still there is installed again. -/
theorem Installs.again {before first : Content} (hi : Installs s.tables s.statements before first) (h : Outlined c s)
    {now : Store} (hthere : ∀ t ∈ s.tables, ∀ info ∈ first.info? t.name, info ∈ now.content.info? t.name)
    (hrows : ∀ config ∈ s.configs, configRow ∈ now.content.idsOf config) :
    LeavesRows now (∀ config ∈ s.configs, Accepts now.content config) (outcome (install s.units) now) := by
  have hrepeated : Repeated now.content s.statements := by
    intro statement hs
    obtain ⟨t, ht, hname⟩ := h.table_of_statement hs
    exact ⟨(hi.done statement hs).1.mono (hname ▸ hthere t ht),
      fun config hc => hrows config (h.mem_configs.2 ⟨statement, hs, hc⟩)⟩
  refine (install_leavesRows hrepeated).congr ⟨fun haccepts config hc => ?_, fun haccepts statement hs config hc => ?_⟩
  · obtain ⟨statement, hs, hc⟩ := h.mem_configs.1 hc
    exact haccepts statement hs config hc
  · exact haccepts config (h.mem_configs.2 ⟨statement, hs, hc⟩)

/-- As long as all tables are there, a config has the parents that it had when it was installed. -/
theorem Installs.accepts_iff {before first content : Content} (hi : Installs s.tables s.statements before first)
    (h : Outlined c s) (hextends : first.Extends content) {config : String} (hc : config ∈ s.configs) :
    Accepts content config ↔ ∀ info ∈ content.info? config, mismatches content info (·.deferred) = [] := by
  refine ⟨fun h info hinfo => (h info hinfo).2, fun h' info hinfo => ⟨?_, h' info hinfo⟩⟩
  obtain ⟨statement, hs, hc⟩ := h.mem_configs.1 hc
  obtain ⟨known, hknown, hparents⟩ := ((hi.done statement hs).2.mono hextends) config hc
  obtain rfl : known = info := Option.some.inj (hknown.symm.trans hinfo)
  exact hparents

end Outlined

end Schema

/-! ## Loading again -/

namespace Registry

open Schema

/-- Once the declarations are prepared, loading does what the installation does. -/
theorem load_of_prepare {a : Artifact} {s : CompiledSchema} {triggers : List Trigger}
    (h : prepare a.declarations = .ok (s, triggers)) (store : Store) :
    (load a store).1.isOk = (outcome (install s.units) store).1.isOk ∧
      (load a store).2 = (outcome (install s.units) store).2 := by
  have hregister : ∀ r : Registry, r.configs = s.configs →
      ∃ r', outcome (triggers.forM fun t => do let _ ← register t : Task Registry Unit) r = (.ok (), r') := by
    intro r hr
    have hend := Keeps.forM (fun t ht => (register_keepsConfigs (prepare_fits h t ht)).bind fun _ => .pure ()) r hr
    revert hend
    rcases houtcome : outcome (triggers.forM fun t => do let _ ← register t : Task Registry Unit) r with ⟨e | ⟨⟩, r'⟩
    · exact False.elim
    · exact fun _ => ⟨r', rfl⟩
  unfold load
  rw [h]
  dsimp only
  rcases hinstall : outcome (install s.units) store with ⟨e | ⟨⟩, installed⟩ <;>
    rw [show (install s.units).run.run store = _ from hinstall]
  · exact ⟨rfl, rfl⟩
  · obtain ⟨r', hr'⟩ := hregister
      { ofSchema installed s with slices := a.declarations.slices, metadata := a.metadata } rfl
    dsimp only
    rw [show (triggers.forM fun t => do let _ ← register t : Task Registry Unit).run.run _ = _ from hr']
    exact ⟨rfl, rfl⟩

/-- The paths of a schema tell the slots of its plans. -/
theorem Routed.slot_eq {c : Catalog} {s : CompiledSchema} (h : Outlined c s) {plans plans' : List (String × Plan)}
    (hr : Routed s.slots plans) (hr' : Routed s.slots plans') (path : String) :
    (lookup path plans).map (·.slot) = (lookup path plans').map (·.slot) := by
  have hserved : ∀ {plans plans' : List (String × Plan)}, Routed s.slots plans → Routed s.slots plans' → ∀ p,
      lookup path plans = some p → ∃ p', lookup path plans' = some p' := by
    intro plans plans' hr hr' p hp
    obtain ⟨hslot, hpath⟩ := hr.slot path p hp
    exact Option.isSome_iff_exists.1 (hpath ▸ hr'.served p.slot hslot)
  cases hp : lookup path plans with
  | none =>
    cases hp' : lookup path plans' with
    | none => rfl
    | some p' =>
      obtain ⟨p, hfound⟩ := hserved hr' hr p' hp'
      rw [hp] at hfound
      cases hfound
  | some p =>
    obtain ⟨p', hp'⟩ := hserved hr hr' p hp
    obtain ⟨hslot, hpath⟩ := hr.slot path p hp
    obtain ⟨hslot', hpath'⟩ := hr'.slot path p' hp'
    rw [hp']
    exact congrArg some (List.inj_on_of_nodup_map h.nodup_paths hslot hslot' (hpath.trans hpath'.symm))

/-- A field is read alike where it has the same slot and the tables have the same rows. -/
theorem getField_of_tables {r r' : Registry} {path : String}
    (hslot : (lookup path r'.plans).map (·.slot) = (lookup path r.plans).map (·.slot))
    (htables : r'.store.content.tables = r.store.content.tables) :
    (outcome (getField path) r').1 = (outcome (getField path) r).1 := by
  have hread : ∀ storage, (outcome (Plan.readRows (Plan.readCommand storage)) r'.store).1 =
      (outcome (Plan.readRows (Plan.readCommand storage)) r.store).1 := by
    intro storage
    have hperform : (r'.store.session.perform (.select (Plan.readQuery storage)) []).1 =
        (r.store.session.perform (.select (Plan.readQuery storage)) []).1 := by
      have hrun : (Plan.readQuery storage).run r'.store.session.content [] =
          (Plan.readQuery storage).run r.store.session.content [] := Select.run_of_tables htables _
      unfold Session.perform Session.prepare
      dsimp only
      rw [hrun]
      cases (Plan.readQuery storage).run r.store.session.content [] <;> rfl
    unfold Plan.readRows Plan.readCommand Store.perform
    rw [outcome_bind, outcome_bind, Store.onSession_outcome, Store.onSession_outcome]
    dsimp only
    rw [hperform]
    cases (r.store.session.perform (.select (Plan.readQuery storage)) []).1 <;> rfl
  unfold getField
  rw [outcome_bind, outcome_bind, expectPlan_outcome, expectPlan_outcome]
  cases hp : lookup path r.plans with
  | none =>
    rw [hp, Option.map_none, Option.map_eq_none_iff] at hslot
    rw [hslot]
  | some p =>
    rw [hp, Option.map_some, Option.map_eq_some_iff] at hslot
    obtain ⟨p', hp', hslot⟩ := hslot
    rw [hp']
    dsimp only
    rw [onStore_outcome, onStore_outcome, hslot]
    exact hread p.slot.storage

theorem exists_prepare_of_load {a : Artifact} {store after : Store} {r : Registry} (h : load a store = (.ok r, after)) :
    ∃ s triggers, prepare a.declarations = .ok (s, triggers) := by
  unfold load at h
  cases hprepare : prepare a.declarations with
  | error e =>
    rw [hprepare] at h
    cases h
  | ok prepared => exact ⟨prepared.1, prepared.2, rfl⟩

end Registry

open Schema

/-- A text that is read as the definition of its table holds nothing else. -/
theorem isCalm_of_alone {t : Table} (h : t.IsAlone) : (SchemaStatement.create t).IsCalm := by
  obtain ⟨d, parameters, hread⟩ := h
  have hsentences : sentences t.createText = [.create d] := by
    unfold sentences
    dsimp only
    rw [sentencesFrom, hread]
    dsimp only
    cases (lexemes t.createText).length <;> rfl
  intro sentence hsentence
  rw [hsentences, List.mem_singleton] at hsentence
  rw [hsentence]
  rfl

theorem isCalm_of_units {s : CompiledSchema} (halone : ∀ t ∈ s.tables, t.IsAlone) : ∀ unit ∈ s.units, unit.IsCalm := by
  intro unit hunit statement hs
  cases statement with
  | create t => exact isCalm_of_alone (halone t (mem_tablesOf.2 (List.mem_flatMap.2 ⟨unit, hunit, hs⟩)))
  | configRow config => trivial

/-- A registry that is reached by loading outside of a transaction has the tables that its installation has left,
whatever has been requested of it. -/
theorem Registry.Reachable.exists_install {a : Artifact} {s : CompiledSchema}
    (hok : Schema.compile a.declarations = .ok s) (halone : ∀ t ∈ s.tables, t.IsAlone) {start : Store}
    (hidle : start.session.saved = []) {r : Registry} (hr : Registry.Reachable a start r) :
    ∃ loaded, outcome (install s.units) start = (.ok (), loaded) ∧ r.store.content.infos = loaded.content.infos := by
  obtain ⟨r₀, loaded, hload, -⟩ := hr.exists_load
  obtain ⟨schema, triggers, hschema, -, hinstall, -⟩ := load_eq_ok hload
  obtain rfl : schema = s := Except.ok.inj (hschema.symm.trans hok)
  have htables : loaded.HasTables loaded.content.infos := by
    refine ⟨rfl, fun p hp => ?_⟩
    rw [(install_sameStack (isCalm_of_units halone) hinstall).saved, hidle] at hp
    cases hp
  have hon : On (Store.HasTables loaded.content.infos) (fun _ => True) r := by
    refine Reachable.of_keeps (fun r after hloads => ?_)
      (Request.run_keeps (Store.kept_hasTables loaded.content.infos) Plan.Kept.trivial) hr
    obtain ⟨_, _, -, -, -, hregistry⟩ := load_eq_ok hloads
    rw [hload] at hloads
    cases hloads
    exact ⟨genuine_of_load hload, hregistry.store ▸ htables, ⟨⟩⟩
  exact ⟨loaded, hinstall, hon.store.content⟩

/-- **Installing again keeps everything.** Let the texts of a schema define its tables and nothing else, and let it be
installed on a store without these tables. Then installing it again, where its tables are still there and the configs
have their rows, changes no row, leaves the transactions open that are open, and succeeds, exactly unless the store
refuses the row of a config for a foreign key that refers to what is no key: one of the table of the config, which
cannot be as long as all tables are still there, or one that refers to this table and is checked at the end of a
transaction. The same holds of loading an artifact again, whatever has been requested since it was loaded, for the first
time or where the tables of the first time are still there, and every field is read as before. -/
theorem install_again {ds : Declarations} {s : CompiledSchema} (hok : Schema.compile ds = .ok s)
    (halone : ∀ t ∈ s.tables, t.IsAlone) {before first : Store}
    (hnew : ∀ t ∈ s.tables, before.content.find? t.name = none)
    (hfirst : outcome (install s.units) before = (.ok (), first)) :
    (∀ now : Store, (∀ t ∈ s.tables, ∀ info ∈ first.content.info? t.name, info ∈ now.content.info? t.name) →
      (∀ config ∈ s.configs, configRow ∈ now.content.idsOf config) →
      LeavesRows now (∀ config ∈ s.configs, Accepts now.content config) (outcome (install s.units) now) ∧
        (first.content.Extends now.content → ∀ config ∈ s.configs, (Accepts now.content config ↔
          ∀ info ∈ now.content.info? config, mismatches now.content info (·.deferred) = []))) ∧
    ∀ a : Artifact, a.declarations = ds → ∀ start : Store, start.session.saved = [] →
      (start = before ∨ first.content.Extends start.content) → ∀ r, Registry.Reachable a start r →
      (∀ config ∈ s.configs, configRow ∈ r.store.content.idsOf config) →
      ∀ again : Store, again.content = r.store.content →
        ((Registry.load a again).1.isOk = true ↔ ∀ config ∈ s.configs, ∀ info ∈ r.store.content.info? config,
          mismatches r.store.content info (·.deferred) = []) ∧
        (Registry.load a again).2.content.tables = r.store.content.tables ∧
        ∀ r' after, Registry.load a again = (.ok r', after) →
          ∀ path, (outcome (Registry.getField path) r').1 = (outcome (Registry.getField path) r).1 := by
  have houtcome : outcome (compileDeclarations ds) {} = (.ok s, (({} : Catalog).compile ds).2) := Prod.ext hok rfl
  have houtlined : Outlined _ s := outlined_compileDeclarations outlined_empty houtcome
  have hinstalls : Installs s.tables s.statements before.content first.content := by
    refine houtlined.installs halone (fun t ht info hinfo => ?_) hfirst
    unfold Content.info? at hinfo
    rw [hnew t ht] at hinfo
    cases hinfo
  refine ⟨fun now hthere hrows => ⟨hinstalls.again houtlined hthere hrows, fun hextends _ hc =>
    hinstalls.accepts_iff houtlined hextends hc⟩, ?_⟩
  rintro a rfl start hidle hstart r hr hrows again hagain
  obtain ⟨loaded, hloaded, hinfos⟩ := hr.exists_install hok halone hidle
  have hkept : first.content.Extends loaded.content := by
    rcases hstart with rfl | hstart
    · cases hfirst.symm.trans hloaded
      exact .refl _
    · have hthere : ∀ t ∈ s.tables, (first.content.info? t.name).isSome = true := fun t ht =>
        (hinstalls.done (.create t) (mem_tablesOf.1 ht)).1.1
      exact hstart.trans (houtlined.installs halone (hinstalls.own.extends hthere hstart) hloaded).keeps
  have hextends : first.content.Extends again.content := hagain ▸ hkept.trans (.of_infos hinfos)
  have hleaves := hinstalls.again houtlined (fun t _ => hextends t.name) (hagain ▸ hrows)
  obtain ⟨triggers, hprepare⟩ : ∃ triggers, Registry.prepare a.declarations = .ok (s, triggers) := by
    obtain ⟨r₀, after, hload, -⟩ := hr.exists_load
    obtain ⟨schema, triggers, hprepare⟩ := Registry.exists_prepare_of_load hload
    obtain rfl : schema = s := Except.ok.inj ((Registry.prepare_eq_ok hprepare).1.symm.trans hok)
    exact ⟨triggers, hprepare⟩
  obtain ⟨hisOk, hafter⟩ := Registry.load_of_prepare hprepare again
  have htables : (Registry.load a again).2.content.tables = r.store.content.tables := by
    rw [hafter, hleaves.tables, hagain]
  refine ⟨?_, htables, fun r' after hload path => ?_⟩
  · rw [hisOk, hleaves.isOk, ← hagain]
    exact forall₂_congr fun _ hc => hinstalls.accepts_iff houtlined hextends hc
  · obtain ⟨schema, triggers', hschema, -, -, hregistry⟩ := Registry.load_eq_ok hload
    obtain rfl : schema = s := Except.ok.inj (hschema.symm.trans hok)
    refine Registry.getField_of_tables (Registry.Routed.slot_eq houtlined hregistry.routed (hr.routed hok) path) ?_
    rw [hregistry.store, ← htables, hload]

/-- A config with one number. -/
def counter : Artifact where
  fingerprint := ""
  declarations := { configs := [⟨"C", "x INTEGER"⟩] }

def counterTable : Table := { name := "C", columns := [⟨"x", "INTEGER"⟩] }

def counterSchema : CompiledSchema where
  units := [⟨"C", [.create counterTable, .configRow "C"]⟩]
  configs := ["C"]
  slots := [⟨"C", "x", .scalar "C" "x"⟩]

/-- The row of the config with its number. -/
def counterRow (x : Int) : Row := ⟨1, [.integer 1, .integer x]⟩

/-- The number is set. Installing and loading again leaves it. -/
theorem install_again_counter : ∃ r, Registry.Reachable counter (.ofContent {}) r ∧
    r.store.content.rowsOf "C" = [counterRow 5] ∧
    (∃ after, outcome (install counterSchema.units) r.store = (.ok (), after) ∧
      after.content.rowsOf "C" = [counterRow 5]) ∧
    ∃ r' after, Registry.load counter r.store = (.ok r', after) ∧ after.content.rowsOf "C" = [counterRow 5] ∧
      (outcome (Registry.getField "C.x") r').1 = (outcome (Registry.getField "C.x") r).1 := by
  let request : Request := .set "C.x" (.int 5)
  obtain ⟨r₀, first, hload, hrow, hidentifier, hmismatches⟩ : ∃ r after,
      Registry.load counter (.ofContent {}) = (.ok r, after) ∧
        (let now := (outcome request.run r).2.store.content
         now.rowsOf "C" = [counterRow 5] ∧ configRow ∈ now.idsOf "C" ∧
          (now.info? "C").all (fun info => (mismatches now info (·.deferred)).isEmpty) = true) :=
    Registry.exists_of_load (by decide +kernel)
  have hok : Schema.compile counter.declarations = .ok counterSchema := by decide +kernel
  have halone : ∀ t ∈ counterSchema.tables, t.IsAlone := by
    have hsimple : counterTable.IsSimple := ⟨List.forall_mem_singleton.2 (.inl (by decide +kernel)), rfl⟩
    have hwritable : counterTable.IsWritable :=
      ⟨by decide, List.forall_mem_singleton.2 (by decide), List.forall_mem_nil _⟩
    exact List.forall_mem_singleton.2 (hsimple.isAlone hwritable)
  obtain ⟨schema, -, hschema, -, hinstall, -⟩ := Registry.load_eq_ok hload
  obtain rfl : schema = counterSchema := Except.ok.inj (hschema.symm.trans hok)
  let r := (outcome request.run r₀).2
  have hr : Registry.Reachable counter (.ofContent {}) r := .request request (.load hload)
  have hrows : ∀ config ∈ counterSchema.configs, configRow ∈ r.store.content.idsOf config :=
    List.forall_mem_singleton.2 hidentifier
  have hrefers : ∀ config ∈ counterSchema.configs, ∀ info ∈ r.store.content.info? config,
      mismatches r.store.content info (·.deferred) = [] := by
    refine List.forall_mem_singleton.2 fun info hinfo => ?_
    have hall := hmismatches
    rw [show (outcome request.run r₀).2.store.content.info? "C" = some info from hinfo] at hall
    exact List.isEmpty_iff.1 hall
  have hextends : first.content.Extends r.store.content := by
    obtain ⟨loaded, hloaded, hinfos⟩ := hr.exists_install hok halone rfl
    cases hinstall.symm.trans hloaded
    exact .of_infos hinfos
  obtain ⟨hagain, hloaded⟩ := install_again hok halone (fun _ _ => rfl) hinstall
  obtain ⟨hleaves, haccepts⟩ := hagain r.store (fun t _ => hextends t.name) hrows
  obtain ⟨hisOk, htables, hsame⟩ := hloaded counter rfl _ rfl (.inl rfl) r hr hrows r.store rfl
  refine ⟨r, hr, hrow, ?_, ?_⟩
  · rcases hinstalled : outcome (install counterSchema.units) r.store with ⟨e | ⟨⟩, after⟩ <;> rw [hinstalled] at hleaves
    · have haccepted : ∀ config ∈ counterSchema.configs, Accepts r.store.content config := fun config hc =>
        (haccepts hextends config hc).2 (hrefers config hc)
      exact absurd (hleaves.isOk.2 haccepted) Bool.false_ne_true
    · exact ⟨after, rfl, (Content.rowsOf_of_tables hleaves.tables _).trans hrow⟩
  · rcases hreloaded : Registry.load counter r.store with ⟨e | r', after⟩ <;> rw [hreloaded] at hisOk htables
    · exact absurd (hisOk.2 hrefers) Bool.false_ne_true
    · exact ⟨r', after, rfl, (Content.rowsOf_of_tables htables _).trans hrow, hsame r' after hreloaded _⟩

/-! ### A statement in the type of a field -/

/-- A config whose number has a type that goes on after the end of the table and sets the number back. -/
def resettingCounter : Artifact where
  fingerprint := ""
  declarations :=
    { configs := [⟨"C", "x INTEGER /* (( */ ); UPDATE \"C\" SET x = 0; CREATE TABLE IF NOT EXISTS \"E\" (y TEXT"⟩] }

/-- The number is set, and the config keeps its row. Installing again succeeds, and the number is set back. -/
theorem smuggled_update_resets_number : ∃ r after, Registry.load resettingCounter (.ofContent {}) = (.ok r, after) ∧
    let now := (outcome (Request.set "C.x" (.int 5)).run r).2.store
    let again := Registry.load resettingCounter now
    now.content.rowsOf "C" = [counterRow 5] ∧ again.1.isOk = true ∧ again.2.content.rowsOf "C" = [counterRow 0] :=
  Registry.exists_of_load (by decide +kernel)

end GuardedConfig
