import GuardedConfig.Proofs.Savepoint
import GuardedConfig.Proofs.Wiring
import GuardedConfig.Registry

/-!
# `Proofs.Installation` — a schema on an empty store

The statements of a plain schema are run one after another. After each of them the store has the tables that were
created so far, and each config that has got its row has this row alone: its identifier is 1, and it has no values.

## Contents

* `Table.bareRow` — the row of a config before any value is set
* `Store.IsEmpty`
* `Installed` — what a store contains once some of the statements have been run
* `Installed.statement`, `Installed.statements`, `Installed.unit` — step by step
* `installed_of_install`, `isOk_install`
* `Installed.owned` — nothing is owned yet
-/

namespace GuardedConfig

/-- A store without tables where no transaction is open. -/
structure Store.IsEmpty (store : Store) : Prop where
  tables : store.content.tables = []
  sequences : store.content.sequences = []
  closed : store.session.saved = []

namespace Schema

open Sql GuardedConfig.Field Text

/-! ## What is installed -/

/-- The values of the row of a config before any value is set. -/
def Table.bareValues (t : Table) : List Value := t.info.columns.mapIdx fun i _ => givenAt [0] [.integer configRow] i

/-- The row of a config before any value is set. -/
def Table.bareRow (t : Table) : Row := convert t.info configRow t.bareValues

/-- What a content is after some statements of a schema: their tables, each of which is empty, unless it is that of a
config that has got its row. -/
structure Installed (ss : List SchemaStatement) (content : Content) : Prop where
  infos : content.infos = (tablesOf ss).map Table.info
  definable : ∀ t ∈ tablesOf ss, t.Definable
  rows : ∀ t ∈ tablesOf ss, content.rowsOf t.name =
    if t.name ∈ ss.filterMap SchemaStatement.row? then [t.bareRow] else []
  sequences : ∀ name, 0 ≤ content.sequence name ∧ content.sequence name ≤ configRow

variable {c : Catalog} {s : CompiledSchema} {t : Table} {content : Content} {ss : List SchemaStatement}

/-- Field names are not cut off. -/
theorem nulFree_of_isFieldName {name : String} (h : isFieldName name = true) : NulFree name.toList := by
  have hnul : isAsciiLetter (Char.ofNat 0) = false ∧ isWord (Char.ofNat 0) = false := by decide +kernel
  intro c hc hzero
  have hchar : c = Char.ofNat 0 := by rw [← hzero, Char.ofNat_toNat]
  exact notMem_of_isFieldName h hnul.1 (by decide) hnul.2 (hchar ▸ hc)

theorem isTypeWord_linkType : isTypeWord linkType = false := by decide +kernel

theorem value_bareValues (t : Table) {i : Nat} (hi : i ≠ 0) : t.bareValues.getD i .null = .null := by
  unfold Table.bareValues
  rw [List.getD_eq_getElem?_getD, List.getElem?_mapIdx]
  have hgiven : givenAt [0] [.integer configRow] i = .null := by
    unfold givenAt
    rw [List.zip_cons_cons, List.zip_nil_left, List.find?_cons_of_neg (by simpa using Ne.symm hi)]
    rfl
  cases t.info.columns[i]? <;> simp [hgiven]

/-- The row of a config may be inserted without values. -/
theorem Described.admissible (h : Described c s) (hp : s.Plain) (ht : t ∈ s.tables) (hn : t.name ∈ s.configs)
    (hdistinct : t.HasDistinctColumns) (content : Content) : Admissible content t.info t.bareValues := by
  have hconfig := h.isConfig ht hn
  refine ⟨List.length_mapIdx, ?_, ?_⟩
  · intro i column hi hc hv
    obtain ⟨i, rfl⟩ := Nat.exists_eq_succ_of_ne_zero hi
    obtain ⟨column, hcolumn, rfl⟩ := List.mem_map.1 (List.mem_of_getElem? hc : column ∈ t.columns.map Column.info)
    unfold Column.info
    split
    · rename_i htype
      rcases hp.words t ht with ⟨item, owner, rfl⟩ | hwords
      · have hrule := (h.foreignKey_config hconfig (List.mem_cons_self ..)).1
        cases hrule
      · have hword := hwords column hcolumn
        rw [htype, isTypeWord_linkType] at hword
        cases hword
    · rfl
  · intro k' hk'
    obtain ⟨k, hk, rfl⟩ := List.mem_map.1 hk'
    obtain ⟨⟨column, hc, hname, -⟩, -⟩ := (h.grounded ht).leads k hk
    obtain ⟨i, hi⟩ := List.getElem?_of_mem hc
    have hplace := column_info hdistinct hi hname
    refine .inl ?_
    rw [show (k.info (t.keyInfo :: t.columns.map Column.info)).column = i + 1 from hplace]
    exact value_bareValues t (Nat.succ_ne_zero i)

namespace Installed

theorem apart (h : Installed ss content) (hp : s.Plain) (hstart : ss <+: s.statements) : Apart content.infos := by
  obtain ⟨more, hmore⟩ := hstart
  have hapart := hp.apart
  unfold CompiledSchema.tables at hapart
  rw [← hmore, tablesOf_append] at hapart
  rw [h.infos]
  exact List.Pairwise.map _ (fun _ _ hab => hab) (List.pairwise_append.1 hapart).1

theorem mem_tables (hstart : ss <+: s.statements) (ht : t ∈ tablesOf ss) : t ∈ s.tables := by
  obtain ⟨more, hmore⟩ := hstart
  unfold CompiledSchema.tables
  rw [← hmore, tablesOf_append]
  exact List.mem_append_left _ ht

theorem config (hd : Described c s) (hstart : ss <+: s.statements) {name : String}
    (hn : name ∈ ss.filterMap SchemaStatement.row?) : name ∈ s.configs := by
  obtain ⟨more, hmore⟩ := hstart
  rw [← hd.rows, ← hmore, List.filterMap_append]
  exact List.mem_append_left _ hn

theorem wired (h : Installed ss content) (hd : Described c s) (hp : s.Plain) (hstart : ss <+: s.statements) :
    Wired (tablesOf ss) := hd.wired hp hstart fun t ht => (h.definable t ht).distinct

/-- What is installed is sound. -/
theorem sound (h : Installed ss content) (hd : Described c s) (hp : s.Plain) (hstart : ss <+: s.statements) :
    content.Sound ((tablesOf ss).map Table.info) := by
  have hlayout := (h.wired hd hp hstart).layout
  refine ⟨h.infos, List.forall_mem_map.2 fun t ht => ?_, List.forall_mem_map.2 fun t ht row hr => ?_⟩
  · rw [show content.rowsOf t.info.name = _ from h.rows t ht]
    split
    · exact List.pairwise_singleton _ _
    · exact List.Pairwise.nil
  · rw [show content.rowsOf t.info.name = _ from h.rows t ht] at hr
    split at hr
    · rename_i hrow
      have hbare := hd.admissible hp (mem_tables hstart ht) (config hd hstart hrow) (h.definable t ht).distinct content
      rw [List.mem_singleton.1 hr]
      exact hbare.fits hlayout (List.mem_map_of_mem ht) _
    · cases hr

/-! ## Statements -/

/-- A definition adds an empty table. -/
theorem addTable (h : Installed ss content) (hdefinable : t.Definable) (hunknown : content.find? t.name = none)
    (hrow : t.name ∉ ss.filterMap SchemaStatement.row?) :
    Installed (ss ++ [.create t]) (content.add t.info) := by
  have htables : tablesOf (ss ++ [SchemaStatement.create t]) = tablesOf ss ++ [t] := tablesOf_append ..
  have hrows : (ss ++ [SchemaStatement.create t]).filterMap SchemaStatement.row? =
      ss.filterMap SchemaStatement.row? := by
    rw [List.filterMap_append]
    exact List.append_nil _
  refine ⟨?_, ?_, ?_, h.sequences⟩
  · rw [htables, List.map_append, ← h.infos]
    unfold Content.infos Content.add
    rw [List.map_append]
    rfl
  · rw [htables]
    intro u hu
    rcases List.mem_append.1 hu with hu | hu
    · exact h.definable u hu
    · rw [List.mem_singleton.1 hu]
      exact hdefinable
  · rw [htables, hrows]
    intro u hu
    rw [Content.rowsOf_add]
    rcases List.mem_append.1 hu with hu | hu
    · exact h.rows u hu
    · rw [List.mem_singleton.1 hu, if_neg hrow]
      unfold Content.rowsOf
      rw [hunknown]
      rfl

/-- A row is added to the table of a config. -/
theorem addRow (h : Installed ss content) (hd : Described c s) (hp : s.Plain) (hstart : ss <+: s.statements)
    (ht : t ∈ tablesOf ss) (hnew : t.name ∉ ss.filterMap SchemaStatement.row?) :
    Installed (ss ++ [.configRow t.name]) (content.inserted t.info configRow t.bareValues) := by
  have htables : tablesOf (ss ++ [SchemaStatement.configRow t.name]) = tablesOf ss :=
    (tablesOf_append ..).trans (List.append_nil _)
  have hrows : (ss ++ [SchemaStatement.configRow t.name]).filterMap SchemaStatement.row? =
      ss.filterMap SchemaStatement.row? ++ [t.name] := List.filterMap_append
  have hlayout := (h.wired hd hp hstart).layout
  have hmem : t.info ∈ content.infos := h.infos ▸ List.mem_map_of_mem ht
  refine ⟨?_, htables ▸ h.definable, ?_, fun name => ?_⟩
  · unfold Content.inserted
    rw [Content.infos_onRows, Content.infos_note, htables, h.infos]
  · rw [htables, hrows]
    intro u hu
    unfold Content.inserted
    by_cases hn : t.name = u.name
    · have hempty := h.rows t ht
      rw [if_neg hnew] at hempty
      rw [← hn, if_pos (List.mem_append_right _ (List.mem_singleton_self _)), show t.name = t.info.name from rfl,
        Content.rowsOf_onRows_self (by rw [Content.infos_note]; exact h.apart hp hstart)
          (by rw [Content.infos_note]; exact hmem), Content.rowsOf_note, show content.rowsOf t.info.name = _ from hempty,
        hp.eq_of_name (mem_tables hstart hu) (mem_tables hstart ht) hn.symm]
      rfl
    · have hother : sameName t.info.name u.name = false :=
        hlayout.sameName_of_ne (List.mem_map_of_mem ht) (List.mem_map_of_mem hu) hn
      rw [Content.rowsOf_onRows_of_ne hother, Content.rowsOf_note, h.rows u hu]
      have hiff : u.name ∈ ss.filterMap SchemaStatement.row? ++ [t.name] ↔ u.name ∈ ss.filterMap SchemaStatement.row? := by
        rw [List.mem_append, List.mem_singleton]
        exact or_iff_left (Ne.symm hn)
      rw [if_congr hiff rfl rfl]
  · obtain ⟨hnonneg, hle⟩ := h.sequences name
    unfold Content.inserted
    rw [Content.sequence_onRows, Content.sequence_note]
    split
    · exact ⟨Int.le_trans hnonneg (Int.le_max_left ..), max_le hle (Int.le_refl _)⟩
    · exact ⟨hnonneg, hle⟩

/-- The next table is new. -/
theorem isNew (h : Installed ss content) (hd : Described c s) (hp : s.Plain)
    (hstart : ss ++ [.create t] <+: s.statements) : t.IsNew content := by
  have ht : t ∈ s.tables := by
    refine mem_tables hstart ?_
    rw [tablesOf_append]
    exact List.mem_append_right _ (List.mem_singleton_self t)
  obtain ⟨more, hmore⟩ := hstart
  have hground : t.Grounded (tablesOf ss) := by
    have horder := hd.inOrder
    rw [← hmore, inOrder_append, inOrder_append] at horder
    exact horder.1.2.1
  refine ⟨hp.simple ht, fun _ column hc => ?_, fun k hk => ?_, Content.find?_eq_none.2 ?_⟩
  · rcases hground.columns column hc with hname | ⟨p, hpm, hkey⟩
    · exact nulFree_of_isFieldName hname
    · rw [hkey]
      exact nulFree_primaryKey (h.definable p hpm).name
  · obtain ⟨⟨column, hc, hname, -⟩, p, hpm, href⟩ := hground.leads k hk
    exact ⟨⟨column, hc, hname⟩, href ▸ (h.definable p hpm).name⟩
  · rw [h.infos]
    have hapart := hp.apart
    unfold CompiledSchema.tables at hapart
    rw [← hmore, tablesOf_append, tablesOf_append] at hapart
    exact List.forall_mem_map.2 fun u hu =>
      (List.pairwise_append.1 (List.pairwise_append.1 hapart).1).2.2 u hu t (List.mem_singleton_self t)

/-- A table is created if it can be defined. -/
theorem create_outcome (h : Installed ss content) (hd : Described c s) (hp : s.Plain)
    (hstart : ss ++ [.create t] <+: s.statements) {before : Store} (hc : before.content = content) :
    (t.Definable → outcome (installStatement (.create t)) before =
        (.ok (), { before with session := { before.session with content := before.content.add t.info } })) ∧
      (¬ t.Definable → ∃ e, outcome (installStatement (.create t)) before = (.error e, before)) := by
  subst hc
  have hbatch := batch_createText before.session (h.isNew hd hp hstart)
  unfold installStatement Store.batch
  dsimp only
  rw [Store.onSession_outcome]
  constructor
  · intro hdefinable
    rw [hbatch.1 hdefinable]
    rfl
  · intro hnot
    obtain ⟨f, hf⟩ := hbatch.2 hnot
    rw [hf]
    exact ⟨.store f, rfl⟩

/-- The next row is the first one of the table of its config. -/
theorem isConfigRow (hd : Described c s) {config : String}
    (hstart : ss ++ [.configRow config] <+: s.statements) :
    ∃ t ∈ tablesOf ss, t.name = config ∧ t.name ∈ s.configs ∧ t.name ∉ ss.filterMap SchemaStatement.row? := by
  have hn : config ∈ s.configs := by
    refine Installed.config hd hstart ?_
    rw [List.filterMap_append]
    exact List.mem_append_right _ (List.mem_singleton_self _)
  obtain ⟨t, ht, rfl⟩ : ∃ t ∈ tablesOf ss, t.name = config := by
    have horder := hd.inOrder
    obtain ⟨more, hmore⟩ := hstart
    rw [← hmore, inOrder_append, inOrder_append] at horder
    exact horder.1.2.1
  refine ⟨t, ht, rfl, hn, fun hrow => ?_⟩
  have hnodup := hd.nodup
  obtain ⟨more, hmore⟩ := hstart
  rw [← hd.rows, ← hmore, List.filterMap_append, List.filterMap_append] at hnodup
  exact (List.nodup_append.1 (List.nodup_append.1 hnodup).1).2.2 _ hrow _ (List.mem_singleton_self _) rfl

/-- The row of a config is always created. -/
theorem configRow_outcome (h : Installed ss content) (hd : Described c s) (hp : s.Plain) (hbefore : ss <+: s.statements)
    (ht : t ∈ tablesOf ss) (hn : t.name ∈ s.configs) (hnew : t.name ∉ ss.filterMap SchemaStatement.row?)
    {before : Store} (hc : before.content = content) :
    outcome (installStatement (.configRow t.name)) before = (.ok (), { before with session := { before.session with
      content := before.content.inserted t.info configRow t.bareValues, lastRowId := configRow, changes := 1 } }) := by
  subst hc
  have hsound := h.sound hd hp hbefore
  have hlayout := (h.wired hd hp hbefore).layout
  have hmem : t.info ∈ (tablesOf ss).map Table.info := List.mem_map_of_mem ht
  have hplaces : columnPlaces t.info t.info.name [primaryKey t.name] = .ok ([0].map some) := by
    unfold columnPlaces
    rw [List.mapM_cons, show t.info.columnIndex? (primaryKey t.name) = _ from columnIndex?_key (h.definable t ht).distinct]
    rfl
  have hadds : Insert.Adds
      { conflict := some .ignore, table := t.name, columns := some [primaryKey t.name], rows := some [[.int configRow]] }
      before.content [] t.info (.integer configRow) t.bareValues :=
    ⟨some .ignore, Insert.prepare_eq hlayout hsound hmem (.inr rfl) hplaces
      (show evalAll _ _ = .ok [.integer configRow] from rfl) rfl⟩
  have hempty : before.content.rowsOf t.info.name = [] := (h.rows t ht).trans (if_neg hnew)
  have hperform := perform_insert (s := before.session) hlayout hsound hmem hadds
    (hd.admissible hp (mem_tables hbefore ht) hn (h.definable t ht).distinct _)
    (.inr ⟨rfl, fun other ho => by rw [show before.session.content.rowsOf _ = _ from hempty] at ho; cases ho⟩)
  unfold installStatement
  dsimp only
  rw [outcome_bind]
  unfold Store.perform
  rw [Store.onSession_outcome, hperform]
  rfl

/-- A statement of a schema that succeeds. -/
theorem statement (h : Installed ss content) (hd : Described c s) (hp : s.Plain) {statement : SchemaStatement}
    (hstart : ss ++ [statement] <+: s.statements) {before after : Store} (hc : before.content = content)
    (hok : outcome (installStatement statement) before = (.ok (), after)) :
    Installed (ss ++ [statement]) after.content ∧ Store.SameStack after before := by
  have hbefore : ss <+: s.statements := (List.prefix_append _ _).trans hstart
  cases statement with
  | create t =>
    obtain ⟨hsucceeds, hfails⟩ := h.create_outcome hd hp hstart hc
    subst hc
    by_cases hdefinable : t.Definable
    · rw [hsucceeds hdefinable] at hok
      cases hok
      have hunknown := (h.isNew hd hp hstart).unknown
      refine ⟨h.addTable hdefinable hunknown fun hrow => ?_, rfl, rfl⟩
      -- a config gets its row after its table
      obtain ⟨u, hu, hname⟩ : ∃ u ∈ [] ++ tablesOf ss, u.name = t.name := by
        have horder := hd.inOrder
        obtain ⟨more, hmore⟩ := hbefore
        rw [← hmore, inOrder_append] at horder
        exact horder.1.row hrow
      have hunknown := Content.find?_eq_none.1 hunknown u.info (h.infos ▸ List.mem_map_of_mem hu)
      rw [show u.info.name = t.name from hname, sameName_self] at hunknown
      cases hunknown
    · obtain ⟨e, he⟩ := hfails hdefinable
      rw [he] at hok
      cases hok
  | configRow config =>
    obtain ⟨t, ht, rfl, hn, hnew⟩ := isConfigRow hd hstart
    rw [h.configRow_outcome hd hp hbefore ht hn hnew hc] at hok
    subst hc
    cases hok
    exact ⟨h.addRow hd hp hbefore ht hnew, rfl, rfl⟩

/-- The statements of a unit. -/
theorem statements (h : Installed ss content) (hd : Described c s) (hp : s.Plain) {more : List SchemaStatement}
    (hstart : ss ++ more <+: s.statements) {before after : Store} (hc : before.content = content)
    (hok : outcome (more.forM installStatement) before = (.ok (), after)) :
    Installed (ss ++ more) after.content ∧ Store.SameStack after before := by
  induction more generalizing ss content before with
  | nil =>
    cases hok
    rw [List.append_nil, hc]
    exact ⟨h, rfl, rfl⟩
  | cons statement more ih =>
    rw [List.append_cons] at hstart ⊢
    obtain ⟨⟨⟩, next, hstatement, hok⟩ := outcome_bind_eq_ok.1 hok
    obtain ⟨hnext, hstack⟩ := h.statement hd hp ((List.prefix_append _ _).trans hstart) hc hstatement
    obtain ⟨hafter, hstack'⟩ := ih hnext hstart rfl hok
    exact ⟨hafter, hstack'.saved.trans hstack.saved, hstack'.depth.trans hstack.depth⟩

/-- A statement succeeds if its table can be defined. -/
theorem statement_succeeds (h : Installed ss content) (hd : Described c s) (hp : s.Plain) {statement : SchemaStatement}
    (hstart : ss ++ [statement] <+: s.statements) (hdefinable : ∀ t ∈ statement.table?, t.Definable) {before : Store}
    (hc : before.content = content) : ∃ after, outcome (installStatement statement) before = (.ok (), after) := by
  cases statement with
  | create t => exact ⟨_, (h.create_outcome hd hp hstart hc).1 (hdefinable t rfl)⟩
  | configRow config =>
    obtain ⟨t, ht, rfl, hn, hnew⟩ := isConfigRow hd hstart
    exact ⟨_, h.configRow_outcome hd hp ((List.prefix_append _ _).trans hstart) ht hn hnew hc⟩

theorem statements_succeed (h : Installed ss content) (hd : Described c s) (hp : s.Plain) {more : List SchemaStatement}
    (hstart : ss ++ more <+: s.statements) (hdefinable : ∀ t ∈ tablesOf more, t.Definable) {before : Store}
    (hc : before.content = content) : ∃ after, outcome (more.forM installStatement) before = (.ok (), after) := by
  induction more generalizing ss content before with
  | nil => exact ⟨before, rfl⟩
  | cons statement more ih =>
    rw [List.append_cons] at hstart
    have hfirst : ∀ t ∈ statement.table?, t.Definable := fun t ht =>
      hdefinable t (List.mem_filterMap.2 ⟨statement, List.mem_cons_self .., ht⟩)
    have hrest : ∀ t ∈ tablesOf more, t.Definable := fun t ht => by
      obtain ⟨other, hother, ht⟩ := List.mem_filterMap.1 ht
      exact hdefinable t (List.mem_filterMap.2 ⟨other, List.mem_cons_of_mem _ hother, ht⟩)
    obtain ⟨next, hstatement⟩ := h.statement_succeeds hd hp ((List.prefix_append _ _).trans hstart) hfirst hc
    obtain ⟨hnext, -⟩ := h.statement hd hp ((List.prefix_append _ _).trans hstart) hc hstatement
    obtain ⟨after, hmore⟩ := ih hnext hstart hrest rfl
    exact ⟨after, (outcome_bind_ok hstatement).trans hmore⟩

end Installed

/-! ## Units -/

/-- The statements of a unit are run inside a transaction, which is then closed, or undone whatever comes of that. -/
theorem installUnit_outcome (unit : SchemaUnit) (s : Store) :
    outcome (installUnit unit) s =
      match outcome (unit.statements.forM installStatement) s.begun with
      | (.ok (), t) => outcome Store.commit t
      | (.error e, t) => (.error e, (outcome Store.rollback t).2) := by
  unfold installUnit
  rw [outcome_bind_ok (Store.begin_outcome s), outcome_bind, outcome_tryCatch]
  rcases outcome (unit.statements.forM installStatement) s.begun with ⟨e | ⟨⟩, t⟩
  · dsimp only
    rw [outcome_bind, outcome_tryCatch]
    rcases outcome Store.rollback t with ⟨f | ⟨⟩, u⟩ <;> rfl
  · rfl

/-- A unit that is installed. -/
theorem installUnit_eq_ok {unit : SchemaUnit} {before after : Store} :
    outcome (installUnit unit) before = (.ok (), after) ↔
      ∃ last, outcome (unit.statements.forM installStatement) before.begun = (.ok (), last) ∧
        outcome Store.commit last = (.ok (), after) := by
  rw [installUnit_outcome]
  rcases outcome (unit.statements.forM installStatement) before.begun with ⟨e | ⟨⟩, last⟩
  · exact ⟨fun hok => (nomatch hok), fun ⟨_, hok, _⟩ => (nomatch hok)⟩
  · exact ⟨fun hok => ⟨last, rfl, hok⟩, fun ⟨_, hlast, hok⟩ => by cases hlast; exact hok⟩

/-- Nothing is left to be settled. -/
theorem Installed.settled (h : Installed ss content) (hd : Described c s) (hp : s.Plain) (hstart : ss <+: s.statements)
    (before : Store) : Store.Settled before.session.content content := by
  unfold Store.Settled
  rw [orphans_deferred (h.wired hd hp hstart).layout h.infos]
  exact Nat.zero_le _

/-- A unit is installed in a transaction of its own. -/
theorem Installed.unit (h : Installed ss content) (hd : Described c s) (hp : s.Plain) {unit : SchemaUnit}
    (hstart : ss ++ unit.statements <+: s.statements) {before after : Store} (hc : before.content = content)
    (hok : outcome (installUnit unit) before = (.ok (), after)) :
    Installed (ss ++ unit.statements) after.content ∧ Store.SameStack after before := by
  obtain ⟨last, hstatements, hcommit⟩ := installUnit_eq_ok.1 hok
  obtain ⟨hlast, hstack⟩ := h.statements hd hp hstart (show before.begun.content = content from hc) hstatements
  rw [Store.commit_outcome hstack fun _ => hlast.settled hd hp hstart before] at hcommit
  cases hcommit
  exact ⟨hlast, rfl, rfl⟩

theorem Installed.units (h : Installed ss content) (hd : Described c s) (hp : s.Plain) {units : List SchemaUnit}
    (hstart : ss ++ units.flatMap (·.statements) <+: s.statements) {before after : Store} (hc : before.content = content)
    (hok : outcome (install units) before = (.ok (), after)) :
    Installed (ss ++ units.flatMap (·.statements)) after.content ∧ Store.SameStack after before := by
  induction units generalizing ss content before with
  | nil =>
    cases hok
    rw [List.flatMap_nil, List.append_nil, hc]
    exact ⟨h, rfl, rfl⟩
  | cons unit units ih =>
    rw [List.flatMap_cons, ← List.append_assoc] at hstart ⊢
    obtain ⟨⟨⟩, next, hunit, hok⟩ := outcome_bind_eq_ok.1 hok
    obtain ⟨hnext, hstack⟩ := h.unit hd hp ((List.prefix_append _ _).trans hstart) hc hunit
    obtain ⟨hafter, hstack'⟩ := ih hnext hstart rfl hok
    exact ⟨hafter, hstack'.saved.trans hstack.saved, hstack'.depth.trans hstack.depth⟩

/-- A unit is installed if its tables can be defined. -/
theorem Installed.unit_succeeds (h : Installed ss content) (hd : Described c s) (hp : s.Plain) {unit : SchemaUnit}
    (hstart : ss ++ unit.statements <+: s.statements) (hdefinable : ∀ t ∈ tablesOf unit.statements, t.Definable)
    {before : Store} (hc : before.content = content) :
    ∃ after, outcome (installUnit unit) before = (.ok (), after) := by
  have hbegun : before.begun.content = content := hc
  obtain ⟨last, hstatements⟩ := h.statements_succeed hd hp hstart hdefinable hbegun
  obtain ⟨hlast, hstack⟩ := h.statements hd hp hstart hbegun hstatements
  exact ⟨_, installUnit_eq_ok.2 ⟨last, hstatements, Store.commit_outcome hstack fun _ => hlast.settled hd hp hstart before⟩⟩

theorem Installed.units_succeed (h : Installed ss content) (hd : Described c s) (hp : s.Plain) {units : List SchemaUnit}
    (hstart : ss ++ units.flatMap (·.statements) <+: s.statements)
    (hdefinable : ∀ unit ∈ units, ∀ t ∈ tablesOf unit.statements, t.Definable) {before : Store}
    (hc : before.content = content) : ∃ after, outcome (install units) before = (.ok (), after) := by
  induction units generalizing ss content before with
  | nil => exact ⟨before, rfl⟩
  | cons unit units ih =>
    rw [List.flatMap_cons, ← List.append_assoc] at hstart
    obtain ⟨hfirst, hrest⟩ := List.forall_mem_cons.1 hdefinable
    obtain ⟨next, hunit⟩ := h.unit_succeeds hd hp ((List.prefix_append _ _).trans hstart) hfirst hc
    obtain ⟨hnext, -⟩ := h.unit hd hp ((List.prefix_append _ _).trans hstart) hc hunit
    obtain ⟨after, hunits⟩ := ih hnext hstart hrest rfl
    exact ⟨after, (outcome_bind_ok hunit).trans hunits⟩

/-- Nothing is installed on an empty store. -/
theorem installed_nil {store : Store} (hempty : store.IsEmpty) : Installed [] store.content := by
  refine ⟨?_, fun _ ht => (nomatch ht), fun _ ht => (nomatch ht), fun name => ?_⟩
  · unfold Content.infos
    rw [hempty.tables]
    rfl
  · unfold Content.sequence
    rw [hempty.sequences]
    exact ⟨Int.le_refl 0, show (0 : Int) ≤ configRow by decide⟩

/-- **A plain schema that is installed on an empty store** is all that the store contains. -/
theorem installed_of_install (hd : Described c s) (hp : s.Plain) {before after : Store} (hempty : before.IsEmpty)
    (hok : outcome (install s.units) before = (.ok (), after)) :
    Installed s.statements after.content ∧ Store.SameStack after before :=
  (installed_nil hempty).units hd hp (List.prefix_refl _) rfl hok

/-- A plain schema can be installed on an empty store exactly if its tables can be defined. -/
theorem isOk_install (hd : Described c s) (hp : s.Plain) {before : Store} (hempty : before.IsEmpty) :
    (outcome (install s.units) before).1.isOk = true ↔ ∀ t ∈ s.tables, t.Definable := by
  constructor
  · intro hok
    cases hrun : outcome (install s.units) before with | mk result after
    rw [hrun] at hok
    cases result with
    | ok => exact (installed_of_install hd hp hempty hrun).1.definable
    | error e => cases hok
  · intro hdefinable
    have hunits : ∀ unit ∈ s.units, ∀ t ∈ tablesOf unit.statements, t.Definable := by
      intro unit hunit t ht
      obtain ⟨statement, hs, ht⟩ := List.mem_filterMap.1 ht
      exact hdefinable t (List.mem_filterMap.2 ⟨statement, List.mem_flatMap.2 ⟨unit, hunit, hs⟩, ht⟩)
    obtain ⟨after, hafter⟩ := (installed_nil hempty).units_succeed hd hp (List.prefix_refl _) hunits rfl
    rw [hafter]
    rfl

/-! ## What is owned -/

/-- Nothing is owned yet. -/
theorem Installed.owned (h : Installed s.statements content) (hd : Described c s) (hp : s.Plain) :
    content.Owned (s.tables.map Table.info) s.owners s.configs none := by
  have hdistinct : ∀ t ∈ s.tables, t.HasDistinctColumns := fun t ht => (h.definable t ht).distinct
  have hlayout := (hd.wired hp (List.prefix_refl _) hdistinct).layout
  have hrows := h.rows
  rw [hd.rows] at hrows
  have hempty : ∀ t ∈ s.tables, t.name ∉ s.configs → content.rowsOf t.info.name = [] :=
    fun t ht hn => (hrows t ht).trans (if_neg hn)
  have hnone : ∀ link ∈ s.owners, content.held link = [] := by
    intro link hl
    obtain ⟨t, ht, k, hk, rfl, -⟩ := (hd.mem_owners hp).1 hl
    by_cases hn : t.name ∈ s.configs
    · have hrow : content.rowsOf t.info.name = [t.bareRow] := (hrows t ht).trans (if_pos hn)
      have hk' : k.info t.info.columns ∈ t.info.foreignKeys := List.mem_map_of_mem hk
      obtain ⟨p, -, hlink⟩ := hlayout.links t.info (List.mem_map_of_mem ht) _ hk'
      obtain ⟨⟨column, hc, hname, -⟩, -⟩ := (hd.grounded ht).leads k hk
      obtain ⟨i, hi⟩ := List.getElem?_of_mem hc
      have hnull : t.bareValues.getD (k.info t.info.columns).column .null = .null := by
        rw [column_info (hdistinct t ht) hi hname]
        exact value_bareValues t (Nat.succ_ne_zero i)
      have hvalue := value_convert_link (hdistinct t ht).isPlain hlink configRow
        (show t.bareValues.length = _ from List.length_mapIdx) (.inl hnull)
      rw [held_of_rowsOf _ rfl hrow]
      show ((t.bareRow).value (k.info t.info.columns).column).id?.toList = []
      unfold Table.bareRow
      rw [hvalue, hnull]
      rfl
    · unfold Content.held
      rw [show content.rowsOf (t.link k).1.name = _ from hempty t ht hn]
      rfl
  refine ⟨h.sound hd hp (List.prefix_refl _), ?_, ?_, ?_⟩
  · refine List.forall_mem_map.2 fun t ht hn _ => List.Perm.of_eq ?_
    unfold Content.owned Content.idsOf
    rw [hempty t ht hn, List.flatMap_eq_nil_iff.2 fun link hl => hnone link (List.mem_filter.1 hl).1]
    rfl
  · refine List.forall_mem_map.2 fun t ht hn => ?_
    unfold Content.idsOf
    rw [show content.rowsOf t.info.name = _ from (hrows t ht).trans (if_pos hn)]
    rfl
  · refine List.forall_mem_map.2 fun t ht hn k _ row hr => ?_
    rw [hempty t ht hn] at hr
    cases hr

end Schema

end GuardedConfig
