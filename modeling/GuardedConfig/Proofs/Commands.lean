import GuardedConfig.Plan.Steps
import GuardedConfig.Proofs.Wiring

/-!
# `Proofs.Commands` — what the statements of a write do

The content of a plain schema is such that its rows have their owners. From such a content, each statement of a
write has one effect, which is said here: the update of a column of a config, the deletion of the row of a
reference, and the deletion of the members of a list with their links.

## Contents

* `Regular`, `CompiledSchema.infos`, `CompiledSchema.Owned`
* `Regular.scalar`, `Regular.reference`, `Regular.list` — the tables of a slot
* `perform_updateColumn`, `perform_releaseRow`
* `perform_deleteMembers`, `perform_deleteLinks`
-/

namespace GuardedConfig

open Schema Sql

/-- The identifiers of the members of a list. -/
def Sql.Content.members (content : Content) (item owner : String) : List Int :=
  content.held ((Table.junction item owner).link (itemKey item))

namespace Schema

/-! ## Schemas -/

/-- A plain schema whose columns have different names. -/
structure Regular (c : Catalog) (s : CompiledSchema) : Prop where
  described : Described c s
  plain : s.Plain
  distinct : ∀ t ∈ s.tables, t.HasDistinctColumns

/-- The tables of a schema, as the store has them. -/
def CompiledSchema.infos (s : CompiledSchema) : List TableInfo := s.tables.map Table.info

/-- Every row for items has exactly one owner, except for one that may be new. -/
abbrev CompiledSchema.Owned (s : CompiledSchema) (new : Option (String × Int)) (content : Content) : Prop :=
  content.Owned s.infos s.owners s.configs new

variable {c : Catalog} {s : CompiledSchema} {t p : Table} {slot : Slot}

namespace Regular

theorem layout (h : Regular c s) : Layout s.infos := (h.described.wired h.plain (List.prefix_refl _) h.distinct).layout

theorem ownership (h : Regular c s) : Ownership s.infos s.owners s.configs :=
  h.described.ownership h.plain h.distinct

theorem mem_infos (ht : t ∈ s.tables) : t.info ∈ s.infos := List.mem_map_of_mem ht

/-- A column of a table that is not a junction need not have a value. -/
theorem notNull (h : Regular c s) (ht : t ∈ s.tables) (hn : t.name ∈ s.configs ∨ c.IsItem t.name) {i : Nat}
    {column : ColumnInfo} (hi : t.info.columns[i + 1]? = some column) : column.notNull = none := by
  obtain ⟨column, hc, rfl⟩ := List.mem_map.1 (List.mem_of_getElem? hi : column ∈ t.columns.map Column.info)
  unfold Column.info
  split
  · rename_i htype
    rcases h.plain.words t ht with ⟨item, owner, rfl⟩ | hwords
    · -- the keys of a junction are none of a config, and there are none of a table for items
      rcases hn with hn | hitem
      · cases (h.described.foreignKey_config (h.described.isConfig ht hn) (List.mem_cons_self ..)).1
      · cases (h.described.isBare ht hitem).1.foreignKeys
    · have hword := hwords column hc
      rw [htype] at hword
      exact absurd hword (by decide +kernel)
  · rfl

/-- The table of the config of a slot. -/
theorem config (h : Regular c s) (hslot : slot ∈ s.slots) :
    ∃ t ∈ s.tables, t.name = slot.config ∧ t.name ∈ s.configs := by
  have hconfig := (h.described.slots slot hslot).1
  obtain ⟨t, ht, hname⟩ := h.described.exists_table hconfig
  exact ⟨t, ht, hname, hname ▸ hconfig⟩

/-- A table for items refers to no other, and is none of a config. -/
theorem leaf (h : Regular c s) (hp : p ∈ s.tables) (hitem : c.IsItem p.name) :
    p.info.foreignKeys = [] ∧ p.name ∉ s.configs := by
  obtain ⟨hbare, hconfig⟩ := h.described.isBare hp hitem
  rw [Table.info_foreignKeys, hbare.foreignKeys]
  exact ⟨rfl, hconfig⟩

/-- A slot with a column is one of its config. -/
theorem column (h : Regular c s) (hslot : slot ∈ s.slots) (ht : t ∈ s.tables) (hname : t.name = slot.config)
    {column : String} (hcolumn : column ∈ slot.column?) : ∃ (i : Nat) (col : Column), t.columns[i]? = some col ∧ col.name = column := by
  have hconfig := h.described.isConfig ht (hname ▸ (h.described.slots slot hslot).1)
  have hmem : column ∈ t.columnNames := by
    rw [hconfig.columns]
    exact List.mem_filterMap.2 ⟨slot, List.mem_filter.2 ⟨hslot, decide_eq_true hname.symm⟩, hcolumn⟩
  obtain ⟨col, hcol, hn⟩ := List.mem_map.1 hmem
  obtain ⟨i, hi⟩ := List.getElem?_of_mem hcol
  exact ⟨i, col, hi, hn⟩

/-- The table of a scalar field, and its column, which is no foreign key. -/
theorem scalar (h : Regular c s) (hslot : slot ∈ s.slots) {table column : String}
    (hs : slot.storage = .scalar table column) :
    ∃ t ∈ s.tables, t.name = table ∧ t.name ∈ s.configs ∧
      ∃ (i : Nat) (col : Column), t.columns[i]? = some col ∧ col.name = column ∧ ∀ k ∈ t.foreignKeys, k.column ≠ column := by
  obtain ⟨t, ht, hname, hn⟩ := h.config hslot
  have hplaced := (h.described.slots slot hslot).2.1
  unfold Slot.Placed at hplaced
  rw [hs] at hplaced
  have hcolumn : slot.column? = some column := by
    unfold Slot.column?
    rw [hs]
  obtain ⟨i, col, hi, hcol⟩ := h.column hslot ht hname hcolumn
  refine ⟨t, ht, hname.trans hplaced.1.symm, hn, i, col, hi, hcol, fun k hk he => ?_⟩
  rw [(h.described.isConfig ht hn).foreignKeys, List.mem_filterMap] at hk
  obtain ⟨other, hother, hk⟩ := hk
  obtain ⟨hother, hconfig⟩ := List.mem_filter.1 hother
  have hfield := ((h.described.slots other hother).2.1.foreignKey hk).1
  have hne : slot ≠ other := by
    rintro rfl
    unfold Slot.foreignKey? at hk
    rw [hs] at hk
    cases hk
  refine (h.described.apart_of_ne hslot hother hne).fields ?_ ?_
  · rw [← hname, of_decide_eq_true hconfig]
  · rw [← hplaced.2, ← he, hfield]

/-- The tables of a reference, and its foreign key. -/
theorem reference (h : Regular c s) (hslot : slot ∈ s.slots) {table column : String} {target : Table}
    (hs : slot.storage = .reference table column target) :
    ∃ t ∈ s.tables, t.name = table ∧ t.name ∈ s.configs ∧ target ∈ s.tables ∧ c.IsItem target.name ∧
      ⟨column, target.name, some .setNull⟩ ∈ t.foreignKeys := by
  obtain ⟨t, ht, hname, hn⟩ := h.config hslot
  have hplaced := (h.described.slots slot hslot).2.1
  unfold Slot.Placed at hplaced
  rw [hs] at hplaced
  refine ⟨t, ht, hname.trans hplaced.1.symm, hn, hplaced.2.2.1, hplaced.2.2.2, ?_⟩
  rw [(h.described.isConfig ht hn).foreignKeys, List.mem_filterMap]
  refine ⟨slot, List.mem_filter.2 ⟨hslot, decide_eq_true hname.symm⟩, ?_⟩
  unfold Slot.foreignKey?
  rw [hs]

/-- The tables of a list. -/
theorem list (h : Regular c s) (hslot : slot ∈ s.slots) {table : String} {item : Table} {scalarItems : Bool}
    (hs : slot.storage = .list table item scalarItems) :
    ∃ t ∈ s.tables, t.name = table ∧ t.name ∈ s.configs ∧ item ∈ s.tables ∧ c.IsItem item.name ∧
      Table.junction item.name t.name ∈ s.tables := by
  obtain ⟨t, ht, hname, hn⟩ := h.config hslot
  have hplaced := (h.described.slots slot hslot).2.1
  unfold Slot.Placed at hplaced
  rw [hs] at hplaced
  refine ⟨t, ht, hname.trans hplaced.1.symm, hn, hplaced.2.1, hplaced.2.2.1, ?_⟩
  refine (h.described.slots slot hslot).2.2 _ ?_
  unfold Slot.junction?
  rw [hs, hname, hplaced.1]
  rfl

/-! ## The row of a config -/

variable {new new' : Option (String × Int)} {session : Session} {row : Row} {k : ForeignKey} {v : Value}

/-- The owning link of a reference. -/
theorem link_mem (h : Regular c s) (ht : t ∈ s.tables) (hk : k ∈ t.foreignKeys) (hitem : c.IsItem k.references) :
    (t.info, k.info t.info.columns) ∈ s.owners :=
  (h.described.mem_owners h.plain).2 ⟨t, ht, k, hk, rfl, hitem⟩

/-- The place of a foreign key among the columns. -/
theorem place (h : Regular c s) (ht : t ∈ s.tables) (hk : k ∈ t.foreignKeys) :
    ∃ (i : Nat) (col : Column), t.columns[i]? = some col ∧ col.name = k.column ∧
      (k.info t.info.columns).column = i + 1 := by
  obtain ⟨⟨col, hcol, hname, -⟩, -⟩ := (h.described.grounded ht).leads k hk
  obtain ⟨i, hi⟩ := List.getElem?_of_mem hcol
  exact ⟨i, col, hi, hname, column_info (h.distinct t ht) hi hname⟩

variable {content : Content}

/-- The row of a config has the identifier 1. -/
theorem configRow_fits (ht : t ∈ s.tables) (hn : t.name ∈ s.configs) (ho : s.Owned new content)
    (hrow : content.rowsOf t.name = [row]) :
    row ∈ content.rowsOf t.info.name ∧ row.Fits t.info ∧ row.value 0 = .integer configRow := by
  have hrow' : content.rowsOf t.info.name = [row] := hrow
  have hmem : row ∈ content.rowsOf t.info.name := by
    rw [hrow']
    exact List.mem_singleton_self row
  have hfit := ho.sound.fits _ (mem_infos ht) row hmem
  obtain ⟨other, hother, hid⟩ := ho.row_of_config (mem_infos ht) hn
  rw [hrow', List.cons.injEq] at hother
  refine ⟨hmem, hfit, ?_⟩
  rw [hfit.key, hother.1, hid]
  rfl

/-- The condition that selects the row of a config. -/
theorem select_configRow (h : Regular c s) (ht : t ∈ s.tables) (hn : t.name ∈ s.configs) (params : List Value)
    (ho : s.Owned new content) (hrow : content.rowsOf t.name = [row]) :
    eval { content, params, scopes := [[{ label := t.info.name, info := t.info }]] } (Plan.isConfigRow t.name) = .ok .null ∧
      selectRows content params ⟨t.info, content.rowsOf t.info.name⟩ (some (Plan.isConfigRow t.name)) = .ok [row] := by
  obtain ⟨-, -, hkey⟩ := configRow_fits ht hn ho hrow
  obtain ⟨hempty, hselect⟩ := selectRows_equals (c := content) (t := t.info) (columnIndex?_key (h.distinct t ht)) params
    (fun r (hr : r ∈ [row]) => by rw [List.mem_singleton.1 hr, hkey]; exact .integer _) configRow
  refine ⟨hempty, ?_⟩
  rw [show content.rowsOf t.info.name = [row] from hrow]
  refine hselect.trans ?_
  rw [List.filter_cons_of_pos (by simp [hkey]), List.filter_nil]

/-- The effect of the update of a column of a config. -/
theorem perform_updateColumn (h : Regular c s) (ht : t ∈ s.tables) (hn : t.name ∈ s.configs) {i : Nat} {col : Column}
    (hi : t.columns[i]? = some col) (ho : s.Owned new session.content) (hrow : session.content.rowsOf t.name = [row])
    (hv : ∀ k ∈ t.foreignKeys, k.column = col.name → IdOrNull v) {after : Content}
    (hafter : after = session.content.onRows t.name fun rows =>
      Stored.insertRow (t.info.assign (i + 1) v row) (rows.filter (·.id != row.id)))
    (ho' : s.Owned new' after) (p : Plan.Param) :
    session.perform (Plan.updateColumn t.name col.name p).statement [v] =
      (.ok default, { session with content := after, changes := 1 }) := by
  obtain ⟨hrmem, -⟩ := configRow_fits ht hn ho hrow
  obtain ⟨hempty, hselect⟩ := h.select_configRow ht hn [v] ho hrow
  refine perform_update h.layout ho.sound (mem_infos ht) (columnIndex?_info (h.distinct t ht) hi rfl) (getElem?_info hi)
    (Nat.succ_ne_zero i) (fun _ => h.notNull ht (.inl hn) (getElem?_info hi)) (fun k' hk' he => ?_) hempty hrmem hselect
    hafter fun deferred => ho'.orphans_eq_zero h.ownership deferred
  obtain ⟨k, hk, rfl⟩ := List.mem_map.1 hk'
  obtain ⟨j, col', hj, hname, hplace⟩ := h.place ht hk
  have hij : j = i := Nat.succ.inj (hplace.symm.trans he)
  rw [hij, hi, Option.some.injEq] at hj
  exact hv k hk (by rw [← hname, hj])

/-! ## Rows that are deleted -/

/-- The one row with an identifier that exists. -/
theorem filter_id {rows : List Row} (h : Ordered rows) {n : Int} (hn : n ∈ rows.map (·.id)) :
    (rows.filter fun row => row.id = n).map (·.id) = [n] := by
  have hcount : (rows.map (·.id)).count n = 1 := (List.Nodup.count h.nodup_ids).trans (if_pos hn)
  have hfilter : (rows.map (·.id)).filter (· == n) = [n] := by
    rw [List.filter_beq, hcount]
    rfl
  rw [← hfilter, List.filter_map]
  rfl

/-- Nothing else refers to a row that is deleted, so every other row keeps its owner. -/
theorem owned_removedAll (h : Regular c s) (hp : p ∈ s.tables) (hitem : c.IsItem p.name) (ho : s.Owned new content)
    (ids : List Int) (hids : ∀ id ∈ ids, id ∉ waiting new p.name) :
    s.Owned new (content.removedAll s.infos p.name ids) := by
  obtain ⟨hleaf, hconfig⟩ := h.leaf hp hitem
  unfold Content.removedAll
  induction ids generalizing content with
  | nil => exact ho
  | cons id ids ih =>
    exact ih (ho.removed h.ownership (mem_infos hp) hconfig hleaf (hids id (List.mem_cons_self ..)))
      fun n hn => hids n (List.mem_cons_of_mem _ hn)

/-- What an owner holds does not wait for one. -/
theorem not_mem_waiting (h : Regular c s) (hp : p ∈ s.tables) (hitem : c.IsItem p.name) (ho : s.Owned new content)
    {link : Link} (hl : link ∈ s.owners) (hparent : link.2.parent = p.name) {n : Int} (hn : n ∈ content.held link) :
    n ∉ waiting new p.name := by
  obtain ⟨hleaf, hconfig⟩ := h.leaf hp hitem
  have hconserved := ho.conserved _ (mem_infos hp) hconfig hleaf
  have hnodup := hconserved.nodup_iff.2 (ho.sound.ordered _ (mem_infos hp)).nodup_ids
  have howned : n ∈ content.owned s.owners p.name :=
    List.mem_flatMap.2 ⟨link, List.mem_filter.2 ⟨hl, decide_eq_true hparent⟩, hn⟩
  exact fun hw => (List.nodup_append.1 hnodup).2.2 n hw n howned rfl

/-- No foreign key of a table leads to the table itself. -/
theorem parent_ne (h : Regular c s) (ht : t ∈ s.tables) : ∀ k ∈ t.info.foreignKeys, k.parent ≠ t.info.name := by
  intro k' hk'
  obtain ⟨k, hk, rfl⟩ := List.mem_map.1 hk'
  show k.references ≠ t.name
  rcases h.described.sorts t ht with ⟨hbare, -⟩ | hconfig | ⟨slot, hslot, hj⟩
  · rw [hbare.foreignKeys] at hk
    cases hk
  · intro he
    exact h.described.not_isItem hconfig.mem (he ▸ (h.described.foreignKey_config hconfig hk).2)
  · exact h.described.references_ne hslot hj ht hk

/-- The deletion of the row that a reference holds. -/
theorem perform_releaseRow (h : Regular c s) (ht : t ∈ s.tables) (hn : t.name ∈ s.configs) (hk : k ∈ t.foreignKeys)
    (hp : p ∈ s.tables) (href : k.references = p.name) (ho : s.Owned new session.content)
    (hrow : session.content.rowsOf t.name = [row]) {ids : List Int}
    (hids : ids = (row.value (k.info t.info.columns).column).id?.toList) :
    session.perform (Plan.releaseRow t.name k.column p).statement [] =
        (.ok default, { session with content := session.content.removedAll s.infos p.name ids, changes := ids.length }) ∧
      s.Owned new (session.content.removedAll s.infos p.name ids) := by
  have hmem : t.info ∈ s.infos := mem_infos ht
  have hpm : p.info ∈ s.infos := mem_infos hp
  have hitem : c.IsItem p.name := href ▸ (h.described.foreignKey_config (h.described.isConfig ht hn) hk).2
  have hlink := h.link_mem ht hk (href ▸ hitem)
  have hheld : session.content.held (t.info, k.info t.info.columns) = ids :=
    (held_of_rowsOf (t.link k) rfl hrow).trans hids.symm
  have howned := h.owned_removedAll hp hitem ho ids fun n hn =>
    h.not_mem_waiting hp hitem ho hlink href (hheld ▸ hn)
  refine ⟨?_, howned⟩
  obtain ⟨hrmem, hfit, hkey⟩ := configRow_fits ht hn ho hrow
  obtain ⟨i, col, hi, hname, hplace⟩ := h.place ht hk
  have hcolumn : t.info.columnIndex? k.column = some (k.info t.info.columns).column := by
    rw [hplace]
    exact columnIndex?_info (h.distinct t ht) hi hname
  -- the subquery gives what the reference holds
  have hfirst : ∀ env : Env, env.content = session.content →
      eval env (.first (.named k.column) t.name (Plan.isConfigRow t.name)) =
        .ok (row.value (k.info t.info.columns).column) := by
    intro env henv
    have hfind : env.content.find? t.name = some ⟨t.info, [row]⟩ := by
      rw [henv, show t.name = t.info.name from rfl, ho.sound.find? h.layout hmem]
      exact congrArg (fun rows => some (Stored.mk t.info rows)) hrow
    refine (eval_first hfind hcolumn (columnIndex?_key (h.distinct t ht))
      (fun r hr => by rw [List.mem_singleton.1 hr, hkey]; exact .integer _) configRow).trans ?_
    rw [List.find?_cons_of_pos (by simp [hkey])]
    rfl
  have hvalue : IdOrNull (row.value (k.info t.info.columns).column) := hfit.links _ (List.mem_map_of_mem hk)
  have hselect : selectRows session.content [] ⟨p.info, session.content.rowsOf p.info.name⟩
      (some (.equals (.named p.key) (.first (.named k.column) t.name (Plan.isConfigRow t.name)))) =
      .ok ((session.content.rowsOf p.info.name).filter fun r => some r.id = (row.value (k.info t.info.columns).column).id?) := by
    refine selectRows_eq fun r hr => ?_
    have hrkey : r.value 0 = .integer r.id := (ho.sound.fits _ hpm r hr).key
    refine ⟨_, eval_equals_ids (eval_named (b := { label := p.info.name, info := p.info, row := r }) rfl
      (columnIndex?_key (h.distinct p hp))) (hfirst _ rfl) (hrkey ▸ .integer r.id) hvalue rfl, ?_⟩
    rw [truth?_ofTruth, hrkey, decide_eq_true_iff]
    rcases hvalue with hv | ⟨n, hv⟩ <;> rw [hv]
    · exact ⟨fun hf => (nomatch hf), fun hf => (nomatch hf)⟩
    · show some (decide (r.id = n)) = some true ↔ some r.id = some n
      rw [Option.some.injEq, Option.some.injEq, decide_eq_true_iff]
  refine perform_delete h.layout ho.sound hpm (h.parent_ne hp)
    (eval_equals_ids (eval_named (b := { label := p.info.name, info := p.info }) rfl (columnIndex?_key (h.distinct p hp)))
      (hfirst _ rfl) .null hvalue rfl) hselect ?_ fun deferred => howned.orphans_eq_zero h.ownership deferred
  rw [hids]
  rcases hvalue with hv | ⟨n, hv⟩ <;> rw [hv]
  · exact (List.map_eq_nil_iff.2 (List.filter_eq_nil_iff.2 fun r _ hf => by cases of_decide_eq_true hf)).symm
  · have hn : n ∈ session.content.idsOf (k.info t.info.columns).parent :=
      ho.mem_ids h.ownership hlink (mem_held.2 ⟨row, hrmem, hv⟩)
    rw [show (k.info t.info.columns).parent = p.info.name from href] at hn
    refine (filter_id (ho.sound.ordered _ hpm) hn).symm.trans (congrArg (List.map _) (List.filter_congr fun r _ => ?_))
    exact decide_eq_decide.2 (by rw [Value.id?, Option.some.injEq])

/-- Once the row that a reference holds is deleted, it holds none. -/
theorem row_released (h : Regular c s) (ht : t ∈ s.tables) (hn : t.name ∈ s.configs) (hk : k ∈ t.foreignKeys)
    (hp : p ∈ s.tables) (href : k.references = p.name) (ho : s.Owned new content)
    (hrow : content.rowsOf t.name = [row]) {ids : List Int}
    (hids : ids = (row.value (k.info t.info.columns).column).id?.toList)
    (howned : s.Owned new (content.removedAll s.infos p.name ids)) :
    ∃ row', (content.removedAll s.infos p.name ids).rowsOf t.name = [row'] ∧
      row'.value (k.info t.info.columns).column = .null := by
  have hitem : c.IsItem p.name := href ▸ (h.described.foreignKey_config (h.described.isConfig ht hn) hk).2
  obtain ⟨hleaf, hconfig⟩ := h.leaf hp hitem
  have hlink := h.link_mem ht hk (href ▸ hitem)
  obtain ⟨row', hrow', -⟩ := howned.row_of_config (mem_infos ht) hn
  have hrow' : (content.removedAll s.infos p.name ids).rowsOf t.name = [row'] := hrow'
  refine ⟨row', hrow', ?_⟩
  have hheld := held_removedAll h.ownership ho.sound (mem_infos hp) hconfig hleaf hlink href ids
  rw [held_of_rowsOf (t.info, k.info t.info.columns) rfl hrow, ← hids, List.filter_eq_nil_iff.2 fun n hn =>
    by simpa using hn] at hheld
  have hafter : (row'.value (k.info t.info.columns).column).id?.toList = [] :=
    (held_of_rowsOf (t.link k) rfl hrow').symm.trans hheld
  obtain ⟨-, hfit, -⟩ := configRow_fits ht hn howned hrow'
  have hvalue : IdOrNull (row'.value (k.info t.info.columns).column) := hfit.links _ (List.mem_map_of_mem hk)
  rcases hvalue with hv | ⟨n, hv⟩
  · exact hv
  · rw [hv] at hafter
    cases hafter

/-! ## Members of a list -/

/-- The columns of a junction hold the identifiers of an item and of its config. -/
theorem junction_columns (h : Regular c s) (hj : Table.junction p.name t.name ∈ s.tables) :
    ((itemKey p.name).info (Table.junction p.name t.name).info.columns).column = 1 ∧
      ((ForeignKey.mk (primaryKey t.name) t.name (some .cascade)).info (Table.junction p.name t.name).info.columns).column = 2 ∧
      (Table.junction p.name t.name).info.columnIndex? p.key = some 1 ∧
      (Table.junction p.name t.name).info.columnIndex? (primaryKey t.name) = some 2 := by
  have hdistinct := h.distinct _ hj
  exact ⟨column_info (i := 0) hdistinct rfl rfl, column_info (i := 1) hdistinct rfl rfl,
    columnIndex?_info (i := 0) hdistinct rfl rfl, columnIndex?_info (i := 1) hdistinct rfl rfl⟩

/-- The owning link of a list. -/
theorem link_junction (h : Regular c s) (hitem : c.IsItem p.name) (hj : Table.junction p.name t.name ∈ s.tables) :
    (Table.junction p.name t.name).link (itemKey p.name) ∈ s.owners :=
  h.link_mem hj (k := itemKey p.name) (List.mem_cons_self ..) hitem

theorem junction_notMem (h : Regular c s) (hj : Table.junction p.name t.name ∈ s.tables) :
    (Table.junction p.name t.name).name ∉ s.configs := by
  intro hn
  cases (h.described.foreignKey_config (h.described.isConfig hj hn) (List.mem_cons_self ..)).1

/-- What a row of a junction holds. -/
theorem junction_row (h : Regular c s) (hn : t.name ∈ s.configs) (hj : Table.junction p.name t.name ∈ s.tables)
    (ho : s.Owned new content) (hr : row ∈ content.rowsOf (junctionName p.name t.name)) :
    (∃ n, row.value 1 = .integer n) ∧ row.value 2 = .integer configRow := by
  have hmembers := ho.members _ (mem_infos hj) (h.junction_notMem hj)
  obtain ⟨hone, htwo, -⟩ := h.junction_columns hj
  obtain ⟨n, hitem, -⟩ := hmembers ((itemKey p.name).info (Table.junction p.name t.name).info.columns)
    (List.mem_cons_self ..) row hr
  obtain ⟨m, howner, hm⟩ := hmembers
    ((ForeignKey.mk (primaryKey t.name) t.name (some .cascade)).info (Table.junction p.name t.name).info.columns)
    (List.mem_cons_of_mem _ (List.mem_singleton_self _)) row hr
  rw [hone] at hitem
  rw [htwo] at howner
  exact ⟨⟨n, hitem⟩, by rw [howner, hm hn]; rfl⟩

/-- The deletion of the members of a list. -/
theorem perform_deleteMembers (h : Regular c s) (hn : t.name ∈ s.configs) (hp : p ∈ s.tables)
    (hitem : c.IsItem p.name) (hj : Table.junction p.name t.name ∈ s.tables) (ho : s.Owned none session.content)
    {ids : List Int} (hids : ids = (session.content.idsOf p.name).filter (· ∈ session.content.members p.name t.name)) :
    session.perform (Plan.deleteMembers t.name p).statement [] =
        (.ok default, { session with content := session.content.removedAll s.infos p.name ids, changes := ids.length }) ∧
      s.Owned none (session.content.removedAll s.infos p.name ids) := by
  have hpm : p.info ∈ s.infos := mem_infos hp
  have howned := h.owned_removedAll hp hitem ho ids fun _ _ => List.not_mem_nil
  refine ⟨?_, howned⟩
  obtain ⟨hone, -, hplace, hplace'⟩ := h.junction_columns hj
  have hrows : ∀ row ∈ session.content.rowsOf (junctionName p.name t.name),
      IdOrNull (row.value 1) ∧ IdOrNull (row.value 2) := by
    intro row hr
    obtain ⟨⟨n, hn'⟩, howner⟩ := h.junction_row hn hj ho hr
    exact ⟨hn' ▸ .integer n, howner ▸ .integer _⟩
  -- the subquery gives the members
  have hinSelect : ∀ (env : Env) (x : Value), env.content = session.content → eval env (.named p.key) = .ok x →
      ∃ v, eval env (.inSelect false (.named p.key) (.named p.key) (junctionName p.name t.name)
        (Plan.isConfigRow t.name)) = .ok v ∧
        ∀ m, x = .integer m → (v.truth? = some true ↔ m ∈ session.content.members p.name t.name) := by
    intro env x henv hx
    have hfind : env.content.find? (junctionName p.name t.name) =
        some ⟨(Table.junction p.name t.name).info, session.content.rowsOf (junctionName p.name t.name)⟩ := by
      rw [henv]
      exact ho.sound.find? h.layout (mem_infos hj)
    obtain ⟨v, hv, htruth⟩ := eval_inSelect hx hfind hplace hplace' hrows configRow
    refine ⟨v, hv, fun m hm => (htruth m hm).trans ?_⟩
    unfold Content.members
    rw [mem_held, show ((Table.junction p.name t.name).link (itemKey p.name)).2.column = 1 from hone]
    refine exists_congr fun row => and_congr_right fun hr => and_iff_right ?_
    exact (h.junction_row hn hj ho hr).2
  obtain ⟨v, hempty, -⟩ := hinSelect
    { content := session.content, params := [], scopes := [[{ label := p.info.name, info := p.info }]] } _ rfl
    (eval_named (b := { label := p.info.name, info := p.info }) rfl (columnIndex?_key (h.distinct p hp)))
  have hselect : selectRows session.content [] ⟨p.info, session.content.rowsOf p.info.name⟩
      (some (.inSelect false (.named p.key) (.named p.key) (junctionName p.name t.name) (Plan.isConfigRow t.name))) =
      .ok ((session.content.rowsOf p.info.name).filter fun r => r.id ∈ session.content.members p.name t.name) := by
    refine selectRows_eq fun r hr => ?_
    have hrkey : r.value 0 = .integer r.id := (ho.sound.fits _ hpm r hr).key
    obtain ⟨v, hv, htruth⟩ := hinSelect
      { content := session.content, params := [], scopes := [[{ label := p.info.name, info := p.info, row := r }]] } _ rfl
      (eval_named (b := { label := p.info.name, info := p.info, row := r }) rfl (columnIndex?_key (h.distinct p hp)))
    exact ⟨v, hv, (htruth r.id hrkey).trans decide_eq_true_iff.symm⟩
  refine perform_delete h.layout ho.sound hpm (h.parent_ne hp) hempty hselect ?_ fun deferred =>
    howned.orphans_eq_zero h.ownership deferred
  rw [hids]
  exact List.filter_map

/-- Once the members are deleted, so are their links. -/
theorem rowsOf_junction_removed (h : Regular c s) (hn : t.name ∈ s.configs) (hp : p ∈ s.tables)
    (hitem : c.IsItem p.name) (hj : Table.junction p.name t.name ∈ s.tables) (ho : s.Owned none content)
    {ids : List Int} (hids : ids = (content.idsOf p.name).filter (· ∈ content.members p.name t.name)) :
    (content.removedAll s.infos p.name ids).rowsOf (junctionName p.name t.name) = [] := by
  obtain ⟨hleaf, hconfig⟩ := h.leaf hp hitem
  have hlink := h.link_junction hitem hj
  have howned := h.owned_removedAll hp hitem ho ids fun _ _ => List.not_mem_nil
  have hcolumn : ((Table.junction p.name t.name).link (itemKey p.name)).2.column = 1 := (h.junction_columns hj).1
  have hmembers : (content.removedAll s.infos p.name ids).members p.name t.name = [] := by
    refine (held_removedAll h.ownership ho.sound (mem_infos hp) hconfig hleaf hlink rfl ids).trans ?_
    refine List.filter_eq_nil_iff.2 fun n hn hkept => of_decide_eq_true hkept ?_
    rw [hids]
    exact List.mem_filter.2 ⟨ho.mem_ids h.ownership hlink hn, decide_eq_true hn⟩
  refine List.eq_nil_iff_forall_not_mem.2 fun row hr => ?_
  obtain ⟨⟨n, hvalue⟩, -⟩ := h.junction_row hn hj howned hr
  have hmember : n ∈ (content.removedAll s.infos p.name ids).members p.name t.name :=
    mem_held.2 ⟨row, hr, hcolumn ▸ hvalue⟩
  rw [hmembers] at hmember
  exact List.not_mem_nil hmember

/-- Where there are no links, none are deleted. -/
theorem perform_deleteLinks (h : Regular c s) (hj : Table.junction p.name t.name ∈ s.tables) (ho : s.Owned none session.content)
    (hempty : session.content.rowsOf (junctionName p.name t.name) = []) :
    session.perform (Plan.deleteLinks t.name p).statement [] = (.ok default, { session with changes := 0 }) := by
  have hempty' : session.content.rowsOf (Table.junction p.name t.name).info.name = [] := hempty
  obtain ⟨-, -, -, hplace⟩ := h.junction_columns hj
  obtain ⟨hnull, hselect⟩ := selectRows_equals (c := session.content) hplace []
    (fun row (hr : row ∈ ([] : List Row)) => (nomatch hr)) configRow
  exact perform_delete h.layout ho.sound (mem_infos hj) (h.parent_ne hj) hnull
    (by rw [hempty']; exact hselect) (show [] = _ by rw [hempty']; rfl) fun deferred => ho.orphans_eq_zero h.ownership deferred

end Regular

end Schema

end GuardedConfig
