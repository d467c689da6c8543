import GuardedConfig.Proofs.Loading
import Mathlib.Data.List.Count

/-!
# `Proofs.Owners` — every row of a table for items has exactly one owner

Structs, instantiations and the wrappers of built-in types have tables for items, which fields of several configs
may share. A reference owns the row that its column refers to, and a list owns the rows that its junction links.
Whatever is bound, executed and set, and whatever fails, no row is shared, left over or missing.

## Contents

* `Content.column`, `Slot.owns`, `CompiledSchema.itemTables`
* `RowsOwned`
* `Regular.rowsOwned`
* `rowsOwned_of_reachable`
-/

namespace GuardedConfig

open Schema Sql

/-! ## Owners -/

/-- The values of a column of a table, row by row. -/
def Sql.Content.column (content : Content) (table column : String) : List Value :=
  match content.find? table with
  | some t =>
    match t.info.columnIndex? column with
    | some i => t.rows.map (·.value i)
    | none => []
  | none => []

/-- The rows that a slot owns, each as its table and its identifier: the row that the column of a reference refers
to, or the row that each row of the junction of a list links. -/
def Schema.Slot.owns (content : Content) (slot : Slot) : List (String × Int) :=
  match slot.storage with
  | .scalar .. => []
  | .reference table column target => (content.column table column).filterMap fun v => v.id?.map (target.name, ·)
  | .list table item _ =>
    (content.column (junctionName item.name table) item.key).filterMap fun v => v.id?.map (item.name, ·)

namespace Schema

/-- The tables of structs, instantiations and built-in types: those that are neither of a config nor a junction. -/
def CompiledSchema.itemTables (s : CompiledSchema) : List Table :=
  s.tables.filter fun t => t.name ∉ s.configs ∧ ∀ slot ∈ s.slots, slot.junction? ≠ some t

/-- A content where every row for items has exactly one owner, every reference and every link leads to a row, and
every config has its one row. -/
structure RowsOwned (s : CompiledSchema) (content : Content) : Prop where
  tables : content.infos = s.infos
  once : ∀ t ∈ s.itemTables, ∀ row ∈ content.rowsOf t.name, (s.slots.flatMap (·.owns content)).count (t.name, row.id) = 1
  references : ∀ t ∈ s.tables, ∀ k ∈ t.foreignKeys, ∀ v ∈ content.column t.name k.column,
    v = .null ∨ ∃ id ∈ content.idsOf k.references, v = .integer id
  links : ∀ slot ∈ s.slots, ∀ t ∈ slot.junction?, ∀ k ∈ t.foreignKeys, .null ∉ content.column t.name k.column
  single : ∀ config ∈ s.configs, content.idsOf config = [1]

variable {c : Catalog} {s : CompiledSchema} {t p : Table} {k : ForeignKey} {slot : Slot} {content : Content}

/-! ## Counting -/

/-- What links own is counted like what they hold. -/
theorem count_owned (links : List Link) (content : Content) (name : String) (id : Int) :
    (links.flatMap fun link => (content.held link).map (link.2.parent, ·)).count (name, id) =
      (content.owned links name).count id := by
  unfold Content.owned
  induction links with
  | nil => rfl
  | cons link links ih =>
    rw [List.flatMap_cons, List.count_append, ih]
    by_cases hparent : link.2.parent = name
    · rw [List.filter_cons_of_pos (by simpa using hparent), List.flatMap_cons, List.count_append, hparent,
        List.count_map_of_injective _ _ fun m n hmn => (Prod.ext_iff.1 hmn).2]
    · rw [List.filter_cons_of_neg (by simpa using hparent), List.count_eq_zero_of_not_mem, Nat.zero_add]
      intro hmem
      obtain ⟨n, -, hn⟩ := List.mem_map.1 hmem
      exact hparent (Prod.ext_iff.1 hn).1

namespace Regular

/-- The values of a column by its place. -/
theorem column_of_place (h : Regular c s) (ht : t ∈ s.tables) (hc : content.Sound s.infos) {i : Nat} {col : Column}
    (hi : t.columns[i]? = some col) :
    content.column t.name col.name = (content.rowsOf t.name).map (·.value (i + 1)) := by
  have hindex : t.info.columnIndex? col.name = some (i + 1) := columnIndex?_info (h.distinct t ht) hi rfl
  have hfind : content.find? t.name = some ⟨t.info, content.rowsOf t.name⟩ := hc.find? h.layout (mem_infos ht)
  unfold Content.column
  rw [hfind]
  dsimp only
  rw [hindex]

/-- The values of the column of a foreign key. -/
theorem column_eq (h : Regular c s) (ht : t ∈ s.tables) (hk : k ∈ t.foreignKeys) (hc : content.Sound s.infos) :
    content.column t.name k.column = (content.rowsOf t.name).map (·.value (k.info t.info.columns).column) := by
  obtain ⟨i, col, hi, hname, hplace⟩ := h.place ht hk
  rw [← hname, h.column_of_place ht hc hi, hplace]

/-- What a foreign key holds is what is read from its column. -/
theorem held_eq (h : Regular c s) (ht : t ∈ s.tables) (hk : k ∈ t.foreignKeys) (hc : content.Sound s.infos) :
    (content.column t.name k.column).filterMap (fun v => v.id?.map (k.references, ·)) =
      (content.held (t.link k)).map (k.references, ·) := by
  rw [h.column_eq ht hk hc, List.filterMap_map]
  unfold Content.held
  rw [List.map_filterMap]
  rfl

/-- A slot owns what its link holds. -/
theorem owns_eq (h : Regular c s) (hslot : slot ∈ s.slots) (hc : content.Sound s.infos) :
    slot.owns content = (slot.link? s.tables).toList.flatMap fun link => (content.held link).map (link.2.parent, ·) := by
  unfold Slot.owns Slot.link?
  cases hs : slot.storage with
  | scalar table column => rfl
  | reference table column target =>
    obtain ⟨t, ht, rfl, -, -, -, hk⟩ := h.reference hslot hs
    dsimp only
    rw [Described.find?_name h.plain ht, Option.map_some, Option.toList_some, List.flatMap_singleton]
    exact h.held_eq ht hk hc
  | list table item scalarItems =>
    obtain ⟨t, ht, rfl, -, -, -, hj⟩ := h.list hslot hs
    rw [Option.toList_some, List.flatMap_singleton]
    exact h.held_eq hj (k := itemKey item.name) (List.mem_cons_self ..) hc

/-- A table for items refers to no other. -/
theorem leaf_of_mem_itemTables (h : Regular c s) (ht : t ∈ s.itemTables) :
    t ∈ s.tables ∧ t.name ∉ s.configs ∧ t.info.foreignKeys = [] := by
  obtain ⟨ht, hsort⟩ := List.mem_filter.1 ht
  obtain ⟨hn, hj⟩ := of_decide_eq_true hsort
  refine ⟨ht, hn, ?_⟩
  rcases h.described.sorts t ht with ⟨hbare, -⟩ | hconfig | ⟨slot, hslot, hjunction⟩
  · rw [Table.info_foreignKeys, hbare.foreignKeys]
    rfl
  · exact absurd hconfig.mem hn
  · exact absurd hjunction (hj slot hslot)

/-- Content where every row has its owner, as it is seen from the slots. -/
theorem rowsOwned (h : Regular c s) (ho : s.Owned none content) : RowsOwned s content where
  tables := ho.sound.infos
  once t ht row hr := by
    obtain ⟨ht, hn, hleaf⟩ := h.leaf_of_mem_itemTables ht
    have hslots : s.slots.flatMap (·.owns content) =
        s.owners.flatMap fun link => (content.held link).map (link.2.parent, ·) := by
      unfold CompiledSchema.owners
      rw [List.filterMap_eq_flatMap_toList, List.flatMap_assoc]
      exact List.flatMap_congr fun slot hslot => h.owns_eq hslot ho.sound
    have hperm : (content.owned s.owners t.name).Perm (content.idsOf t.name) :=
      ho.conserved t.info (mem_infos ht) hn hleaf
    have hnodup : (content.idsOf t.name).Nodup := (ho.sound.ordered t.info (mem_infos ht)).nodup_ids
    have hmem : row.id ∈ content.idsOf t.name := List.mem_map_of_mem hr
    rw [hslots, count_owned, hperm.count_eq, hnodup.count, if_pos hmem]
  references t ht k hk v hv := by
    rw [h.column_eq ht hk ho.sound] at hv
    obtain ⟨row, hr, rfl⟩ := List.mem_map.1 hv
    have hkey : k.info t.info.columns ∈ t.info.foreignKeys := List.mem_map_of_mem hk
    have hvalue : IdOrNull (row.value (k.info t.info.columns).column) :=
      (ho.sound.fits t.info (mem_infos ht) row hr).links _ hkey
    rcases hvalue with hnull | ⟨id, hid⟩
    · exact .inl hnull
    · exact .inr ⟨id, ho.linked h.ownership t.info (mem_infos ht) _ hkey row hr id hid, hid⟩
  links slot hslot t ht k hk hnull := by
    have htable : t ∈ s.tables := (h.described.slots slot hslot).2.2 t ht
    have hn : t.name ∉ s.configs := by
      intro hn
      exact (h.described.name_ne_junction hslot ht).1 hn
    rw [h.column_eq htable hk ho.sound] at hnull
    obtain ⟨row, hr, hv⟩ := List.mem_map.1 hnull
    obtain ⟨id, hid, -⟩ := ho.members t.info (mem_infos htable) hn _ (List.mem_map_of_mem hk) row hr
    rw [show row.value (k.info t.info.columns).column = _ from hid] at hv
    cases hv
  single config hconfig := by
    obtain ⟨t, ht, rfl⟩ := h.described.exists_table hconfig
    exact ho.single t.info (mem_infos ht) hconfig

end Regular

end Schema

/-! ## Reachable registries -/

/-- **Rows have one owner.** Whatever is requested of a registry that has been loaded from plain declarations on an
empty store, every row for items has exactly one owner, every reference and every link leads to a row, and every
config has its one row. -/
theorem rowsOwned_of_reachable {a : Artifact} {store : Store} (hstore : store.IsEmpty) {s : CompiledSchema}
    (hok : Schema.compile a.declarations = .ok s) (hp : s.Plain) {r : Registry} (h : Registry.Reachable a store r) :
    Schema.RowsOwned s r.store.content := by
  obtain ⟨c, triggers, hregular, -, hidle⟩ := h.idle hstore hok hp
  exact hregular.rowsOwned hidle.content

/-- On a server where an owner has been set, every row has one owner. -/
theorem rowsOwned_server : ∃ r, Registry.Reachable serverArtifact (.ofContent {}) r ∧
    Schema.RowsOwned serverSchema
      (outcome (Request.set "Server.owner" (.obj [("name", .str "Ada")])).run r).2.store.content := by
  obtain ⟨r, after, hload⟩ := load_server
  have hr := Registry.Reachable.load hload
  exact ⟨r, hr, rowsOwned_of_reachable isEmpty_new compile_server plain_server (hr.request _)⟩

end GuardedConfig
