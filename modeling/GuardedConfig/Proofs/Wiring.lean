import GuardedConfig.Proofs.Compilation
import GuardedConfig.Proofs.Ownership

/-!
# `Proofs.Wiring` — the links of plain schemas

In a plain schema the columns of structs and configs are bare type words, without further constraints, and no two
tables have the same name. Then the tables of a schema are a layout, as are those that are created first; and the
links of references and lists own the rows of the tables for items.

## Contents

* `CompiledSchema.Plain`
* `InOrder.grounded`, `InOrder.row` — what is made for the statements
* `Described.wired` — the tables of a schema are wired
* `Slot.link?`, `CompiledSchema.owners`, `Described.ownership`
-/

namespace GuardedConfig.Schema

open Sql (Link Ownership sameName sameName_self sameName_comm)

/-- Declarations are plain if every column of a struct or a config is a bare type word, no table has constraints, no
two tables have the same name, and no config is named like a built-in type. -/
structure CompiledSchema.Plain (s : CompiledSchema) : Prop where
  words : ∀ t ∈ s.tables, (∃ item owner, t = .junction item owner) ∨ ∀ c ∈ t.columns, isTypeWord c.type = true
  constraints : ∀ t ∈ s.tables, t.constraints = []
  apart : s.tables.Pairwise fun t u => sameName t.name u.name = false
  configs : ∀ name ∈ s.configs, Builtin.ofName? name = none

variable {c : Catalog} {s : CompiledSchema} {t u p : Table} {made : List Table} {k : ForeignKey} {slot : Slot}

/-- Of tables whose names are apart, only a table itself goes by its name. -/
theorem eq_of_sameName {tables : List Table} (hapart : tables.Pairwise fun t u => sameName t.name u.name = false)
    (ht : t ∈ tables) (hu : u ∈ tables) (hn : sameName t.name u.name = true) : t = u := by
  by_contra hne
  have : Std.Symm fun t u : Table => sameName t.name u.name = false := ⟨fun t u h => by rw [sameName_comm, h]⟩
  rw [hapart.forall ht hu hne] at hn
  cases hn

namespace CompiledSchema.Plain

theorem simple (hp : s.Plain) (ht : t ∈ s.tables) : t.IsSimple where
  constraints := hp.constraints t ht
  columns := by
    rcases hp.words t ht with ⟨item, owner, rfl⟩ | hwords
    · intro column hc
      rcases List.mem_pair.1 hc with rfl | rfl <;> exact .inr rfl
    · exact fun column hc => .inl (hwords column hc)

theorem eq_of_name (hp : s.Plain) (ht : t ∈ s.tables) (hu : u ∈ s.tables) (hn : t.name = u.name) : t = u :=
  eq_of_sameName hp.apart ht hu (by rw [hn, sameName_self])

end CompiledSchema.Plain

/-! ## Tables in order -/

/-- Each table is grounded in what is made in the end. -/
theorem InOrder.grounded {ss : List SchemaStatement} (h : InOrder made ss) (ht : t ∈ tablesOf ss) :
    t.Grounded (made ++ tablesOf ss) := by
  induction ss generalizing made with
  | nil => cases ht
  | cons statement ss ih =>
    cases statement with
    | create u =>
      obtain ⟨hu, h⟩ := h
      show t.Grounded (made ++ u :: tablesOf ss)
      rcases List.mem_cons.1 ht with rfl | ht
      · exact hu.mono (List.subset_append_left _ _)
      · rw [List.append_cons]
        exact ih h ht
    | configRow config => exact ih h.2 ht

/-- The table of each row is made. -/
theorem InOrder.row {ss : List SchemaStatement} (h : InOrder made ss) {config : String}
    (hrow : config ∈ ss.filterMap SchemaStatement.row?) : ∃ t ∈ made ++ tablesOf ss, t.name = config := by
  induction ss generalizing made with
  | nil => cases hrow
  | cons statement ss ih =>
    cases statement with
    | create u =>
      show ∃ t ∈ made ++ u :: tablesOf ss, _
      rw [List.append_cons]
      exact ih h.2 hrow
    | configRow name =>
      rcases List.mem_cons.1 hrow with rfl | hrow
      · obtain ⟨t, ht, hname⟩ := h.1
        exact ⟨t, List.mem_append_left _ ht, hname⟩
      · exact ih h.2 hrow

namespace Described

theorem grounded (h : Described c s) (ht : t ∈ s.tables) : t.Grounded s.tables := h.inOrder.grounded ht

theorem exists_table (h : Described c s) {name : String} (hn : name ∈ s.configs) : ∃ t ∈ s.tables, t.name = name :=
  h.inOrder.row (h.rows ▸ hn)

theorem not_isItem (h : Described c s) {name : String} (hn : name ∈ s.configs) : ¬ c.IsItem name := by
  rintro ⟨kind, hk, hitem⟩
  rw [h.configs name hn] at hk
  cases hk
  rcases hitem with hitem | ⟨-, hword⟩
  · cases hitem
  · rw [h.words name hn] at hword
    cases hword

/-- A junction is not named like a config or a table for items. -/
theorem name_ne_junction (h : Described c s) (hslot : slot ∈ s.slots) {j : Table} (hj : j ∈ slot.junction?) :
    j.name ∉ s.configs ∧ ¬ c.IsItem j.name := by
  have hresolved := (h.slots slot hslot).2.1.junction hj
  constructor
  · intro hn
    rw [h.configs _ hn] at hresolved
    cases hresolved
  · rintro ⟨kind, hk, hitem⟩
    rw [hresolved] at hk
    cases hk
    rcases hitem with hitem | ⟨hkind, -⟩
    · cases hitem
    · cases hkind

/-- A table that is named like a config is the table of the config. -/
theorem isConfig (h : Described c s) (ht : t ∈ s.tables) (hn : t.name ∈ s.configs) : s.IsConfig t := by
  rcases h.sorts t ht with ⟨-, hitem⟩ | hconfig | ⟨slot, hslot, hj⟩
  · exact absurd hitem (h.not_isItem hn)
  · exact hconfig
  · exact absurd hn (h.name_ne_junction hslot hj).1

/-- A table for items is bare. -/
theorem isBare (h : Described c s) (ht : t ∈ s.tables) (hitem : c.IsItem t.name) : t.IsBare ∧ t.name ∉ s.configs := by
  have hconfigs : t.name ∉ s.configs := fun hn => h.not_isItem hn hitem
  rcases h.sorts t ht with ⟨hbare, -⟩ | hconfig | ⟨slot, hslot, hj⟩
  · exact ⟨hbare, hconfigs⟩
  · exact absurd hconfig.mem hconfigs
  · exact absurd hitem (h.name_ne_junction hslot hj).2

/-- The foreign keys of a config lead to tables for items. -/
theorem foreignKey_config (h : Described c s) (ht : s.IsConfig t) (hk : k ∈ t.foreignKeys) :
    k.onDelete = some .setNull ∧ c.IsItem k.references := by
  rw [ht.foreignKeys, List.mem_filterMap] at hk
  obtain ⟨slot, hslot, hk⟩ := hk
  obtain ⟨-, hrule, hitem, -⟩ := (h.slots slot (List.mem_filter.1 hslot).1).2.1.foreignKey hk
  exact ⟨hrule, hitem⟩

/-- The foreign keys of a junction lead to a table for items and to its config. -/
theorem foreignKeys_junction (h : Described c s) (hslot : slot ∈ s.slots) (hj : t ∈ slot.junction?) :
    ∃ item ∈ s.tables, c.IsItem item.name ∧ t = .junction item.name slot.config := by
  have hplaced := (h.slots slot hslot).2.1
  unfold Slot.Placed at hplaced
  unfold Slot.junction? at hj
  cases hs : slot.storage with
  | list table item scalarItems =>
    rw [hs] at hplaced hj
    cases hj
    exact ⟨item, hplaced.2.1, hplaced.2.2.1, by rw [hplaced.1]⟩
  | _ =>
    rw [hs] at hj
    cases hj

/-- No foreign key leads to a junction. -/
theorem references_ne (h : Described c s) (hslot : slot ∈ s.slots) (hj : t ∈ slot.junction?) (hu : u ∈ s.tables)
    (hk : k ∈ u.foreignKeys) : k.references ≠ t.name := by
  obtain ⟨hconfigs, hitem⟩ := h.name_ne_junction hslot hj
  intro hn
  rcases h.sorts u hu with ⟨hbare, -⟩ | hconfig | ⟨other, hother, hj'⟩
  · rw [hbare.foreignKeys] at hk
    cases hk
  · exact hitem (hn ▸ (h.foreignKey_config hconfig hk).2)
  · obtain ⟨item, -, hitem', rfl⟩ := h.foreignKeys_junction hother hj'
    rcases List.mem_pair.1 hk with rfl | rfl
    · exact hitem (hn ▸ hitem')
    · exact hconfigs (hn ▸ (h.slots other hother).1)

/-- Tables are wired as soon as the names of their columns are different, also those that are created first. -/
theorem wired (h : Described c s) (hp : s.Plain) {ss : List SchemaStatement} (hstart : ss <+: s.statements)
    (hdistinct : ∀ t ∈ tablesOf ss, t.HasDistinctColumns) : Wired (tablesOf ss) := by
  obtain ⟨more, hmore⟩ := hstart
  have htables : s.tables = tablesOf ss ++ tablesOf more := by
    unfold CompiledSchema.tables
    rw [← hmore, tablesOf_append]
  have hsub : ∀ t ∈ tablesOf ss, t ∈ s.tables := fun t ht => htables ▸ List.mem_append_left _ ht
  have hground : ∀ t ∈ tablesOf ss, t.Grounded (tablesOf ss) := by
    have horder := h.inOrder
    rw [← hmore, inOrder_append] at horder
    exact fun t ht => horder.1.grounded ht
  refine ⟨hdistinct, ?apart, fun t ht k hk => (hground t ht).leads k hk, ?columns, ?leaves⟩
  case apart =>
    have hapart := hp.apart
    rw [htables] at hapart
    exact (List.pairwise_append.1 hapart).1
  case columns =>
    intro t ht
    have hcolumns : t.columnNames.Pairwise fun a b => sameName a b = false :=
      List.Pairwise.map _ (fun a b hab => by simpa using hab) (List.pairwise_map.1 (List.pairwise_cons.1 (hdistinct t ht)).2)
    refine List.pairwise_map.1 ((hcolumns.sublist (hground t ht).keys).imp fun {a b} hab heq => ?_)
    rw [heq, sameName_self] at hab
    cases hab
  case leaves =>
    intro t ht k hk hrule u hu j hj
    rcases h.sorts t (hsub t ht) with ⟨hbare, -⟩ | hconfig | ⟨slot, hslot, hjunction⟩
    · rw [hbare.foreignKeys] at hk
      cases hk
    · rw [(h.foreignKey_config hconfig hk).1] at hrule
      cases hrule
    · exact h.references_ne hslot hjunction (hsub u hu) hj

end Described

/-! ## Owners -/

/-- A foreign key of a table, as the store has them. -/
def Table.link (t : Table) (k : ForeignKey) : Link := (t.info, k.info t.info.columns)

theorem Table.info_foreignKeys (t : Table) : t.info.foreignKeys = t.foreignKeys.map (·.info t.info.columns) := rfl

/-- The foreign key of a junction that leads to the items. -/
def itemKey (item : String) : ForeignKey := ⟨primaryKey item, item, some .cascade⟩

/-- The link by which a slot owns rows: the foreign key of a reference, or that of the junction of a list. -/
def Slot.link? (tables : List Table) (slot : Slot) : Option Link :=
  match slot.storage with
  | .scalar .. => none
  | .reference table column target =>
    (tables.find? (·.name = table)).map fun t => t.link ⟨column, target.name, some .setNull⟩
  | .list table item _ => some ((Table.junction item.name table).link (itemKey item.name))

theorem Slot.link?_list {table : String} {item : Table} {scalarItems : Bool}
    (hs : slot.storage = .list table item scalarItems) (tables : List Table) :
    slot.link? tables = some ((Table.junction item.name table).link (itemKey item.name)) := by
  unfold Slot.link?
  rw [hs]

/-- The links by which the slots of a schema own rows. -/
def CompiledSchema.owners (s : CompiledSchema) : List Link := s.slots.filterMap (·.link? s.tables)

namespace Described

theorem find?_name (hp : s.Plain) (ht : t ∈ s.tables) : s.tables.find? (·.name = t.name) = some t := by
  obtain ⟨u, hu⟩ := Option.isSome_iff_exists.1 (List.find?_isSome (p := (·.name = t.name)).2 ⟨t, ht, decide_eq_true rfl⟩)
  have hname : u.name = t.name := by simpa using List.find?_some hu
  rw [hu, hp.eq_of_name (List.mem_of_find?_eq_some hu) ht hname]

theorem link?_reference (hp : s.Plain) (ht : t ∈ s.tables) {column : String} {target : Table}
    (hs : slot.storage = .reference t.name column target) :
    slot.link? s.tables = some (t.link ⟨column, target.name, some .setNull⟩) := by
  unfold Slot.link?
  rw [hs]
  dsimp only
  rw [find?_name hp ht]
  rfl

/-- The link of a slot is a foreign key of a table, which leads to a table for items: that of a reference is one of
its config, and that of a list is one of its junction. -/
theorem link_cases (h : Described c s) (hp : s.Plain) (hslot : slot ∈ s.slots) {link : Link}
    (hlink : link ∈ slot.link? s.tables) :
    (∃ t ∈ s.tables, t.name = slot.config ∧ ∃ k ∈ slot.foreignKey?, k ∈ t.foreignKeys ∧ link = t.link k) ∨
      ∃ t ∈ slot.junction?, ∃ k ∈ t.foreignKeys, link = t.link k ∧ c.IsItem k.references := by
  obtain ⟨hconfig, hplaced, hjunctions⟩ := h.slots slot hslot
  unfold Slot.link? at hlink
  cases hs : slot.storage with
  | scalar table column =>
    rw [hs] at hlink
    cases hlink
  | reference table column target =>
    have hkey : slot.foreignKey? = some ⟨column, target.name, some .setNull⟩ := by
      unfold Slot.foreignKey?
      rw [hs]
    obtain ⟨t, ht, hname⟩ := h.exists_table hconfig
    have htable : table = t.name := by
      unfold Slot.Placed at hplaced
      rw [hs] at hplaced
      exact hplaced.1.trans hname.symm
    rw [hs] at hlink
    dsimp only at hlink
    rw [htable, find?_name hp ht] at hlink
    cases hlink
    refine .inl ⟨t, ht, hname, _, hkey, ?_, rfl⟩
    rw [(h.isConfig ht (hname ▸ hconfig)).foreignKeys, List.mem_filterMap]
    exact ⟨slot, List.mem_filter.2 ⟨hslot, decide_eq_true hname.symm⟩, hkey⟩
  | list table item scalarItems =>
    rw [hs] at hlink
    cases hlink
    have hjunction : slot.junction? = some (.junction item.name table) := by
      unfold Slot.junction?
      rw [hs]
    unfold Slot.Placed at hplaced
    rw [hs] at hplaced
    exact .inr ⟨_, hjunction, itemKey item.name, List.mem_cons_self .., rfl, hplaced.2.2.1⟩

/-- The owning links are the foreign keys that lead to tables for items. -/
theorem mem_owners (h : Described c s) (hp : s.Plain) {link : Link} :
    link ∈ s.owners ↔ ∃ t ∈ s.tables, ∃ k ∈ t.foreignKeys, link = t.link k ∧ c.IsItem k.references := by
  unfold CompiledSchema.owners
  rw [List.mem_filterMap]
  constructor
  · rintro ⟨slot, hslot, hlink⟩
    rcases h.link_cases hp hslot hlink with ⟨t, ht, hname, k, hk, hmem, rfl⟩ | ⟨t, ht, k, hk, rfl, hitem⟩
    · exact ⟨t, ht, k, hmem, rfl, ((h.slots slot hslot).2.1.foreignKey hk).2.2.1⟩
    · exact ⟨t, (h.slots slot hslot).2.2 t ht, k, hk, rfl, hitem⟩
  · rintro ⟨t, ht, k, hk, rfl, hitem⟩
    rcases h.sorts t ht with ⟨hbare, -⟩ | hconfig | ⟨slot, hslot, hj⟩
    · rw [hbare.foreignKeys] at hk
      cases hk
    · rw [hconfig.foreignKeys, List.mem_filterMap] at hk
      obtain ⟨slot, hslot, hk⟩ := hk
      obtain ⟨hslot, hname⟩ := List.mem_filter.1 hslot
      refine ⟨slot, hslot, ?_⟩
      have hplaced := (h.slots slot hslot).2.1
      unfold Slot.foreignKey? at hk
      unfold Slot.Placed at hplaced
      unfold Slot.link?
      cases hs : slot.storage with
      | reference table column target =>
        rw [hs] at hk hplaced
        cases hk
        dsimp only
        rw [hplaced.1, of_decide_eq_true hname, find?_name hp ht]
        rfl
      | _ =>
        rw [hs] at hk
        cases hk
    · refine ⟨slot, hslot, ?_⟩
      have hconfig := (h.slots slot hslot).1
      have hplaced := (h.slots slot hslot).2.1
      unfold Slot.junction? at hj
      unfold Slot.Placed at hplaced
      unfold Slot.link?
      cases hs : slot.storage with
      | list table item scalarItems =>
        rw [hs] at hj hplaced
        cases hj
        rcases List.mem_pair.1 hk with rfl | rfl
        · rfl
        · exact absurd hitem (h.not_isItem (hplaced.1 ▸ hconfig))
      | _ =>
        rw [hs] at hj
        cases hj

/-- Two slots are apart. -/
theorem apart_of_ne (h : Described c s) {other : Slot} (hslot : slot ∈ s.slots) (hother : other ∈ s.slots)
    (hne : slot ≠ other) : slot.Apart other := by
  have : Std.Symm Slot.Apart := ⟨fun _ _ hab => hab.symm⟩
  exact h.apart.forall hslot hother hne

/-- Two slots have different links. -/
theorem link_ne (h : Described c s) (hp : s.Plain) (hdistinct : ∀ t ∈ s.tables, t.HasDistinctColumns) {a b : Slot}
    (ha : a ∈ s.slots) (hb : b ∈ s.slots) (hapart : a.Apart b) {x y : Link} (hx : x ∈ a.link? s.tables)
    (hy : y ∈ b.link? s.tables) : x ≠ y := by
  rintro rfl
  rcases h.link_cases hp ha hx with ⟨t, ht, hname, j, hj, hmem, rfl⟩ | ⟨t, ht, j, hj, rfl, -⟩ <;>
    rcases h.link_cases hp hb hy with ⟨u, hu, hname', k, hk, hmem', heq⟩ | ⟨u, hu, k, hk, heq, -⟩ <;>
      have htables : t.name = u.name := congrArg (fun link : Link => link.1.name) heq
  · -- two references of one config have different columns
    refine hapart.fields (by rw [← hname, ← hname', htables]) ?_
    obtain rfl := hp.eq_of_name ht hu htables
    rw [← ((h.slots a ha).2.1.foreignKey hj).1, ← ((h.slots b hb).2.1.foreignKey hk).1]
    exact ((h.grounded ht).leads j hmem).1.column_inj ((h.grounded ht).leads k hmem').1 (hdistinct t ht)
      (congrArg (fun link : Link => link.2.column) heq)
  · exact (h.name_ne_junction hb hu).1 (htables ▸ hname ▸ (h.slots a ha).1)
  · exact (h.name_ne_junction ha ht).1 (htables ▸ hname' ▸ (h.slots b hb).1)
  · exact hapart.junctions t ht u hu htables

/-- No two slots have the same link. -/
theorem nodup_owners (h : Described c s) (hp : s.Plain) (hdistinct : ∀ t ∈ s.tables, t.HasDistinctColumns) :
    s.owners.Nodup := by
  have hpairs : s.slots.Pairwise fun a b => a ∈ s.slots ∧ b ∈ s.slots ∧ a.Apart b :=
    h.apart.imp_of_mem fun ha hb hab => ⟨ha, hb, hab⟩
  exact List.Pairwise.filterMap _ (fun a b hab x hx y hy => h.link_ne hp hdistinct hab.1 hab.2.1 hab.2.2 hx hy) hpairs

/-- **The links of references and lists own the rows of the tables for items.** -/
theorem ownership (h : Described c s) (hp : s.Plain) (hdistinct : ∀ t ∈ s.tables, t.HasDistinctColumns) :
    Ownership (s.tables.map Table.info) s.owners s.configs where
  layout := (h.wired hp (List.prefix_refl _) hdistinct).layout
  nodup := h.nodup_owners hp hdistinct
  mem link hl := by
    obtain ⟨t, ht, k, hk, rfl, -⟩ := (h.mem_owners hp).1 hl
    exact ⟨List.mem_map_of_mem ht, List.mem_map_of_mem hk⟩
  parent link hl p hpL hparent := by
    obtain ⟨t, ht, k, hk, rfl, hitem⟩ := (h.mem_owners hp).1 hl
    obtain ⟨u, hu, rfl⟩ := List.mem_map.1 hpL
    have hname : k.references = u.name := hparent
    obtain ⟨hbare, hconfigs⟩ := h.isBare hu (hname ▸ hitem)
    exact ⟨hconfigs, by rw [Table.info_foreignKeys, hbare.foreignKeys]; rfl⟩
  config t' ht' hn k' hk' := by
    obtain ⟨t, ht, rfl⟩ := List.mem_map.1 ht'
    obtain ⟨k, hk, rfl⟩ := List.mem_map.1 hk'
    obtain ⟨hrule, hitem⟩ := h.foreignKey_config (h.isConfig ht hn) hk
    refine ⟨(h.mem_owners hp).2 ⟨t, ht, k, hk, rfl, hitem⟩, ?_⟩
    unfold ForeignKey.info
    rw [hrule]
    rfl
  junction t' ht' hn := by
    obtain ⟨t, ht, rfl⟩ := List.mem_map.1 ht'
    rcases h.sorts t ht with ⟨hbare, -⟩ | hconfig | ⟨slot, hslot, hj⟩
    · exact .inl (by rw [Table.info_foreignKeys, hbare.foreignKeys]; rfl)
    · exact absurd hconfig.mem hn
    · obtain ⟨item, -, hitem, rfl⟩ := h.foreignKeys_junction hslot hj
      exact .inr ⟨_, _, rfl, (h.mem_owners hp).2 ⟨_, ht, itemKey item.name, List.mem_cons_self .., rfl, hitem⟩,
        (h.slots slot hslot).1, rfl, rfl⟩

end Described

end GuardedConfig.Schema
