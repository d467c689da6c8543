import GuardedConfig.Proofs.Frame

/-!
# `Proofs.Effects` — what the parts of a write do

A part of a write of a slot leaves what is read from the other slots, and new rows get identifiers that have not been
used before. What it makes of the slot itself is said by the rows of the value: each column has what its type makes
of the value that is given for it.

## Contents

* `CompiledSchema.Counted` — identifiers that have been used
* `Table.written`, `CompiledSchema.written` — the rows of a value
* `Leaves` — what any part of a write leaves as it was
* `leaves_addItem`, `leaves_removedAll`, `leaves_assigned`, `leaves_addLink`
* `rows_assigned`, `rows_append` — the slot itself
-/

namespace GuardedConfig.Schema

open Sql Plan
open Decimal (maxInt)

/-- Tables have used the identifiers of their rows, and those of configs apart there is no other way to get one. -/
structure CompiledSchema.Counted (s : CompiledSchema) (content : Content) : Prop where
  nonneg : ∀ name, 0 ≤ content.sequence name
  le : ∀ name, content.sequence name ≤ maxInt
  ids : ∀ t ∈ s.tables, t.name ∉ s.configs → ∀ id ∈ content.idsOf t.name, id ≤ content.sequence t.name

/-! ## The rows of a value -/

/-- The row that a map of members makes, as a field is read: each column has what its type makes of the value that is
given for it, and all others are null. -/
def Table.written (t : Table) (members : List (String × Json)) : Json :=
  Json.object (t.columns.map fun column =>
    (column.name, ofStored ((Affinity.ofType column.type).store (memberValue members column.name))))

/-- The affinity of a column. -/
def CompiledSchema.affinity (s : CompiledSchema) (table column : String) : Affinity :=
  match (s.tables.find? (·.name = table)).bind fun t => t.columns.find? (·.name = column) with
  | some column => .ofType column.type
  | none => .blob

/-- The rows that a field is read as once a value has been written to it. -/
def CompiledSchema.written (s : CompiledSchema) (slot : Slot) (value : Json) : List Json :=
  match slot.storage, value with
  | .scalar table column, value =>
    [Json.object [(column, ofStored ((s.affinity table column).store (storedOf value)))]]
  | .reference _ _ target, .obj members => [target.written members]
  | .list _ item _, .arr elements => elements.map fun element => item.written (itemMembers element)
  | _, _ => []

/-- What any part of a write of a slot leaves as it was: what is read from the other slots. New rows have identifiers
that have not been used. -/
structure Leaves (c : Catalog) (s : CompiledSchema) (slot : Slot) (before after : Content) : Prop where
  others : ∀ other ∈ s.slots, other ≠ slot → other.Same before after
  sequence : ∀ name, before.sequence name ≤ after.sequence name
  ids : ∀ p ∈ s.tables, c.IsItem p.name → ∀ id ∈ after.idsOf p.name,
    id ∈ before.idsOf p.name ∨ before.sequence p.name < id
  counted : s.Counted after

variable {c : Catalog} {s : CompiledSchema} {t p : Table} {slot other : Slot} {content before after : Content}
  {new : Option (String × Int)} {members : List (String × Json)}

theorem Leaves.refl (slot : Slot) (hk : s.Counted content) : Leaves c s slot content content where
  others other _ _ := .refl other content
  sequence _ := Int.le_refl _
  ids _ _ _ _ hid := .inl hid
  counted := hk

theorem Leaves.trans {last : Content} (h : Leaves c s slot before after) (h' : Leaves c s slot after last) :
    Leaves c s slot before last where
  others other hother hne := (h.others other hother hne).trans (h'.others other hother hne)
  sequence name := Int.le_trans (h.sequence name) (h'.sequence name)
  ids p hp hitem id hid := by
    rcases h'.ids p hp hitem id hid with hid | hnew
    · exact h.ids p hp hitem id hid
    · exact .inr (Int.lt_of_le_of_lt (h.sequence p.name) hnew)
  counted := h'.counted

/-- A row that is gone does not come back. -/
theorem Leaves.gone (h : Leaves c s slot before after) (hp : p ∈ s.tables) (hitem : c.IsItem p.name) {id : Int}
    (hid : id ∉ before.idsOf p.name) (hused : id ≤ before.sequence p.name) : id ∉ after.idsOf p.name := by
  intro hafter
  rcases h.ids p hp hitem id hafter with hbefore | hnew
  · exact hid hbefore
  · omega

namespace Regular

/-! ## Used identifiers -/

/-- The highest identifier in use is the highest that has been used. -/
theorem usedId_eq (hk : s.Counted content) (ht : t ∈ s.tables) (hn : t.name ∉ s.configs) :
    content.usedId t.name = content.sequence t.name := by
  refine Int.max_eq_right ?_
  cases hlast : (content.rowsOf t.name).getLast? with
  | none => exact hk.nonneg t.name
  | some row => exact hk.ids t ht hn row.id (List.mem_map_of_mem (List.mem_of_getLast? hlast))

/-- A new row has an identifier that has not been used. -/
theorem counted_inserted (h : Regular c s) (hc : content.Sound s.infos) (hk : s.Counted content) (ht : t ∈ s.tables)
    (hn : t.name ∉ s.configs) (hroom : content.usedId t.name ≠ maxInt) (values : List Value) :
    s.Counted (content.inserted t.info (content.usedId t.name + 1) values) := by
  have hused := usedId_eq hk ht hn
  have hmax := hk.le t.name
  have hsequence : ∀ name, (content.inserted t.info (content.usedId t.name + 1) values).sequence name =
      if sameName t.name name then max (content.sequence name) (content.usedId t.name + 1)
      else content.sequence name := fun name => content.sequence_note t.name name _
  refine ⟨fun name => ?_, fun name => ?_, fun u hu hun id hid => ?_⟩
  · have := hk.nonneg name
    rw [hsequence]
    split <;> omega
  · have := hk.le name
    rw [hsequence]
    split <;> omega
  · by_cases he : t.name = u.name
    · obtain rfl := h.plain.eq_of_name ht hu he
      have hrows := rowsOf_inserted h.layout hc (mem_infos ht)
        (show content.usedId t.info.name < content.usedId t.name + 1 from Int.lt_succ _) values
      unfold Content.idsOf at hid
      rw [show (content.inserted t.info (content.usedId t.name + 1) values).rowsOf t.name = _ from hrows,
        List.map_append] at hid
      rw [hsequence, if_pos (sameName_self _)]
      rcases List.mem_append.1 hid with hid | hid
      · exact Int.le_trans (hk.ids t ht hn id hid) (Int.le_max_left ..)
      · rw [List.mem_singleton.1 hid]
        exact Int.le_max_right ..
    · have hother := h.sameName_of_ne ht hu he
      unfold Content.idsOf at hid
      rw [rowsOf_inserted_of_ne (t := t.info) hother] at hid
      rw [hsequence, hother, if_neg Bool.false_ne_true]
      exact hk.ids u hu hun id hid

/-- A new row uses one more identifier of its table. -/
theorem sequence_inserted (hk : s.Counted content) (ht : t ∈ s.tables) (hn : t.name ∉ s.configs) (values : List Value) :
    (content.inserted t.info (content.usedId t.name + 1) values).sequence t.name = content.sequence t.name + 1 := by
  have hsequence := content.sequence_note_self t.name (content.usedId t.name + 1)
  rw [usedId_eq hk ht hn, max_eq_right (Int.le_of_lt (Int.lt_succ _))] at hsequence
  rw [usedId_eq hk ht hn]
  exact hsequence

theorem sequence_inserted_of_ne {name : String} (hne : sameName t.name name = false) (id : Int) (values : List Value) :
    (content.inserted t.info id values).sequence name = content.sequence name :=
  content.sequence_note_of_ne hne id

/-- Identifiers are used no less where rows are taken out. -/
theorem counted_of_subset (hk : s.Counted before) (hs : ∀ name, after.sequence name = before.sequence name)
    (hids : ∀ t ∈ s.tables, t.name ∉ s.configs → ∀ id ∈ after.idsOf t.name, id ∈ before.idsOf t.name) :
    s.Counted after where
  nonneg name := hs name ▸ hk.nonneg name
  le name := hs name ▸ hk.le name
  ids t ht hn id hid := hs t.name ▸ hk.ids t ht hn id (hids t ht hn id hid)

/-! ## Parts of a write -/

/-- A row is added. -/
theorem leaves_addItem (h : Regular c s) (ho : s.Owned new before) (hk : s.Counted before) (hp : p ∈ s.tables)
    (hitem : c.IsItem p.name) (hroom : before.usedId p.name ≠ maxInt) (slot : Slot)
    (ha : (before.addItem p members).Sound s.infos) : Leaves c s slot before (before.addItem p members) where
  others other hother _ := h.same_addItem ho hp hitem members ha hother
  sequence name := by
    rw [show (before.addItem p members).sequence name = _ from before.sequence_note p.name name _]
    split
    · exact Int.le_max_left ..
    · exact Int.le_refl _
  ids q hq _ id hid := by
    have hused := usedId_eq hk hp (h.leaf hp hitem).2
    by_cases he : p.name = q.name
    · unfold Content.idsOf at hid
      rw [← he, h.rowsOf_addItem ho.sound hp, List.map_append] at hid
      rcases List.mem_append.1 hid with hid | hid
      · exact .inl (he ▸ hid)
      · refine .inr ?_
        rw [← he, ← hused, List.mem_singleton.1 hid]
        exact Int.lt_succ _
    · unfold Content.idsOf at hid
      rw [show (before.addItem p members).rowsOf q.name = _ from
        rowsOf_inserted_of_ne (h.sameName_of_ne hp hq he) _ _] at hid
      exact .inl hid
  counted := h.counted_inserted ho.sound hk hp (h.leaf hp hitem).2 hroom _

/-- Two links hold different rows. -/
theorem not_mem_held (h : Regular c s) (hp : p ∈ s.tables) (hitem : c.IsItem p.name) (ho : s.Owned new before)
    {link link' : Link} (hl : link ∈ s.owners) (hl' : link' ∈ s.owners) (hne : link ≠ link')
    (hparent : link.2.parent = p.name) (hparent' : link'.2.parent = p.name) {id : Int} (hid : id ∈ before.held link) :
    id ∉ before.held link' := by
  obtain ⟨hleaf, hn⟩ := h.leaf hp hitem
  have hperm := ho.conserved p.info (mem_infos hp) hn hleaf
  have hnodup := hperm.nodup_iff.2 (ho.sound.ordered p.info (mem_infos hp)).nodup_ids
  have hdisjoint := (List.nodup_flatMap.1 (List.nodup_append.1 hnodup).2.1).2
  have hsymm : Std.Symm (Function.onFun List.Disjoint before.held) := ⟨fun _ _ hab _ ha hb => hab hb ha⟩
  exact hdisjoint.forall (List.mem_filter.2 ⟨hl, decide_eq_true hparent⟩)
    (List.mem_filter.2 ⟨hl', decide_eq_true hparent'⟩) hne hid

/-- Rows that a slot owns are deleted. -/
theorem leaves_removedAll (h : Regular c s) (ho : s.Owned new before) (hk : s.Counted before) (hp : p ∈ s.tables)
    (hitem : c.IsItem p.name) (hslot : slot ∈ s.slots) {link : Link} (hlink : slot.link? s.tables = some link)
    (hparent : link.2.parent = p.name) {ids : List Int} (hids : ∀ id ∈ ids, id ∈ before.held link) :
    Leaves c s slot before (before.removedAll s.infos p.name ids) := by
  obtain ⟨-, hconfig⟩ := h.leaf hp hitem
  have hsubset : ∀ t ∈ s.tables, t.name ∉ s.configs →
      ∀ id ∈ (before.removedAll s.infos p.name ids).idsOf t.name, id ∈ before.idsOf t.name := by
    intro t ht hn id hid
    obtain ⟨row, hr, rfl⟩ := List.mem_map.1 hid
    exact List.mem_map_of_mem
      (mem_of_mem_removedAll h.ownership ho.sound (mem_infos hp) hconfig (mem_infos ht) hn hr)
  have hl : link ∈ s.owners := List.mem_filterMap.2 ⟨slot, hslot, hlink⟩
  refine ⟨fun other hother hne => ?_, fun name => (sequence_removedAll ..).ge,
    fun q hq hqitem id hid => .inl (hsubset q hq (h.leaf hq hqitem).2 id hid),
    counted_of_subset hk (fun name => sequence_removedAll ..) hsubset⟩
  refine h.same_removedAll ho hp hitem hother fun id hid howns => ?_
  rw [h.owns_eq hother ho.sound] at howns
  obtain ⟨link', hlink', hmem⟩ := List.mem_flatMap.1 howns
  obtain ⟨id', hid', he⟩ := List.mem_map.1 hmem
  obtain ⟨hparent', rfl⟩ := Prod.mk.inj he
  have hlink' := Option.mem_toList.1 hlink'
  have hne' := h.described.link_ne h.plain h.distinct hslot hother
    (h.described.apart_of_ne hslot hother (Ne.symm hne)) hlink hlink'
  exact h.not_mem_held hp hitem ho hl (List.mem_filterMap.2 ⟨other, hother, hlink'⟩) hne' hparent hparent' (hids _ hid) hid'

/-- Two slots of a config have different columns. -/
theorem column_ne (h : Regular c s) (hslot : slot ∈ s.slots) (hother : other ∈ s.slots) (hne : slot ≠ other)
    (hconfig : slot.config = other.config) {a b : String} (ha : a ∈ slot.column?) (hb : b ∈ other.column?) : a ≠ b := by
  rw [(h.described.slots slot hslot).2.1.column ha, (h.described.slots other hother).2.1.column hb]
  exact (h.described.apart_of_ne hslot hother hne).fields hconfig

/-- The column of a slot is assigned to. -/
theorem leaves_assigned (h : Regular c s) (hslot : slot ∈ s.slots) (ho : s.Owned new before) (hk : s.Counted before)
    (ht : t ∈ s.tables) (hn : t.name ∈ s.configs) (hconfig : t.name = slot.config) {row : Row}
    (hrow : before.rowsOf t.name = [row]) {i : Nat} {col : Column} (hi : t.columns[i]? = some col)
    (hcolumn : slot.column? = some col.name) {v : Value} (hafter : after = s.assigned before t.name col.name v)
    (ha : after.Sound s.infos) : Leaves c s slot before after := by
  rw [h.assigned_eq ht ho hi hrow v] at hafter
  have hother : ∀ u ∈ s.tables, t.name ≠ u.name → after.rowsOf u.name = before.rowsOf u.name :=
    fun u hu hne => hafter ▸ rowsOf_onRows_other h.layout (mem_infos ht) (mem_infos hu) hne _
  have hids : ∀ u ∈ s.tables, u.name ∉ s.configs → ∀ id ∈ after.idsOf u.name, id ∈ before.idsOf u.name := by
    intro u hu hun id hid
    unfold Content.idsOf at hid
    rw [hother u hu fun he => hun (he ▸ hn)] at hid
    exact hid
  have hsequence : ∀ name, after.sequence name = before.sequence name := fun name => by
    rw [hafter]
    rfl
  refine ⟨fun other hslot' hne => ?_, fun name => (hsequence name).ge,
    fun p hp hitem id hid => .inl (hids p hp (h.leaf hp hitem).2 id hid), counted_of_subset hk hsequence hids⟩
  have hplaced := (h.described.slots other hslot').2.1
  refine h.same_assigned ho ht hn hrow hi hafter ha hslot' (fun hs => ?_) fun link hlink hsame hplace => ?_
  · -- another scalar field has another column
    have hother : other.column? = some col.name := by
      unfold Slot.column?
      rw [hs]
    unfold Slot.Placed at hplaced
    rw [hs] at hplaced
    exact h.column_ne hslot hslot' (Ne.symm hne) (hconfig.symm.trans hplaced.1) hcolumn hother rfl
  · -- so has another reference
    rcases h.described.link_cases h.plain hslot' hlink with ⟨u, hu, hname, k, hk, hmem, rfl⟩ | ⟨u, hu, k, hk, rfl, -⟩
    · have htu : u.name = t.name := congrArg TableInfo.name hsame
      obtain rfl := h.plain.eq_of_name hu ht htu
      obtain ⟨j, col', hj, hname', hplace'⟩ := h.place ht hmem
      have hij : j = i := Nat.succ.inj (hplace'.symm.trans hplace)
      rw [hij, hi, Option.some.injEq] at hj
      have hother : k.column ∈ other.column? := by
        unfold Slot.foreignKey? at hk
        unfold Slot.column?
        cases hs : other.storage <;> rw [hs] at hk <;> cases hk
        rfl
      refine h.column_ne hslot hslot' (Ne.symm hne) (hconfig.symm.trans hname) hcolumn hother ?_
      rw [← hname', hj]
    · have htu : u.name = t.name := congrArg TableInfo.name hsame
      exact (h.described.name_ne_junction hslot' hu).1 (htu ▸ hn)

/-- A row is linked to its list. -/
theorem leaves_addLink (h : Regular c s) (hslot : slot ∈ s.slots) (ho : s.Owned new before) (hk : s.Counted before)
    (hitem : c.IsItem p.name) (hj : Table.junction p.name t.name ∈ s.tables)
    (hlink : slot.link? s.tables = some ((Table.junction p.name t.name).link (itemKey p.name)))
    (hroom : before.usedId (junctionName p.name t.name) ≠ maxInt) {id : Int}
    (ha : (before.addLink p.name t.name id).Sound s.infos) :
    Leaves c s slot before (before.addLink p.name t.name id) where
  others other hother hne := by
    refine h.same_addLink ho hitem hj ha hother fun hlink' => ?_
    exact h.described.link_ne h.plain h.distinct hslot hother
      (h.described.apart_of_ne hslot hother (Ne.symm hne)) hlink hlink' rfl
  sequence name := by
    rw [show (before.addLink p.name t.name id).sequence name = _ from
      before.sequence_note (junctionName p.name t.name) name _]
    split
    · exact Int.le_max_left ..
    · exact Int.le_refl _
  ids q hq hqitem id' hid := by
    unfold Content.idsOf at hid
    rw [show (before.addLink p.name t.name id).rowsOf q.name = _ from
      rowsOf_inserted_of_ne (h.sameName_of_ne hj hq fun he => ?_) _ _] at hid
    · exact .inl hid
    · -- a junction is no table for items
      obtain ⟨hleaf, -⟩ := h.leaf hq hqitem
      rw [← h.plain.eq_of_name hj hq he] at hleaf
      cases hleaf
  counted := h.counted_inserted ho.sound hk hj (h.junction_notMem hj) hroom _

/-! ## Rows that are written -/

theorem affinity_info (column : Column) : column.info.affinity = Affinity.ofType column.type := by
  unfold Column.info
  split
  · rename_i htype
    rw [htype]
    show Affinity.ofType "INTEGER" = Affinity.ofType linkType
    decide +kernel
  · rfl

/-- The row that a map of members makes is read as it was written. -/
theorem read_convert (h : Regular c s) (hp : p ∈ s.tables) (id : Int) (members : List (String × Json)) :
    p.read (convert p.info id (p.rowValues members)) = p.written members := by
  have hlength : (p.rowValues members).length = p.info.columns.length := by
    show (_ :: p.columns.map _).length = (_ :: p.columns.map _).length
    rw [List.length_cons, List.length_cons, List.length_map, List.length_map]
  unfold Table.read Table.written
  rw [← map_eq_mapIdx fun i column hi => ?_]
  rw [value_convert hlength (getElem?_info hi), (h.layout.plain _ (mem_infos hp)).key,
    if_neg (by simp), affinity_info]
  unfold Table.rowValues
  rw [List.getD_cons_succ, List.getD_eq_getElem?_getD, List.getElem?_map, hi]
  rfl

/-- The affinity of a column is that of its type. -/
theorem affinity_eq (h : Regular c s) (ht : t ∈ s.tables) {i : Nat} {col : Column} (hi : t.columns[i]? = some col) :
    s.affinity t.name col.name = col.info.affinity := by
  have hmem := List.mem_of_getElem? hi
  obtain ⟨found, hfound⟩ := Option.isSome_iff_exists.1
    (List.find?_isSome (p := (·.name = col.name)).2 ⟨col, hmem, decide_eq_true rfl⟩)
  have hname : found.name = col.name := by simpa using List.find?_some hfound
  -- columns have different names
  obtain ⟨j, hj⟩ := List.getElem?_of_mem (List.mem_of_find?_eq_some hfound)
  have hplace := (columnIndex?_info (h.distinct t ht) hj hname).symm.trans (columnIndex?_info (h.distinct t ht) hi rfl)
  have hij : j = i := Nat.succ.inj (Option.some.inj hplace)
  rw [hij, hi, Option.some.injEq] at hj
  unfold CompiledSchema.affinity
  rw [Described.find?_name h.plain ht, Option.bind_some, hfound, ← hj, affinity_info]

/-- A scalar field is read as the value that has been assigned to its column. -/
theorem rows_assigned (h : Regular c s) (ho : s.Owned none before) (ht : t ∈ s.tables) (hn : t.name ∈ s.configs) {i : Nat}
    {col : Column} (hi : t.columns[i]? = some col) (hs : slot.storage = .scalar t.name col.name) {v : Value}
    (hafter : after = s.assigned before t.name col.name v) (ha : after.Sound s.infos) :
    slot.rows after = [Json.object [(col.name, ofStored ((s.affinity t.name col.name).store v))]] := by
  obtain ⟨row, hrow, -⟩ := ho.row_of_config (mem_infos ht) hn
  have hrow : before.rowsOf t.name = [row] := hrow
  rw [h.assigned_eq ht ho hi hrow v] at hafter
  have hself : after.rowsOf t.name = [t.info.assign (i + 1) v row] :=
    hafter ▸ rowsOf_assign h.layout ho.sound (mem_infos ht) hrow (i + 1) v
  obtain ⟨-, hfit, -⟩ := configRow_fits ht hn ho hrow
  rw [Slot.rows_scalar hs, h.column_of_place ht ha hi, hself, List.map_singleton, List.map_singleton,
    value_assign (h.layout.plain _ (mem_infos ht)) hfit (List.getElem?_eq_some_iff.1 (getElem?_info hi)).1
      (Nat.succ_ne_zero i) (getElem?_info hi), if_pos rfl, h.affinity_eq ht hi]

/-- A slot that gets to own a new row is read with that row at the end. -/
theorem rows_append (h : Regular c s) (hslot : slot ∈ s.slots) (ho : s.Owned none before) (ha : after.Sound s.infos)
    {link : Link} (hlink : slot.link? s.tables = some link) (hparent : link.2.parent = p.name)
    (hrows : ∀ content : Content, slot.rows content =
      ((content.rowsOf p.name).filter fun row => (p.name, row.id) ∈ slot.owns content).map p.read)
    {row : Row} (hnew : row.id ∉ before.idsOf p.name) (hheld : after.held link = before.held link ++ [row.id])
    (hafter : after.rowsOf p.name = before.rowsOf p.name ++ [row]) :
    slot.rows after = slot.rows before ++ [p.read row] := by
  rw [hrows after, hrows before, h.rows_of_link hslot ha hlink hparent, h.rows_of_link hslot ho.sound hlink hparent,
    hheld, hafter, List.filter_append, List.filter_cons_of_pos (by simp), List.filter_nil, List.map_append]
  congr 2
  refine List.filter_congr fun other hother => ?_
  have hne : other.id ≠ row.id := fun he => hnew (he ▸ List.mem_map_of_mem hother)
  simp [hne]

end Regular

end GuardedConfig.Schema
