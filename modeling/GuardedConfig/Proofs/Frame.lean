import GuardedConfig.Proofs.Fields
import GuardedConfig.Proofs.Members

/-!
# `Proofs.Frame` — what the parts of a write leave of the other slots

A slot is read from the row of its config, or from the rows that it owns. A row that is added is owned by no slot
yet, a row that is deleted was owned by one, and a column or a junction belongs to one slot. So each part of a write
leaves what is read from the others, also where they share a table.

## Contents

* `Slot.Same` — a slot that is read the same from two contents
* `Slot.Seen` — where a slot is read from
* `same_addItem`, `same_removedAll`, `same_assigned`, `same_addLink`
-/

namespace GuardedConfig.Schema

open Sql

/-- A slot that is read the same from two contents: its rows, and what it owns. -/
structure Slot.Same (slot : Slot) (before after : Content) : Prop where
  rows : slot.rows after = slot.rows before
  owns : slot.owns after = slot.owns before

theorem Slot.Same.refl (slot : Slot) (content : Content) : slot.Same content content := ⟨rfl, rfl⟩

theorem Slot.Same.trans {slot : Slot} {a b c : Content} (h : slot.Same a b) (h' : slot.Same b c) : slot.Same a c :=
  ⟨h'.rows.trans h.rows, h'.owns.trans h.owns⟩

/-- Where a slot is read from: a column of its config that is no foreign key, or a table for items, some rows of which
a link holds. -/
inductive Slot.Seen (c : Catalog) (s : CompiledSchema) (slot : Slot) : Prop where
  | column {t : Table} {i : Nat} {col : Column} (ht : t ∈ s.tables) (hn : t.name ∈ s.configs)
      (hi : t.columns[i]? = some col) (hfree : ∀ k ∈ t.info.foreignKeys, k.column ≠ i + 1)
      (hs : slot.storage = .scalar t.name col.name)
  | link {link : Link} {p : Table} (hl : link ∈ s.owners) (hlink : slot.link? s.tables = some link)
      (hp : p ∈ s.tables) (hitem : c.IsItem p.name) (hparent : link.2.parent = p.name)
      (hrows : ∀ content : Content, slot.rows content =
        ((content.rowsOf p.name).filter fun row => (p.name, row.id) ∈ slot.owns content).map p.read)

namespace Regular

variable {c : Catalog} {s : CompiledSchema} {t p : Table} {slot other : Slot} {before after : Content}
  {new : Option (String × Int)}

/-- Each slot is read from somewhere. -/
theorem seen (h : Regular c s) (hslot : slot ∈ s.slots) : slot.Seen c s := by
  cases hs : slot.storage with
  | scalar table column =>
    obtain ⟨t, ht, rfl, hn, i, col, hi, rfl, hfree⟩ := h.scalar hslot hs
    refine .column ht hn hi (fun k' hk' he => ?_) hs
    obtain ⟨k, hk, rfl⟩ := List.mem_map.1 hk'
    obtain ⟨j, col', hj, hname, hplace⟩ := h.place ht hk
    have hij : j = i := Nat.succ.inj (hplace.symm.trans he)
    rw [hij, hi, Option.some.injEq] at hj
    exact hfree k hk (by rw [← hname, hj])
  | reference table column target =>
    obtain ⟨t, ht, rfl, hn, hp, hitem, hk⟩ := h.reference hslot hs
    have hlink := Described.link?_reference h.plain ht hs
    exact .link (List.mem_filterMap.2 ⟨slot, hslot, hlink⟩) hlink hp hitem rfl (Slot.rows_reference hs)
  | list table item scalarItems =>
    obtain ⟨t, ht, rfl, hn, hp, hitem, hj⟩ := h.list hslot hs
    have hlink := Slot.link?_list hs s.tables
    exact .link (List.mem_filterMap.2 ⟨slot, hslot, hlink⟩) hlink hp hitem rfl (Slot.rows_list hs)

/-! ## The same rows -/

/-- A column with the same values is read the same. -/
theorem same_of_column (h : Regular c s) (hb : before.Sound s.infos) (ha : after.Sound s.infos) (ht : t ∈ s.tables)
    {i : Nat} {col : Column} (hi : t.columns[i]? = some col) (hs : slot.storage = .scalar t.name col.name)
    (hvalues : (after.rowsOf t.name).map (·.value (i + 1)) = (before.rowsOf t.name).map (·.value (i + 1))) :
    slot.Same before after := by
  have hcolumn : after.column t.name col.name = before.column t.name col.name := by
    rw [h.column_of_place ht ha hi, h.column_of_place ht hb hi, hvalues]
  constructor
  · rw [Slot.rows_scalar hs, Slot.rows_scalar hs, hcolumn]
  · unfold Slot.owns
    rw [hs]

/-- A link that holds the same is read the same, if the rows are the same. -/
theorem same_of_link (h : Regular c s) (hslot : slot ∈ s.slots) (hb : before.Sound s.infos) (ha : after.Sound s.infos)
    {link : Link} (hlink : slot.link? s.tables = some link) (hparent : link.2.parent = p.name)
    (hrows : ∀ content : Content, slot.rows content =
      ((content.rowsOf p.name).filter fun row => (p.name, row.id) ∈ slot.owns content).map p.read)
    (hheld : after.held link = before.held link)
    (hsame : ((after.rowsOf p.name).filter fun row => row.id ∈ before.held link) =
      (before.rowsOf p.name).filter fun row => row.id ∈ before.held link) : slot.Same before after := by
  constructor
  · rw [hrows after, hrows before, h.rows_of_link hslot ha hlink hparent, h.rows_of_link hslot hb hlink hparent, hheld,
      hsame]
  · rw [h.owns_eq hslot ha, h.owns_eq hslot hb, hlink, Option.toList_some, List.flatMap_singleton,
      List.flatMap_singleton, hheld]

/-- A slot owns what its link holds. -/
theorem mem_owns (h : Regular c s) (hslot : slot ∈ s.slots) (hb : before.Sound s.infos) {link : Link}
    (hlink : slot.link? s.tables = some link) (hparent : link.2.parent = p.name) {id : Int} :
    (p.name, id) ∈ slot.owns before ↔ id ∈ before.held link := by
  rw [h.owns_eq hslot hb, hlink, Option.toList_some, List.flatMap_singleton, hparent]
  simp

/-! ## Parts of a write -/

/-- Tables of configs and junctions are none for items. -/
theorem sameName_of_owner (h : Regular c s) (hp : p ∈ s.tables) (hitem : c.IsItem p.name) {link : Link}
    (hl : link ∈ s.owners) : sameName p.name link.1.name = false := by
  obtain ⟨hleaf, -⟩ := h.leaf hp hitem
  exact h.layout.sameName_of_ne (mem_infos hp) (h.ownership.mem link hl).1
    (h.ownership.name_ne hl (mem_infos hp) hleaf).symm

theorem sameName_of_ne (h : Regular c s) (ht : t ∈ s.tables) (hp : p ∈ s.tables) (hn : t.name ≠ p.name) :
    sameName t.name p.name = false := h.layout.sameName_of_ne (mem_infos ht) (mem_infos hp) hn

/-- A row that is added is owned by no slot. -/
theorem same_addItem (h : Regular c s) (ho : s.Owned new before) (hp : p ∈ s.tables) (hitem : c.IsItem p.name)
    (members : List (String × Json)) (ha : (before.addItem p members).Sound s.infos) (hslot : slot ∈ s.slots) :
    slot.Same before (before.addItem p members) := by
  obtain ⟨hleaf, hconfig⟩ := h.leaf hp hitem
  have hother : ∀ q ∈ s.tables, p.name ≠ q.name → (before.addItem p members).rowsOf q.name = before.rowsOf q.name :=
    fun q hq hn => rowsOf_inserted_of_ne (h.sameName_of_ne hp hq hn) _ _
  cases h.seen hslot with
  | @column t i col ht hn hi hfree hs =>
    exact h.same_of_column ho.sound ha ht hi hs (by rw [hother t ht fun he => hconfig (he ▸ hn)])
  | @link link q hl hlink hq hqitem hparent hrows =>
    have hheld : (before.addItem p members).held link = before.held link :=
      held_congr (rowsOf_inserted_of_ne (h.sameName_of_owner hp hitem hl) _ _)
    refine h.same_of_link hslot ho.sound ha hlink hparent hrows hheld ?_
    by_cases hn : p.name = q.name
    · rw [← hn, h.rowsOf_addItem ho.sound hp, List.filter_append, List.filter_cons_of_neg, List.filter_nil,
        List.append_nil]
      -- the new identifier is higher than all that are held
      intro hheld
      rw [decide_eq_true_iff] at hheld
      have hid := ho.mem_ids h.ownership hl hheld
      rw [hparent, ← hn] at hid
      obtain ⟨row, hrow, hrid⟩ := List.mem_map.1 hid
      have hle : row.id ≤ before.usedId p.name := le_usedId (t := p.info) ho.sound (mem_infos hp) hrow
      have hnew : row.id = before.usedId p.name + 1 := hrid
      omega
    · rw [hother q hq hn]

/-- A row that is deleted was owned by one slot only. -/
theorem same_removedAll (h : Regular c s) (ho : s.Owned new before) (hp : p ∈ s.tables) (hitem : c.IsItem p.name)
    {ids : List Int} (hslot : slot ∈ s.slots) (hids : ∀ id ∈ ids, (p.name, id) ∉ slot.owns before) :
    slot.Same before (before.removedAll s.infos p.name ids) := by
  obtain ⟨hleaf, hconfig⟩ := h.leaf hp hitem
  have hpm : p.info ∈ s.infos := mem_infos hp
  have ha : (before.removedAll s.infos p.name ids).Sound s.infos := sound_removedAll h.layout ho.sound hpm ids
  cases h.seen hslot with
  | @column t i col ht hn hi hfree hs =>
    exact h.same_of_column ho.sound ha ht hi hs
      (values_removedAll h.ownership ho.sound hpm hconfig (mem_infos ht) hn (getElem?_info hi) hfree ids)
  | @link link q hl hlink hq hqitem hparent hrows =>
    obtain ⟨hqleaf, -⟩ := h.leaf hq hqitem
    by_cases hn : p.name = q.name
    · have hfree : ∀ id ∈ before.held link, id ∉ ids := fun id hheld hmem => by
        refine hids id hmem ?_
        rw [hn]
        exact (h.mem_owns hslot ho.sound hlink hparent).2 hheld
      have hheld := held_removedAll h.ownership ho.sound hpm hconfig hleaf hl (hparent.trans hn.symm) ids
      rw [List.filter_eq_self.2 fun id hid => decide_eq_true (hfree id hid)] at hheld
      refine h.same_of_link hslot ho.sound ha hlink hparent hrows hheld ?_
      have hself := rowsOf_removedAll_self h.layout ho.sound hpm (h.parent_ne hp) ids
      rw [← hn, show (before.removedAll s.infos p.name ids).rowsOf p.name = _ from hself, List.filter_filter]
      refine List.filter_congr fun row _ => ?_
      rw [Bool.eq_iff_iff, Bool.and_eq_true, decide_eq_true_iff, decide_eq_true_iff]
      exact and_iff_left_of_imp (hfree row.id)
    · have hheld := held_removedAll_of_ne h.ownership ho.sound hpm hconfig hleaf hl
        (fun he => hn (he.symm.trans hparent)) ids
      refine h.same_of_link hslot ho.sound ha hlink hparent hrows hheld ?_
      have hother := rowsOf_removedAll_of_ne (c := before) h.ownership hpm hconfig (mem_infos hq) hqleaf hn ids
      rw [show (before.removedAll s.infos p.name ids).rowsOf q.name = _ from hother]
      rfl

/-- A column of a config belongs to one slot. -/
theorem same_assigned (h : Regular c s) (ho : s.Owned new before) (ht : t ∈ s.tables) (hn : t.name ∈ s.configs)
    {row : Row} (hrow : before.rowsOf t.name = [row]) {i : Nat} {col : Column} (hi : t.columns[i]? = some col) {v : Value}
    (hafter : after = before.onRows t.name fun rows =>
      Stored.insertRow (t.info.assign (i + 1) v row) (rows.filter (·.id != row.id)))
    (ha : after.Sound s.infos) (hslot : slot ∈ s.slots) (hcolumn : slot.storage ≠ .scalar t.name col.name)
    (hlink : ∀ link, slot.link? s.tables = some link → link.1 = t.info → link.2.column ≠ i + 1) :
    slot.Same before after := by
  have hself : after.rowsOf t.name = [t.info.assign (i + 1) v row] :=
    hafter ▸ rowsOf_assign h.layout ho.sound (mem_infos ht) hrow (i + 1) v
  have hother : ∀ u ∈ s.infos, t.name ≠ u.name → after.rowsOf u.name = before.rowsOf u.name :=
    fun u hu hne => hafter ▸ rowsOf_onRows_other h.layout (mem_infos ht) hu hne _
  obtain ⟨-, hfit, -⟩ := configRow_fits ht hn ho hrow
  have hvalue : ∀ {j : Nat} {column : ColumnInfo}, t.info.columns[j]? = some column → j ≠ i + 1 →
      (t.info.assign (i + 1) v row).value j = row.value j := fun hj hne => by
    rw [value_assign (h.layout.plain _ (mem_infos ht)) hfit
      (List.getElem?_eq_some_iff.1 (getElem?_info hi)).1 (Nat.succ_ne_zero i) hj, if_neg hne]
  cases h.seen hslot with
  | @column u j col' hu hun hj hfree hs =>
    refine h.same_of_column ho.sound ha hu hj hs ?_
    by_cases he : t.name = u.name
    · obtain rfl := h.plain.eq_of_name ht hu he
      have hji : j + 1 ≠ i + 1 := by
        intro hji
        rw [Nat.succ.inj hji, hi, Option.some.injEq] at hj
        exact hcolumn (hj ▸ hs)
      rw [hself, hrow, List.map_singleton, List.map_singleton, hvalue (getElem?_info hj) hji]
    · rw [show after.rowsOf u.name = _ from hother u.info (mem_infos hu) he]
      rfl
  | @link link q hl hslotLink hq hqitem hparent hrows =>
    obtain ⟨-, hqconfig⟩ := h.leaf hq hqitem
    obtain ⟨hlt, hlk⟩ := h.ownership.mem link hl
    have hheld : after.held link = before.held link := by
      by_cases he : t.name = link.1.name
      · have hsame : link.1 = t.info := (h.layout.eq_of_name (mem_infos ht) hlt he).symm
        obtain ⟨p, -, hlead⟩ := h.layout.links _ hlt _ hlk
        obtain ⟨column, hcol, -⟩ := hlead.column
        rw [held_of_rowsOf _ he hself, held_of_rowsOf _ he hrow,
          hvalue (hsame ▸ hcol) (hlink link hslotLink hsame)]
      · exact held_congr (hother link.1 hlt he)
    refine h.same_of_link hslot ho.sound ha hslotLink hparent hrows hheld ?_
    rw [show after.rowsOf q.name = _ from hother q.info (mem_infos hq) fun he => hqconfig ((show t.name = q.name from he) ▸ hn)]
    rfl

/-- A junction belongs to one slot. -/
theorem same_addLink (h : Regular c s) (ho : s.Owned new before) (hitem : c.IsItem p.name)
    (hj : Table.junction p.name t.name ∈ s.tables) {id : Int} (ha : (before.addLink p.name t.name id).Sound s.infos)
    (hslot : slot ∈ s.slots)
    (hlink : slot.link? s.tables ≠ some ((Table.junction p.name t.name).link (itemKey p.name))) :
    slot.Same before (before.addLink p.name t.name id) := by
  have hjn := h.junction_notMem hj
  have hother : ∀ u ∈ s.infos, (Table.junction p.name t.name).name ≠ u.name →
      (before.addLink p.name t.name id).rowsOf u.name = before.rowsOf u.name := fun u hu hne =>
    rowsOf_inserted_of_ne (h.layout.sameName_of_ne (mem_infos hj) hu hne) _ _
  cases h.seen hslot with
  | @column u i col hu hun hi hfree hs =>
    refine h.same_of_column ho.sound ha hu hi hs ?_
    rw [show (before.addLink p.name t.name id).rowsOf u.name = _ from
      hother u.info (mem_infos hu) fun he => hjn (he ▸ hun)]
    rfl
  | @link link q hl hslotLink hq hqitem hparent hrows =>
    obtain ⟨hlt, hlk⟩ := h.ownership.mem link hl
    have hheld : (before.addLink p.name t.name id).held link = before.held link := by
      refine held_congr (hother link.1 hlt fun he => hlink ?_)
      -- a junction has one owning link
      have hsame := h.layout.eq_of_name (mem_infos hj) hlt he
      have hkey := h.ownership.eq_of_junction (mem_infos hj) hjn (h.link_junction hitem hj) (hsame ▸ hlk)
        (hparent ▸ (h.leaf hq hqitem).2)
      rw [hslotLink]
      exact congrArg some (Prod.ext hsame.symm hkey)
    refine h.same_of_link hslot ho.sound ha hslotLink hparent hrows hheld ?_
    rw [show (before.addLink p.name t.name id).rowsOf q.name = _ from hother q.info (mem_infos hq) fun he => ?_]
    · rfl
    · -- what links lead to is no junction
      obtain ⟨hqleaf, -⟩ := h.leaf hq hqitem
      have hsame := h.layout.eq_of_name (mem_infos hj) (mem_infos hq) he
      rw [← hsame] at hqleaf
      cases hqleaf

end Regular

end GuardedConfig.Schema
