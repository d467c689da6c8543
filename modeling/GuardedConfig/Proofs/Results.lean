import GuardedConfig.Proofs.Effects

/-!
# `Proofs.Results` — what a whole write does

A write that runs through gives its slot the rows of the value, and leaves what is read from every other slot. Rows
that the slot owned before are gone for good: a table for items never uses an identifier twice. A write can fail
only where identifiers are used up.

## Contents

* `Slot.HasRoom` — identifiers that are left
* `Wrote` — what a write does
* `wrote_scalar`, `wrote_reference`, `wrote_list`
* `Regular.wrote`, `Regular.isSome_write` — every write of a slot
-/

namespace GuardedConfig.Schema

open Sql Plan
open Decimal (maxInt)

/-- The tables that a value adds rows to have identifiers left for them. -/
def Slot.HasRoom (slot : Slot) (value : Json) (content : Content) : Prop :=
  match slot.storage, value with
  | .reference _ _ target, _ => content.sequence target.name < maxInt
  | .list table item _, .arr elements =>
    content.sequence item.name + elements.length ≤ maxInt ∧
      content.sequence (junctionName item.name table) + elements.length ≤ maxInt
  | _, _ => True

/-- What a write of a slot does. -/
structure Wrote (c : Catalog) (s : CompiledSchema) (slot : Slot) (value : Json) (before after : Content) : Prop
    extends Leaves c s slot before after where
  owned : s.Owned none after
  rows : slot.rows after = s.written slot value
  gone : ∀ name id, (name, id) ∈ slot.owns before → id ∉ after.idsOf name

variable {c : Catalog} {s : CompiledSchema} {t p : Table} {slot : Slot} {content before after : Content}
  {members : List (String × Json)} {value : Json}

namespace Regular

/-! ## Scalars -/

/-- An assignment to the column of a scalar field. -/
theorem wrote_scalar (h : Regular c s) (hslot : slot ∈ s.slots) {table column : String}
    (hs : slot.storage = .scalar table column) (ho : s.Owned none before) (hk : s.Counted before)
    (hafter : after = s.assigned before table column (storedOf value)) (ha : s.Owned none after) :
    Wrote c s slot value before after := by
  have hplaced := (h.described.slots slot hslot).2.1
  obtain ⟨t, ht, rfl, hn, i, col, hi, rfl, -⟩ := h.scalar hslot hs
  obtain ⟨row, hrow, -⟩ := ho.row_of_config (mem_infos ht) hn
  have hcolumn : slot.column? = some col.name := by
    unfold Slot.column?
    rw [hs]
  have hconfig : t.name = slot.config := by
    unfold Slot.Placed at hplaced
    rw [hs] at hplaced
    exact hplaced.1
  refine ⟨h.leaves_assigned hslot ho hk ht hn hconfig hrow hi hcolumn hafter ha.sound, ha, ?_, fun name id howns => ?_⟩
  · rw [h.rows_assigned ho ht hn hi hs hafter ha.sound]
    unfold CompiledSchema.written
    rw [hs]
  · unfold Slot.owns at howns
    rw [hs] at howns
    cases howns

/-! ## References -/

/-- Only one row has a given identifier. -/
theorem filter_row {rows : List Row} (h : Ordered rows) {row : Row} (hr : row ∈ rows) :
    (rows.filter fun other => other.id ∈ [row.id]) = [row] := by
  have hids := filter_id h (List.mem_map_of_mem hr)
  have hsame : (rows.filter fun other => other.id ∈ [row.id]) = rows.filter fun other => other.id = row.id :=
    List.filter_congr fun other _ => by simp
  obtain ⟨found, hfound, -⟩ := List.map_eq_singleton_iff.1 hids
  have hmem : row ∈ rows.filter fun other => other.id = row.id := List.mem_filter.2 ⟨hr, by simp⟩
  rw [hfound, List.mem_singleton] at hmem
  rw [hsame, hfound, hmem]

/-- An assignment leaves the rows of other tables. -/
theorem rowsOf_assigned_of_ne (h : Regular c s) (ht : t ∈ s.tables) (hp : p ∈ s.tables) (hn : t.name ≠ p.name)
    (column : String) (v : Value) : (s.assigned before t.name column v).rowsOf p.name = before.rowsOf p.name := by
  unfold CompiledSchema.assigned
  rw [Described.find?_name h.plain ht]
  exact rowsOf_onRows_other h.layout (mem_infos ht) (mem_infos hp) hn _

/-- A link to which an identifier is assigned holds that. -/
theorem held_assigned (h : Regular c s) {new : Option (String × Int)} (ho : s.Owned new before) (ht : t ∈ s.tables)
    (hn : t.name ∈ s.configs) {k : ForeignKey} (hk : k ∈ t.foreignKeys) (n : Int) :
    (s.assigned before t.name k.column (.integer n)).held (t.link k) = [n] := by
  obtain ⟨row, hrow, -⟩ := ho.row_of_config (mem_infos ht) hn
  have hrow : before.rowsOf t.name = [row] := hrow
  obtain ⟨i, col, hi, hname, hplace⟩ := h.place ht hk
  obtain ⟨-, hfit, -⟩ := configRow_fits ht hn ho hrow
  have hself := rowsOf_assign h.layout ho.sound (mem_infos ht) hrow (i + 1) (.integer n)
  have hlinks : ∀ k ∈ t.info.foreignKeys, ∃ p, k.IsLink t.info p :=
    fun k hk => (h.layout.links _ (mem_infos ht) k hk).imp fun _ hp => hp.2
  have hvalue := value_assign_link (v := .integer n) (h.layout.plain _ (mem_infos ht)) hlinks hfit
    (List.getElem?_eq_some_iff.1 (getElem?_info hi)).1 (fun _ _ _ => .inr ⟨n, rfl⟩) (List.mem_map_of_mem hk)
  rw [if_pos (show (k.info (t.keyInfo :: t.columns.map Column.info)).column = i + 1 from hplace)] at hvalue
  rw [← hname, h.assigned_eq ht ho hi hrow]
  exact (held_of_rowsOf (t.link k) rfl hself).trans (congrArg (fun v : Value => v.id?.toList) hvalue)

/-- What a slot owns exists. -/
theorem exists_of_owns (h : Regular c s) (hslot : slot ∈ s.slots) (ho : s.Owned none before) {link : Link}
    (hlink : slot.link? s.tables = some link) {name : String} {id : Int} (howns : (name, id) ∈ slot.owns before) :
    name = link.2.parent ∧ id ∈ before.held link ∧ id ∈ before.idsOf link.2.parent := by
  rw [h.owns_eq hslot ho.sound, hlink, Option.toList_some, List.flatMap_singleton] at howns
  obtain ⟨id', hmem, he⟩ := List.mem_map.1 howns
  obtain ⟨rfl, rfl⟩ := Prod.mk.inj he
  exact ⟨rfl, hmem, ho.mem_ids h.ownership (List.mem_filterMap.2 ⟨slot, hslot, hlink⟩) hmem⟩

/-- A reference gets to hold a new row in place of the one that it held. -/
theorem wrote_reference (h : Regular c s) (hslot : slot ∈ s.slots) {table column : String} {target : Table}
    (hs : slot.storage = .reference table column target) (ho : s.Owned none before) (hk : s.Counted before)
    (hafter : s.replaced before table column target members = some after) (ha : s.Owned none after) :
    Wrote c s slot (.obj members) before after := by
  have hplaced := (h.described.slots slot hslot).2.1
  obtain ⟨t, ht, rfl, hn, hp, hitem, hkey⟩ := h.reference hslot hs
  let k : ForeignKey := ⟨column, target.name, some .setNull⟩
  have hlink : slot.link? s.tables = some (t.link k) := Described.link?_reference h.plain ht hs
  have hl : t.link k ∈ s.owners := List.mem_filterMap.2 ⟨slot, hslot, hlink⟩
  have hreferred : ∀ content, s.referred content t.name column target.name = content.held (t.link k) := fun content => by
    unfold CompiledSchema.referred
    rw [Described.find?_name h.plain ht]
  have hne : t.name ≠ target.name := fun he => (h.leaf hp hitem).2 (he ▸ hn)
  unfold CompiledSchema.replaced at hafter
  dsimp only at hafter
  split at hafter
  · cases hafter
  rename_i hroom
  rw [hreferred, Option.some.injEq] at hafter
  -- the contents on the way, where the new row waits for its owner
  obtain ⟨added, hadded⟩ : ∃ added, added = before.addItem target members := ⟨_, rfl⟩
  obtain ⟨ids, hids⟩ : ∃ ids, ids = added.held (t.link k) := ⟨_, rfl⟩
  obtain ⟨released, hreleased⟩ : ∃ released, released = added.removedAll s.infos target.name ids := ⟨_, rfl⟩
  rw [← hadded, ← hids, ← hreleased] at hafter
  have howned : s.Owned (some (target.name, before.usedId target.name + 1)) added :=
    hadded ▸ h.owned_addItem hp hitem ho members
  have hwaiting : ∀ id ∈ ids, id ∉ waiting (some (target.name, before.usedId target.name + 1)) target.name :=
    fun id hid => h.not_mem_waiting hp hitem howned hl rfl (hids ▸ hid)
  have howned' : s.Owned (some (target.name, before.usedId target.name + 1)) released :=
    hreleased ▸ h.owned_removedAll hp hitem howned ids hwaiting
  have hrows : after.rowsOf target.name = (before.rowsOf target.name ++
      [convert target.info (before.usedId target.name + 1) (target.rowValues members)]).filter fun row => row.id ∉ ids := by
    have hself : released.rowsOf target.name = (added.rowsOf target.name).filter fun row => row.id ∉ ids :=
      hreleased ▸ rowsOf_removedAll_self h.layout howned.sound (mem_infos hp) (h.parent_ne hp) ids
    rw [← hafter, h.rowsOf_assigned_of_ne ht hp hne, hself, hadded, h.rowsOf_addItem ho.sound hp]
  have hadd : Leaves c s slot before added :=
    hadded ▸ h.leaves_addItem ho hk hp hitem hroom slot (hadded ▸ howned.sound)
  have hremove : Leaves c s slot added released :=
    hreleased ▸ h.leaves_removedAll howned hadd.counted hp hitem hslot hlink rfl fun id hid => hids ▸ hid
  have hassign : Leaves c s slot released after := by
    obtain ⟨row, hrow, -⟩ := howned'.row_of_config (mem_infos ht) hn
    obtain ⟨i, col, hi, rfl, -⟩ := h.place ht hkey
    have hcolumn : slot.column? = some col.name := by
      unfold Slot.column?
      rw [hs]
    unfold Slot.Placed at hplaced
    rw [hs] at hplaced
    exact h.leaves_assigned hslot howned' hremove.counted ht hn hplaced.1 hrow hi hcolumn hafter.symm ha.sound
  refine ⟨(hadd.trans hremove).trans hassign, ha, ?_, fun name id howns hid => ?_⟩
  · have hnew : before.usedId target.name + 1 ∉ ids := fun hid => hwaiting _ hid (by simp [waiting])
    have hmem : convert target.info (before.usedId target.name + 1) (target.rowValues members) ∈ after.rowsOf target.name := by
      rw [hrows]
      exact List.mem_filter.2 ⟨List.mem_append_right _ (List.mem_singleton_self _), decide_eq_true hnew⟩
    have hheld : after.held (t.link k) = [before.usedId target.name + 1] :=
      hafter ▸ h.held_assigned howned' ht hn hkey _
    rw [Slot.rows_reference hs, h.rows_of_link hslot ha.sound hlink rfl, hheld]
    refine (congrArg (List.map target.read)
      (filter_row (ha.sound.ordered target.info (mem_infos hp)) hmem)).trans ?_
    rw [List.map_singleton, h.read_convert hp]
    unfold CompiledSchema.written
    rw [hs]
  · -- what the reference held before is what has been deleted
    obtain ⟨rfl, hheld, -⟩ := h.exists_of_owns hslot ho hlink howns
    have hbefore : added.held (t.link k) = before.held (t.link k) := by
      rw [hadded]
      exact held_congr (rowsOf_inserted_of_ne (h.sameName_of_owner hp hitem hl) _ _)
    obtain ⟨row, hr, hrid⟩ := List.mem_map.1 hid
    have hr : row ∈ after.rowsOf target.name := hr
    rw [hrows] at hr
    refine of_decide_eq_true (List.mem_filter.1 hr).2 ?_
    rw [hrid, hids, hbefore]
    exact hheld

/-! ## Lists -/

/-- The names of a list: those of its config, its items and its junction, and the link of the latter. -/
structure IsList (c : Catalog) (s : CompiledSchema) (slot : Slot) (t p : Table) : Prop where
  table : t ∈ s.tables
  config : t.name ∈ s.configs
  item : p ∈ s.tables
  isItem : c.IsItem p.name
  junction : Table.junction p.name t.name ∈ s.tables
  link : slot.link? s.tables = some ((Table.junction p.name t.name).link (itemKey p.name))
  rows : ∀ content : Content, slot.rows content =
    ((content.rowsOf p.name).filter fun row => (p.name, row.id) ∈ slot.owns content).map p.read

/-- A new member of a list is read after the others. -/
theorem wrote_member (h : Regular c s) (hslot : slot ∈ s.slots) (hlist : IsList c s slot t p) (ho : s.Owned none before)
    (hk : s.Counted before) (hafter : before.addMember p t.name members = some after) :
    s.Owned none after ∧ Leaves c s slot before after ∧ slot.rows after = slot.rows before ++ [p.written members] ∧
      after.sequence p.name = before.sequence p.name + 1 ∧
      after.sequence (junctionName p.name t.name) = before.sequence (junctionName p.name t.name) + 1 := by
  obtain ⟨ht, hn, hp, hitem, hj, hlink, hrows⟩ := hlist
  have hconfig := (h.leaf hp hitem).2
  have hjn := h.junction_notMem hj
  have hapart : sameName p.name (junctionName p.name t.name) = false :=
    h.sameName_of_owner hp hitem (h.link_junction hitem hj)
  unfold Content.addMember at hafter
  dsimp only at hafter
  split at hafter
  · cases hafter
  rename_i hroom
  obtain ⟨hroom, hroom'⟩ := not_or.1 hroom
  obtain ⟨added, hadded⟩ : ∃ added, added = before.addItem p members := ⟨_, rfl⟩
  rw [← hadded] at hroom'
  rw [← hadded, Option.some.injEq] at hafter
  have howned : s.Owned (some (p.name, before.usedId p.name + 1)) added := hadded ▸ h.owned_addItem hp hitem ho members
  have ha : s.Owned none after := hafter ▸ h.owned_addLink ht hn hp hitem hj howned
  have hadd : Leaves c s slot before added :=
    hadded ▸ h.leaves_addItem ho hk hp hitem hroom slot (hadded ▸ howned.sound)
  have hlinked : Leaves c s slot added after :=
    hafter ▸ h.leaves_addLink hslot howned hadd.counted hitem hj hlink hroom' (hafter ▸ ha.sound)
  have hother : after.rowsOf p.name = added.rowsOf p.name :=
    hafter ▸ rowsOf_inserted_of_ne (t := (Table.junction p.name t.name).info) (by rw [sameName_comm]; exact hapart) _ _
  have hheld : after.held ((Table.junction p.name t.name).link (itemKey p.name)) =
      before.held ((Table.junction p.name t.name).link (itemKey p.name)) ++ [before.usedId p.name + 1] := by
    have hlinks : after.rowsOf (junctionName p.name t.name) = _ :=
      hafter ▸ h.rowsOf_addLink howned.sound hj (before.usedId p.name + 1)
    have hvalue := h.value_linkRow (n := before.usedId p.name + 1) hj (added.usedId (junctionName p.name t.name) + 1)
      ((itemKey p.name).info (Table.junction p.name t.name).info.columns) (List.mem_cons_self ..)
    have hplace := (h.junction_columns hj).1
    rw [hplace] at hvalue
    unfold Content.held
    rw [show after.rowsOf ((Table.junction p.name t.name).link (itemKey p.name)).1.name = _ from hlinks,
      show added.rowsOf (junctionName p.name t.name) = before.rowsOf (junctionName p.name t.name) from
        hadded ▸ rowsOf_inserted_of_ne (t := p.info) hapart _ _, List.filterMap_append]
    congr 1
    rw [show ((Table.junction p.name t.name).link (itemKey p.name)).2.column = 1 from hplace, List.filterMap_cons_some]
    · rfl
    · rw [hvalue]
      rfl
  refine ⟨ha, hadd.trans hlinked, ?_, ?_, ?_⟩
  · have hrow : added.rowsOf p.name = _ := hadded ▸ h.rowsOf_addItem ho.sound hp members
    have hnew : (convert p.info (before.usedId p.name + 1) (p.rowValues members)).id ∉ before.idsOf p.name := by
      intro hid
      obtain ⟨row, hr, hrid⟩ := List.mem_map.1 hid
      have hle : row.id ≤ before.usedId p.name := le_usedId (t := p.info) ho.sound (mem_infos hp) hr
      have hrid : row.id = before.usedId p.name + 1 := hrid
      omega
    rw [h.rows_append hslot ho ha.sound hlink rfl hrows hnew hheld (hother.trans hrow), h.read_convert hp]
  · have hsame : after.sequence p.name = added.sequence p.name :=
      hafter ▸ sequence_inserted_of_ne (t := Table.junction p.name t.name) (by rw [sameName_comm]; exact hapart) _ _
    rw [hsame, hadded]
    exact sequence_inserted hk hp hconfig _
  · have hsame : added.sequence (junctionName p.name t.name) = before.sequence (junctionName p.name t.name) :=
      hadded ▸ sequence_inserted_of_ne hapart _ _
    rw [← hsame, ← hafter]
    exact sequence_inserted hadd.counted hj hjn _

/-- A member can be added as long as both tables have an identifier left. -/
theorem isSome_addMember (h : Regular c s) (hlist : IsList c s slot t p) (hk : s.Counted before)
    (members : List (String × Json)) :
    (before.addMember p t.name members).isSome = true ↔
      before.sequence p.name < maxInt ∧ before.sequence (junctionName p.name t.name) < maxInt := by
  obtain ⟨ht, hn, hp, hitem, hj, hlink, hrows⟩ := hlist
  have hapart : sameName p.info.name (junctionName p.name t.name) = false :=
    h.sameName_of_owner hp hitem (h.link_junction hitem hj)
  have hitemUsed := usedId_eq hk hp (h.leaf hp hitem).2
  have hlinkUsed : before.usedId (junctionName p.name t.name) = before.sequence (junctionName p.name t.name) :=
    usedId_eq (t := Table.junction p.name t.name) hk hj (h.junction_notMem hj)
  have hother : (before.addItem p members).usedId (junctionName p.name t.name) =
      before.usedId (junctionName p.name t.name) := usedId_inserted_of_ne hapart _ _
  have hitemMax := hk.le p.name
  have hlinkMax := hk.le (junctionName p.name t.name)
  unfold Content.addMember
  dsimp only
  rw [hother, hitemUsed, hlinkUsed]
  split
  · rename_i hfull
    refine ⟨fun hsome => (nomatch hsome), fun hroom => ?_⟩
    rcases hfull with hfull | hfull <;> omega
  · rename_i hroom
    obtain ⟨hroom, hroom'⟩ := not_or.1 hroom
    exact ⟨fun _ => ⟨by omega, by omega⟩, fun _ => rfl⟩

/-- New members of a list are read after the others, in their order. -/
theorem wrote_members (h : Regular c s) (hslot : slot ∈ s.slots) (hlist : IsList c s slot t p) {elements : List Json}
    (ho : s.Owned none before) (hk : s.Counted before) (hafter : before.addMembers p t.name elements = some after) :
    s.Owned none after ∧ Leaves c s slot before after ∧
      slot.rows after = slot.rows before ++ elements.map fun element => p.written (itemMembers element) := by
  unfold Content.addMembers at hafter
  induction elements generalizing before with
  | nil =>
    cases hafter
    exact ⟨ho, .refl slot hk, (List.append_nil _).symm⟩
  | cons element elements ih =>
    rw [List.foldlM_cons] at hafter
    obtain ⟨next, hnext, hafter⟩ := Option.bind_eq_some_iff.1 hafter
    obtain ⟨howned, hleaves, hrows, -⟩ := h.wrote_member hslot hlist ho hk hnext
    obtain ⟨hlast, hleaves', hrows'⟩ := ih howned hleaves.counted hafter
    refine ⟨hlast, hleaves.trans hleaves', ?_⟩
    rw [hrows', hrows, List.append_assoc]
    rfl

/-- Members can be added as long as both tables have enough identifiers left. -/
theorem isSome_addMembers (h : Regular c s) (hslot : slot ∈ s.slots) (hlist : IsList c s slot t p) {elements : List Json}
    (ho : s.Owned none before) (hk : s.Counted before) :
    (before.addMembers p t.name elements).isSome = true ↔
      before.sequence p.name + elements.length ≤ maxInt ∧
        before.sequence (junctionName p.name t.name) + elements.length ≤ maxInt := by
  unfold Content.addMembers
  induction elements generalizing before with
  | nil =>
    have hitemMax := hk.le p.name
    have hlinkMax := hk.le (junctionName p.name t.name)
    exact ⟨fun _ => ⟨by simpa using hitemMax, by simpa using hlinkMax⟩, fun _ => rfl⟩
  | cons element elements ih =>
    have hsome := h.isSome_addMember hlist hk (itemMembers element)
    rw [List.foldlM_cons, List.length_cons]
    cases hnext : before.addMember p t.name (itemMembers element) with
    | none =>
      rw [hnext] at hsome
      refine ⟨fun hnone => (nomatch hnone), fun hroom => ?_⟩
      have := hsome.2 ⟨by omega, by omega⟩
      cases this
    | some next =>
      obtain ⟨howned, hleaves, -, hitemUsed, hlinkUsed⟩ := h.wrote_member hslot hlist ho hk hnext
      refine (ih howned hleaves.counted).trans ?_
      rw [hitemUsed, hlinkUsed]
      constructor <;> rintro ⟨hitem, hlink⟩ <;> constructor <;> omega

/-- A list gets new members in place of those that it had. -/
theorem wrote_list (h : Regular c s) (hslot : slot ∈ s.slots) (hlist : IsList c s slot t p) {scalarItems : Bool}
    (hs : slot.storage = .list t.name p scalarItems) {elements : List Json} (ho : s.Owned none before) (hk : s.Counted before)
    (hafter : (s.withoutMembers before p.name t.name).addMembers p t.name elements = some after) :
    Wrote c s slot (.arr elements) before after := by
  obtain ⟨ht, hn, hp, hitem, hj, hlink, hrows⟩ := hlist
  obtain ⟨hleaf, hconfig⟩ := h.leaf hp hitem
  have hl := h.link_junction hitem hj
  obtain ⟨ids, hids⟩ : ∃ ids, ids = (before.idsOf p.name).filter (· ∈ before.members p.name t.name) := ⟨_, rfl⟩
  obtain ⟨emptied, hemptied⟩ : ∃ emptied, emptied = before.removedAll s.infos p.name ids := ⟨_, rfl⟩
  have hwithout : s.withoutMembers before p.name t.name = emptied := by
    unfold CompiledSchema.withoutMembers
    rw [hemptied, hids]
  rw [hwithout] at hafter
  have hheldIds : ∀ id ∈ ids, id ∈ before.held ((Table.junction p.name t.name).link (itemKey p.name)) := by
    intro id hid
    rw [hids] at hid
    exact of_decide_eq_true (List.mem_filter.1 hid).2
  have howned : s.Owned none emptied :=
    hemptied ▸ h.owned_removedAll hp hitem ho ids fun _ _ => List.not_mem_nil
  have hleaves : Leaves c s slot before emptied :=
    hemptied ▸ h.leaves_removedAll ho hk hp hitem hslot hlink rfl hheldIds
  obtain ⟨ha, hleaves', hafterRows⟩ := h.wrote_members hslot ⟨ht, hn, hp, hitem, hj, hlink, hrows⟩ howned
    hleaves.counted hafter
  refine ⟨hleaves.trans hleaves', ha, ?_, fun name id howns => ?_⟩
  · -- the list is empty before the new members are added
    have hheld : emptied.held ((Table.junction p.name t.name).link (itemKey p.name)) = [] := by
      rw [hemptied, show before.removedAll s.infos p.name ids = before.removedAll s.infos p.info.name ids from rfl,
        held_removedAll h.ownership ho.sound (mem_infos hp) hconfig hleaf hl rfl ids]
      refine List.filter_eq_nil_iff.2 fun id hid hkept => of_decide_eq_true hkept ?_
      rw [hids]
      exact List.mem_filter.2 ⟨ho.mem_ids h.ownership hl hid, decide_eq_true hid⟩
    have hempty : slot.rows emptied = [] := by
      rw [hrows, h.rows_of_link hslot howned.sound hlink rfl, hheld]
      simp
    rw [hafterRows, hempty, List.nil_append]
    unfold CompiledSchema.written
    rw [hs]
  · obtain ⟨rfl, hheld, hid⟩ := h.exists_of_owns hslot ho hlink howns
    refine hleaves'.gone hp hitem (fun hkept => ?_) (Int.le_trans (hk.ids p hp hconfig id hid) (hleaves.sequence p.name))
    obtain ⟨row, hr, hrid⟩ := List.mem_map.1 hkept
    have hself := rowsOf_removedAll_self h.layout ho.sound (mem_infos hp) (h.parent_ne hp) ids
    rw [hemptied, show (before.removedAll s.infos p.name ids).rowsOf p.name = _ from hself] at hr
    refine of_decide_eq_true (List.mem_filter.1 hr).2 ?_
    rw [hrid, hids]
    exact List.mem_filter.2 ⟨hid, decide_eq_true hheld⟩

/-! ## Every write -/

/-- A list has its names. -/
theorem isList (h : Regular c s) (hslot : slot ∈ s.slots) {table : String} {item : Table} {scalarItems : Bool}
    (hs : slot.storage = .list table item scalarItems) : ∃ t, t.name = table ∧ IsList c s slot t item := by
  obtain ⟨t, ht, hname, hn, hp, hitem, hj⟩ := h.list hslot hs
  exact ⟨t, hname, ht, hn, hp, hitem, hj, hname ▸ Slot.link?_list hs s.tables, Slot.rows_list hs⟩

/-- **A write that runs through** gives its slot the rows of the value, and leaves all others as they were. -/
theorem wrote (h : Regular c s) (hslot : slot ∈ s.slots) {path : String} {steps : List WriteStep}
    (hsteps : writeSteps path slot.storage value = .ok steps) (ho : s.Owned none before) (hk : s.Counted before)
    (hafter : s.write slot value before = some after) : Wrote c s slot value before after := by
  have ho' : s.Owned none (Store.ofContent before).content := ho
  have ha := (h.leads hslot hsteps ho' none).2 after hafter
  unfold CompiledSchema.write at hafter
  cases hs : slot.storage with
  | scalar table column =>
    rw [hs] at hafter
    cases hafter
    exact h.wrote_scalar hslot hs ho hk rfl ha
  | reference table column target =>
    rw [hs] at hafter hsteps
    cases value with
    | obj members => exact h.wrote_reference hslot hs ho hk hafter ha
    | _ => cases hsteps
  | list table item scalarItems =>
    rw [hs] at hafter hsteps
    obtain ⟨t, rfl, hlist⟩ := h.isList hslot hs
    cases value with
    | arr elements => exact h.wrote_list hslot hlist hs ho hk hafter
    | _ => cases hsteps

/-- A write runs through as long as there are identifiers left. -/
theorem isSome_write (h : Regular c s) (hslot : slot ∈ s.slots) {path : String} {steps : List WriteStep}
    (hsteps : writeSteps path slot.storage value = .ok steps) (ho : s.Owned none before) (hk : s.Counted before) :
    (s.write slot value before).isSome = true ↔ slot.HasRoom value before := by
  unfold CompiledSchema.write Slot.HasRoom
  cases hs : slot.storage with
  | scalar table column => exact ⟨fun _ => ⟨⟩, fun _ => rfl⟩
  | reference table column target =>
    rw [hs] at hsteps
    obtain ⟨-, -, -, -, hp, hitem, -⟩ := h.reference hslot hs
    have hused := usedId_eq hk hp (h.leaf hp hitem).2
    have hmax := hk.le target.name
    cases value with
    | obj members =>
      unfold CompiledSchema.replaced
      dsimp only
      rw [hused]
      split
      · rename_i hfull
        exact ⟨fun hsome => (nomatch hsome), fun hroom => absurd hfull (Int.ne_of_lt hroom)⟩
      · rename_i hroom
        exact ⟨fun _ => by omega, fun _ => rfl⟩
    | _ => cases hsteps
  | list table item scalarItems =>
    rw [hs] at hsteps
    obtain ⟨t, rfl, hlist⟩ := h.isList hslot hs
    cases value with
    | arr elements =>
      have howned : s.Owned none (s.withoutMembers before item.name t.name) :=
        h.owned_removedAll hlist.item hlist.isItem ho _ fun _ _ => List.not_mem_nil
      have hleaves : Leaves c s slot before (s.withoutMembers before item.name t.name) :=
        h.leaves_removedAll ho hk hlist.item hlist.isItem hslot hlist.link rfl fun id hid =>
          of_decide_eq_true (List.mem_filter.1 hid).2
      have hsequence : ∀ name, (s.withoutMembers before item.name t.name).sequence name = before.sequence name :=
        fun name => sequence_removedAll ..
      refine (h.isSome_addMembers hslot hlist howned hleaves.counted).trans ?_
      rw [hsequence, hsequence]
    | _ => cases hsteps

end Regular

end GuardedConfig.Schema
