import GuardedConfig.Proofs.Serving

/-!
# `Proofs.RoundTrip` — a field is read as it was set

In a registry that has been loaded from plain declarations without triggers, a value that can be bound can be set, as
long as the tables for items have identifiers left. The field is then read as the rows of that value, whatever has been
requested before, and all other fields are read as they were.

## Contents

* `Since`, `Serves.since` — what has become of the rows that a slot owned
* `set_single_row` — scalars and references
* `set_members` — lists
* `set_leaves_others` — the other fields
-/

namespace GuardedConfig

open Schema Sql
open Plan (itemMembers)

/-! ## Rows of earlier values -/

/-- What has become of the rows that a slot owned in a table: those that are left are still its own. -/
structure Schema.Slot.Since (slot : Slot) (name : String) (before after : Content) : Prop where
  sequence : before.sequence name ≤ after.sequence name
  owns : ∀ id, (name, id) ∈ slot.owns before → id ∈ after.idsOf name → (name, id) ∈ slot.owns after

namespace Registry.Serves

variable {c : Catalog} {s : CompiledSchema} {earlier r : Registry} {slot other : Slot} {p : Table} {value : Json}
  {before after : Content}

/-- What a slot owns has an identifier that has been used. -/
theorem le_sequence_of_owns (h : Regular c s) (hr : r.Serves s) (hslot : slot ∈ s.slots) (hp : p ∈ s.tables)
    (hitem : c.IsItem p.name) {id : Int} (howns : (p.name, id) ∈ slot.owns r.store.content) :
    id ≤ r.store.content.sequence p.name := by
  obtain ⟨link, hlink⟩ : ∃ link, slot.link? s.tables = some link := by
    cases hlink : slot.link? s.tables with
    | some link => exact ⟨link, rfl⟩
    | none =>
      rw [h.owns_eq hslot hr.content.sound, hlink] at howns
      cases howns
  obtain ⟨hname, -, hid⟩ := h.exists_of_owns hslot hr.content hlink howns
  exact hr.counted.ids p hp (h.leaf hp hitem).2 id (hname ▸ hid)

/-- A row that a slot owned and that is there after a write was there before: new rows get new identifiers. -/
theorem exists_before (h : Regular c s) (hr : earlier.Serves s) (hslot : slot ∈ s.slots) (hp : p ∈ s.tables)
    (hitem : c.IsItem p.name) (hsince : slot.Since p.name earlier.store.content before)
    (hwrote : Wrote c s other value before after) {id : Int} (howns : (p.name, id) ∈ slot.owns earlier.store.content)
    (hid : id ∈ after.idsOf p.name) : id ∈ before.idsOf p.name := by
  have hused := le_sequence_of_owns h hr hslot hp hitem howns
  refine (hwrote.ids p hp hitem id hid).resolve_right fun hnew => ?_
  have := hsince.sequence
  omega

/-- A write of the slot itself leaves none of its earlier rows. -/
theorem gone_of_wrote (h : Regular c s) (hr : earlier.Serves s) (hslot : slot ∈ s.slots) (hp : p ∈ s.tables)
    (hitem : c.IsItem p.name) (hsince : slot.Since p.name earlier.store.content before)
    (hwrote : Wrote c s slot value before after) {id : Int} (howns : (p.name, id) ∈ slot.owns earlier.store.content) :
    id ∉ after.idsOf p.name := fun hid =>
  hwrote.gone p.name id (hsince.owns id howns (exists_before h hr hslot hp hitem hsince hwrote howns hid)) hid

/-- A write of any slot leaves earlier rows to the slot, or takes them away. -/
theorem since_wrote (h : Regular c s) (hr : earlier.Serves s) (hslot : slot ∈ s.slots) (hp : p ∈ s.tables)
    (hitem : c.IsItem p.name) (hsince : slot.Since p.name earlier.store.content before)
    (hwrote : Wrote c s other value before after) : slot.Since p.name earlier.store.content after where
  sequence := Int.le_trans hsince.sequence (hwrote.sequence p.name)
  owns id howns hid := by
    by_cases he : slot = other
    · subst he
      exact absurd hid (gone_of_wrote h hr hslot hp hitem hsince hwrote howns)
    · rw [(hwrote.others slot hslot he).owns]
      exact hsince.owns id howns (exists_before h hr hslot hp hitem hsince hwrote howns hid)

/-- Rows of earlier values that are left are still owned. -/
theorem since (h : Regular c s) (hr : earlier.Serves s) (hlater : earlier.Later r) (hslot : slot ∈ s.slots)
    (hp : p ∈ s.tables) (hitem : c.IsItem p.name) :
    r.Serves s ∧ slot.Since p.name earlier.store.content r.store.content := by
  induction hlater with
  | refl => exact ⟨hr, Int.le_refl _, fun _ howns _ => howns⟩
  | request request _ ih =>
    obtain ⟨hserves, hsince⟩ := ih
    obtain ⟨hnext, hunchanged | ⟨other, -, value, hwrote⟩⟩ := hserves.request h request
    · exact ⟨hnext, hunchanged ▸ hsince⟩
    · exact ⟨hnext, since_wrote h hr hslot hp hitem hsince hwrote⟩

/-! ## Setting a field -/

/-- A field that has been set is read and viewed as the rows of the value. -/
theorem reads_of_set (h : Regular c s) (hr : r.Serves s) (hslot : slot ∈ s.slots)
    (hok : (outcome (Request.set slot.path value).run r).1.isOk = true) :
    (outcome (view slot.path) (outcome (Request.set slot.path value).run r).2).1 = .ok (s.written slot value) ∧
      (outcome (getField slot.path) (outcome (Request.set slot.path value).run r).2).1 = .ok (s.written slot value) := by
  obtain ⟨hwrote, p, hp, -, hbound, -⟩ := of_set_succeeded h hr hslot hok
  obtain ⟨hserves, -⟩ := hr.request h (.set slot.path value)
  rw [view_outcome h hserves hslot hp hbound, getField_outcome h hserves hslot, hwrote.rows]
  exact ⟨rfl, rfl⟩

/-- A field that could not be set is read as before. -/
theorem reads_of_set_failed (h : Regular c s) (hr : r.Serves s) (hslot : slot ∈ s.slots)
    (hfailed : (outcome (Request.set slot.path value).run r).1.isOk = false) :
    (outcome (getField slot.path) (outcome (Request.set slot.path value).run r).2).1 =
      (outcome (getField slot.path) r).1 := by
  obtain ⟨hserves, -⟩ := hr.request h (.set slot.path value)
  rw [getField_outcome h hserves hslot, getField_outcome h hr hslot, content_of_set_failed h hr hslot hfailed]

/-- Executing a field again that has been set gives the same rows. -/
theorem reads_of_execute (h : Regular c s) (hr : r.Serves s) (hslot : slot ∈ s.slots) {plan : Plan}
    (hp : lookup slot.path r.plans = some plan) (hbound : plan.bound = true)
    (hsteps : Plan.writeSteps plan.path plan.slot.storage value = .ok plan.writes)
    (hrows : slot.rows r.store.content = s.written slot value) :
    ((outcome (Request.execute slot.path).run r).1.isOk = true ↔ slot.HasRoom value r.store.content) ∧
      (outcome (getField slot.path) (outcome (Request.execute slot.path).run r).2).1 = .ok (s.written slot value) := by
  obtain rfl : plan.slot = slot := h.described.eq_of_path (hr.plans _ plan hp).1 hslot (hr.routed.slot _ plan hp).2
  have hends := ends_execute h hr hp hbound hsteps
  obtain ⟨hserves, -⟩ := hr.request h (.execute plan.slot.path)
  refine ⟨by rw [hends.result, h.isSome_write hslot hsteps hr.content hr.counted], ?_⟩
  rw [getField_outcome h hserves hslot, hends.content]
  cases hafter : s.write plan.slot value r.store.content with
  | none => rw [Option.getD_none, hrows]
  | some content => rw [Option.getD_some, (h.wrote hslot hsteps hr.content hr.counted hafter).rows]

/-- Setting one field leaves what another one is read as, whether or not it succeeds. -/
theorem reads_of_set_other (h : Regular c s) (hr : r.Serves s) (hslot : slot ∈ s.slots) (hother : other ∈ s.slots)
    (hne : other ≠ slot) :
    (outcome (getField other.path) (outcome (Request.set slot.path value).run r).2).1 =
      .ok (other.rows r.store.content) := by
  obtain ⟨hserves, -⟩ := hr.request h (.set slot.path value)
  rw [getField_outcome h hserves hother]
  cases hresult : (outcome (Request.set slot.path value).run r).1.isOk with
  | false => rw [content_of_set_failed h hr hslot hresult]
  | true =>
    obtain ⟨hwrote, -⟩ := of_set_succeeded h hr hslot hresult
    rw [(hwrote.others other hother hne).rows]

end Registry.Serves

/-! ## Reachable registries -/

section

variable {a : Artifact} {store : Store} {s : CompiledSchema} {r : Registry} {slot other : Slot}

/-- **A scalar or a reference that is set is read as the one row of its value.** Setting it succeeds exactly if the
value can be bound and, for a reference, its table has an identifier left for the new row; if it fails, the field is
read as before. -/
theorem set_single_row (hstore : store.IsEmpty) (hok : Schema.compile a.declarations = .ok s) (hp : s.Plain)
    (htriggers : a.declarations.triggers = []) (hr : Registry.Reachable a store r) (hslot : slot ∈ s.slots)
    (hsingle : ∀ table item scalarItems, slot.storage ≠ .list table item scalarItems) (value : Json) :
    let (result, after) := outcome (Request.set slot.path value).run r
    (result.isOk = true ↔
        (outcome (Registry.bind slot.path value) r).1.isOk = true ∧ slot.HasRoom value r.store.content) ∧
      (result.isOk = true → ∃ row, s.written slot value = [row] ∧
        (outcome (Registry.view slot.path) after).1 = .ok [row] ∧
        (outcome (Registry.getField slot.path) after).1 = .ok [row]) ∧
      (result.isOk = false →
        (outcome (Registry.getField slot.path) after).1 = (outcome (Registry.getField slot.path) r).1) := by
  obtain ⟨c, hregular, hserves⟩ := hr.serves hstore hok hp htriggers
  refine ⟨hserves.isOk_set hregular hslot, fun hset => ?_, hserves.reads_of_set_failed hregular hslot⟩
  obtain ⟨hview, hget⟩ := hserves.reads_of_set hregular hslot hset
  obtain ⟨row, hrow⟩ : ∃ row, s.written slot value = [row] := by
    obtain ⟨writes, hsteps⟩ := (hserves.isOk_bind hregular hslot value).1
      ((hserves.isOk_set hregular hslot).1 hset).1
    unfold CompiledSchema.written
    cases hs : slot.storage with
    | scalar table column => exact ⟨_, rfl⟩
    | reference table column target =>
      rw [hs] at hsteps
      cases value with
      | obj members => exact ⟨_, rfl⟩
      | _ => cases hsteps
    | list table item scalarItems => exact absurd hs (hsingle table item scalarItems)
  exact ⟨row, hrow, hrow ▸ hview, hrow ▸ hget⟩

/-- The owner of a server is a reference. -/
theorem set_single_row_owner : ∃ r, Registry.Reachable serverArtifact (.ofContent {}) r ∧
    let (result, after) := outcome (Request.set "Server.owner" (.obj [("name", .str "Ada")])).run r
    result.isOk = true ∧
      (outcome (Registry.getField "Server.owner") after).1 = .ok [.obj [("name", .str "Ada")]] := by
  obtain ⟨r, after, hload⟩ := load_server
  obtain ⟨c, hregular, hserves, hfew⟩ := Registry.serves_of_load isEmpty_new compile_server plain_server rfl hload
  let slot : Slot := ⟨"Server", "owner", .reference "Server" "owner" commandTable⟩
  have hslot : slot ∈ serverSchema.slots := by decide
  obtain ⟨hiff, hrow, -⟩ := set_single_row isEmpty_new compile_server plain_server rfl (.load hload) hslot
    (fun _ _ _ => nofun) (.obj [("name", .str "Ada")])
  have hset := hiff.2 ⟨(hserves.isOk_bind hregular hslot _).2 ⟨_, rfl⟩, Int.lt_of_le_of_lt (hfew "Command") (by decide)⟩
  obtain ⟨row, hwritten, -, hget⟩ := hrow hset
  cases hwritten
  exact ⟨r, .load hload, hset, hget⟩

/-- **A list that is set is read as the rows of its elements, in their order.** Setting it succeeds exactly if the
value can be bound and there are identifiers left for its rows. No row of an earlier value of the list is left, and
executing the field again gives the same rows. -/
theorem set_members (hstore : store.IsEmpty) (hok : Schema.compile a.declarations = .ok s) (hp : s.Plain)
    (htriggers : a.declarations.triggers = []) (hr : Registry.Reachable a store r) (hslot : slot ∈ s.slots)
    {table : String} {item : Table} {scalarItems : Bool} (hlist : slot.storage = .list table item scalarItems)
    (elements : List Json) :
    let (result, after) := outcome (Request.set slot.path (.arr elements)).run r
    let rows := elements.map fun element => item.written (itemMembers element)
    (result.isOk = true ↔
        (outcome (Registry.bind slot.path (.arr elements)) r).1.isOk = true ∧
          slot.HasRoom (.arr elements) r.store.content) ∧
      (result.isOk = true →
        (outcome (Registry.getField slot.path) after).1 = .ok rows ∧
        (∀ earlier, Registry.Reachable a store earlier → earlier.Later r →
          ∀ id, (item.name, id) ∈ slot.owns earlier.store.content → id ∉ after.store.content.idsOf item.name) ∧
        let (again, last) := outcome (Request.execute slot.path).run after
        (again.isOk = true ↔ slot.HasRoom (.arr elements) after.store.content) ∧
          (outcome (Registry.getField slot.path) last).1 = .ok rows) := by
  obtain ⟨c, hregular, hserves⟩ := hr.serves hstore hok hp htriggers
  have hrows : s.written slot (.arr elements) = elements.map fun element => item.written (itemMembers element) := by
    unfold CompiledSchema.written
    rw [hlist]
  refine ⟨hserves.isOk_set hregular hslot, fun hset => ?_⟩
  obtain ⟨hwrote, plan, hplan, -, hbound, hsteps⟩ := hserves.of_set_succeeded hregular hslot hset
  obtain ⟨hafter, -⟩ := hserves.request hregular (.set slot.path (.arr elements))
  refine ⟨hrows ▸ (hserves.reads_of_set hregular hslot hset).2, fun earlier hearlier hlater id howns => ?_,
    hrows ▸ hafter.reads_of_execute hregular hslot hplan hbound hsteps hwrote.rows⟩
  -- a row of an earlier value was either taken away before, or it was still owned and is deleted now
  obtain ⟨_, -, hearlierServes⟩ := hearlier.serves hstore hok hp htriggers
  obtain ⟨_, -, hitems⟩ := hregular.isList hslot hlist
  obtain ⟨-, hsince⟩ := hearlierServes.since hregular hlater hslot hitems.item hitems.isItem
  exact hearlierServes.gone_of_wrote hregular hslot hitems.item hitems.isItem hsince hwrote howns

/-- The commands of a server are a list. -/
theorem set_members_commands : ∃ r, Registry.Reachable serverArtifact (.ofContent {}) r ∧
    let (result, after) := outcome (Request.set "Server.commands"
      (.arr [.obj [("name", .str "start")], .obj []])).run r
    result.isOk = true ∧ (outcome (Registry.getField "Server.commands") after).1 =
      .ok [.obj [("name", .str "start")], .obj [("name", .null)]] := by
  obtain ⟨r, after, hload⟩ := load_server
  obtain ⟨c, hregular, hserves, hfew⟩ := Registry.serves_of_load isEmpty_new compile_server plain_server rfl hload
  let slot : Slot := ⟨"Server", "commands", .list "Server" commandTable false⟩
  have hslot : slot ∈ serverSchema.slots := by decide
  obtain ⟨hiff, hrows⟩ := set_members isEmpty_new compile_server plain_server rfl (.load hload) hslot rfl
    [.obj [("name", .str "start")], .obj []]
  have hroom : ∀ name, r.store.content.sequence name + 2 ≤ Decimal.maxInt := fun name =>
    Int.le_trans (Int.add_le_add_right (hfew name) 2) (by decide)
  have hset := hiff.2 ⟨(hserves.isOk_bind hregular hslot _).2 ⟨_, rfl⟩, hroom _, hroom _⟩
  exact ⟨r, .load hload, hset, (hrows hset).1⟩

/-- **Setting one field leaves all others**, whether or not it succeeds: they are read as the same rows in the same
order, also where they share a table for items. -/
theorem set_leaves_others (hstore : store.IsEmpty) (hok : Schema.compile a.declarations = .ok s) (hp : s.Plain)
    (htriggers : a.declarations.triggers = []) (hr : Registry.Reachable a store r) (hslot : slot ∈ s.slots)
    (hother : other ∈ s.slots) (hne : slot.path ≠ other.path) (value : Json) :
    ∃ rows, (outcome (Registry.getField other.path) r).1 = .ok rows ∧
      (outcome (Registry.getField other.path) (outcome (Request.set slot.path value).run r).2).1 = .ok rows := by
  obtain ⟨c, hregular, hserves⟩ := hr.serves hstore hok hp htriggers
  refine ⟨other.rows r.store.content, by rw [hserves.getField_outcome hregular hother], ?_⟩
  exact hserves.reads_of_set_other hregular hslot hother fun he => hne (he ▸ rfl)

/-- The commands of a server stay when its owner is set, who has the same table. -/
theorem set_leaves_others_commands : ∃ r, Registry.Reachable serverArtifact (.ofContent {}) r ∧
    ∃ rows, (outcome (Registry.getField "Server.commands") r).1 = .ok rows ∧
      (outcome (Registry.getField "Server.commands")
        (outcome (Request.set "Server.owner" (.obj [("name", .str "Ada")])).run r).2).1 = .ok rows := by
  obtain ⟨r, after, hload⟩ := load_server
  have hr := Registry.Reachable.load hload
  have howner : ⟨"Server", "owner", .reference "Server" "owner" commandTable⟩ ∈ serverSchema.slots := by decide
  have hcommands : ⟨"Server", "commands", .list "Server" commandTable false⟩ ∈ serverSchema.slots := by decide
  exact ⟨r, hr, set_leaves_others isEmpty_new compile_server plain_server rfl hr howner hcommands (by decide) _⟩

end

end GuardedConfig
