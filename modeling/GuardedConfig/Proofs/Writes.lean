import GuardedConfig.Plan
import GuardedConfig.Proofs.Members
import GuardedConfig.Proofs.Savepoint

/-!
# `Proofs.Writes` — what a write does to the tables

A write runs its steps one after the other. On a content where every row has its owner, only an insertion into a
full table can fail; otherwise the write leads to a content that is known, where every row has its owner again.

## Contents

* `Plan.Leads` — where steps lead, unless a table is full
* `Content.addMembers`, `CompiledSchema.replaced`, `CompiledSchema.write` — the contents
* `leads_members`, `leads_list`, `leads_scalar`, `leads_reference`
* `Regular.leads` — every write of a slot
-/

namespace GuardedConfig

open Schema Sql
open Decimal (maxInt)

namespace Plan

/-! ## Steps -/

/-- Some steps lead to a content, whatever steps follow; or one of them fails. -/
def Leads (captured : Option Int) (steps : List WriteStep) (store : Store) : Option Content → Prop
  | some content => ∃ captured' store', store'.content = content ∧
      ∀ rest, outcome (runWrites captured (steps ++ rest)) store = outcome (runWrites captured' rest) store'
  | none => ∀ rest, ∃ e after, outcome (runWrites captured (steps ++ rest)) store = (.error e, after)

variable {captured : Option Int} {steps : List WriteStep} {store : Store} {command : Command} {params : List Value}

/-- Values are parameters whatever has been captured. -/
theorem resolve_of_params (h : command.params = params.map .value) (captured : Option Int) :
    resolve captured command = .ok params := by
  unfold resolve
  rw [h, List.mapM_map]
  exact (mapM_eq_ok (g := id) fun v _ => rfl).trans (by rw [List.map_id])

theorem runWrites_execute (hparams : resolve captured command = .ok params) :
    outcome (runWrites captured (.execute command :: steps)) store =
      match store.session.perform command.statement params with
      | (.ok _, session) => outcome (runWrites captured steps) { store with session }
      | (.error fault, session) => (.error (.store fault), { store with session }) := by
  have hperform := Store.onSession_outcome (fun session => session.perform command.statement params) store
  rw [runWrites, hparams, outcome_bind_ok (outcome_ofExcept (.ok params) store), outcome_bind]
  unfold Store.perform
  rw [hperform]
  rcases store.session.perform command.statement params with ⟨_ | _, session⟩ <;> rfl

theorem runWrites_execute_ok (hparams : resolve captured command = .ok params) {result : Sql.Result} {session : Session}
    (h : store.session.perform command.statement params = (.ok result, session)) :
    outcome (runWrites captured (.execute command :: steps)) store =
      outcome (runWrites captured steps) { store with session } := by
  rw [runWrites_execute hparams, h]

theorem runWrites_execute_error (hparams : resolve captured command = .ok params) {fault : Sql.Fault}
    (h : (store.session.perform command.statement params).1 = .error fault) :
    ∃ e after, outcome (runWrites captured (.execute command :: steps)) store = (.error e, after) := by
  rw [runWrites_execute hparams]
  revert h
  rcases store.session.perform command.statement params with ⟨_ | _, session⟩ <;> intro h
  · exact ⟨_, _, rfl⟩
  · cases h

theorem runWrites_captureRowId : outcome (runWrites captured (.captureRowId :: steps)) store =
    outcome (runWrites (some store.lastRowId) steps) store := by
  rw [runWrites, outcome_bind_ok (outcome_get store)]

namespace Leads

theorem nil : Leads captured [] store (some store.content) := ⟨captured, store, rfl, fun _ => rfl⟩

/-- A statement that leads to a content. -/
theorem execute (hparams : resolve captured command = .ok params) {session : Session} {result : Sql.Result}
    (h : store.session.perform command.statement params = (.ok result, session)) :
    Leads captured [.execute command] store (some session.content) :=
  ⟨captured, { store with session }, rfl, fun _ => runWrites_execute_ok hparams h⟩

/-- Steps that follow others. -/
theorem append {steps' : List WriteStep} {content : Content} {result : Option Content}
    (h : Leads captured steps store (some content))
    (h' : ∀ captured' store', store'.content = content → Leads captured' steps' store' result) :
    Leads captured (steps ++ steps') store result := by
  obtain ⟨captured', store', hcontent, hrun⟩ := h
  have hnext := h' captured' store' hcontent
  cases result with
  | none =>
    intro rest
    rw [List.append_assoc, hrun]
    exact hnext rest
  | some final =>
    obtain ⟨captured'', store'', hfinal, hrun'⟩ := hnext
    refine ⟨captured'', store'', hfinal, fun rest => ?_⟩
    rw [List.append_assoc, hrun, hrun']

/-- Steps that run like others lead where these lead. -/
theorem of_run {captured' : Option Int} {steps' : List WriteStep} {store' : Store} {result : Option Content}
    (h : Leads captured' steps' store' result)
    (hrun : ∀ rest, outcome (runWrites captured (steps ++ rest)) store =
      outcome (runWrites captured' (steps' ++ rest)) store') : Leads captured steps store result := by
  cases result with
  | none =>
    intro rest
    rw [hrun]
    exact h rest
  | some content =>
    obtain ⟨captured'', store'', hcontent, hrun'⟩ := h
    exact ⟨captured'', store'', hcontent, fun rest => (hrun rest).trans (hrun' rest)⟩

theorem congr {result result' : Option Content} (h : Leads captured steps store result) (hresult : result = result') :
    Leads captured steps store result' := hresult ▸ h

/-- Steps that fail keep others from being run. -/
theorem append_of_none (h : Leads captured steps store none) (steps' : List WriteStep) :
    Leads captured (steps ++ steps') store none := by
  intro rest
  rw [List.append_assoc]
  exact h (steps' ++ rest)

/-- All steps of a write succeed exactly if they lead to a content, which is then that of the store. -/
theorem outcome_eq {result : Option Content} (h : Leads captured steps store result) :
    match result with
    | some content => ∃ after, outcome (runWrites captured steps) store = (.ok (), after) ∧ after.content = content
    | none => ∃ e after, outcome (runWrites captured steps) store = (.error e, after) := by
  cases result with
  | none =>
    have hrun := h []
    rw [List.append_nil] at hrun
    exact hrun
  | some content =>
    obtain ⟨captured', store', hcontent, hrun⟩ := h
    have hrun := hrun []
    rw [List.append_nil] at hrun
    exact ⟨store', hrun, hcontent⟩

end Leads

end Plan

/-! ## Contents -/

/-- The content with a new member of a list, unless one of the tables is full. -/
def Sql.Content.addMember (content : Content) (item : Table) (owner : String) (members : List (String × Json)) :
    Option Content :=
  let added := content.addItem item members
  if content.usedId item.name = maxInt ∨ added.usedId (junctionName item.name owner) = maxInt then none
  else some (added.addLink item.name owner (content.usedId item.name + 1))

/-- The content with new members of a list, unless one of the tables is full. -/
def Sql.Content.addMembers (content : Content) (item : Table) (owner : String) (elements : List Json) : Option Content :=
  elements.foldlM (fun content element => content.addMember item owner (Plan.itemMembers element)) content

/-- The content once the members of a list are deleted. -/
def Schema.CompiledSchema.withoutMembers (s : CompiledSchema) (content : Content) (item owner : String) : Content :=
  content.removedAll s.infos item ((content.idsOf item).filter (· ∈ content.members item owner))

/-- The content with a value in a column of a config. -/
def Schema.CompiledSchema.assigned (s : CompiledSchema) (content : Content) (table column : String) (v : Value) : Content :=
  match s.tables.find? (·.name = table) with
  | some t => content.onRows table (·.map (t.info.assign (Plan.placeOf t column) v))
  | none => content

/-- The identifiers that the column of a reference holds. -/
def Schema.CompiledSchema.referred (s : CompiledSchema) (content : Content) (table column target : String) : List Int :=
  match s.tables.find? (·.name = table) with
  | some t => content.held (t.link ⟨column, target, some .setNull⟩)
  | none => []

/-- The content where a reference holds a new row in place of the one that it held, unless the table is full. -/
def Schema.CompiledSchema.replaced (s : CompiledSchema) (content : Content) (table column : String) (target : Table)
    (members : List (String × Json)) : Option Content :=
  let added := content.addItem target members
  let released := added.removedAll s.infos target.name (s.referred added table column target.name)
  if content.usedId target.name = maxInt then none
  else some (s.assigned released table column (.integer (content.usedId target.name + 1)))

/-- The content once a value is written to a slot, unless a table is full. -/
def Schema.CompiledSchema.write (s : CompiledSchema) (slot : Slot) (value : Json) (content : Content) : Option Content :=
  match slot.storage, value with
  | .scalar table column, value => some (s.assigned content table column (Plan.storedOf value))
  | .reference table column target, .obj members => s.replaced content table column target members
  | .list table item _, .arr elements => (s.withoutMembers content item.name table).addMembers item table elements
  | _, _ => some content

namespace Schema.Regular

open Plan

variable {c : Catalog} {s : CompiledSchema} {t p : Table} {slot : Slot} {store : Store} {captured : Option Int}
  {steps : List WriteStep} {members : List (String × Json)}

/-! ## Members of a list -/

/-- The steps of an element of a list add it as a member. -/
theorem leads_member (h : Regular c s) (ht : t ∈ s.tables) (hn : t.name ∈ s.configs) (hp : p ∈ s.tables)
    (hitem : c.IsItem p.name) (hj : Table.junction p.name t.name ∈ s.tables) (ho : s.Owned none store.content)
    {insert : Command} (hinsert : insertRow p members = .ok insert) (captured : Option Int) :
    Leads captured [.execute insert, .captureRowId, .execute (linkRow t.name p)] store
        (store.content.addMember p t.name members) ∧
      ∀ content ∈ store.content.addMember p t.name members, s.Owned none content := by
  have ho' : s.Owned none store.session.content := ho
  obtain ⟨params, hparams, hfull, hroom⟩ := h.perform_insertItem hp hitem ho' hinsert
  have hresolve := resolve_of_params hparams captured
  unfold Content.addMember
  dsimp only
  by_cases hitemFull : store.content.usedId p.name = maxInt
  · rw [if_pos (.inl hitemFull)]
    exact ⟨fun _ => runWrites_execute_error hresolve (hfull hitemFull), fun _ hcontent => nomatch hcontent⟩
  obtain ⟨hperform, howned⟩ := hroom hitemFull
  let inserted : Store := { store with session := { store.session with
    content := store.content.addItem p members, lastRowId := store.content.usedId p.name + 1, changes := 1 } }
  have hinserted : ∀ rest, outcome (runWrites captured
      ([.execute insert, .captureRowId, .execute (linkRow t.name p)] ++ rest)) store =
        outcome (runWrites (some (store.content.usedId p.name + 1)) ([.execute (linkRow t.name p)] ++ rest)) inserted :=
    fun rest => (runWrites_execute_ok hresolve hperform).trans runWrites_captureRowId
  have howned : s.Owned (some (p.name, store.content.usedId p.name + 1)) inserted.session.content := howned
  obtain ⟨hlinkFull, hlinkRoom⟩ := h.perform_linkRow ht hn hp hitem hj howned
  by_cases hfull' : (store.content.addItem p members).usedId (junctionName p.name t.name) = maxInt
  · rw [if_pos (.inr hfull')]
    refine ⟨Leads.of_run (fun rest => ?_) hinserted, fun _ hcontent => nomatch hcontent⟩
    exact runWrites_execute_error rfl (hlinkFull hfull')
  · rw [if_neg (not_or.2 ⟨hitemFull, hfull'⟩)]
    obtain ⟨hlink, hlinked⟩ := hlinkRoom hfull'
    refine ⟨(Leads.execute rfl hlink).of_run hinserted, fun content hcontent => ?_⟩
    cases hcontent
    exact hlinked

/-- The steps of the elements of a list add them as members. -/
theorem leads_members (h : Regular c s) (ht : t ∈ s.tables) (hn : t.name ∈ s.configs) (hp : p ∈ s.tables)
    (hitem : c.IsItem p.name) (hj : Table.junction p.name t.name ∈ s.tables) {path : String} {scalarItems : Bool}
    {value : Json} {elements : List Json} {memberSteps : List (List WriteStep)}
    (hsteps : elements.mapM (Plan.memberSteps path t.name p scalarItems value) = .ok memberSteps)
    (ho : s.Owned none store.content) (captured : Option Int) :
    Leads captured memberSteps.flatten store (store.content.addMembers p t.name elements) ∧
      ∀ content ∈ store.content.addMembers p t.name elements, s.Owned none content := by
  rw [mapM_eq_ok_iff] at hsteps
  unfold Content.addMembers
  induction hsteps generalizing store captured with
  | nil =>
    refine ⟨.nil, fun content hcontent => ?_⟩
    cases hcontent
    exact ho
  | @cons element steps elements memberSteps hstep _ ih =>
    obtain ⟨insert, hinsert, rfl⟩ := memberSteps_eq_ok hstep
    obtain ⟨hlead, howned⟩ := h.leads_member ht hn hp hitem hj ho hinsert captured
    rw [List.foldlM_cons, List.flatten_cons]
    cases hadd : store.content.addMember p t.name (itemMembers element) with
    | none =>
      rw [hadd] at hlead
      exact ⟨hlead.append_of_none _, fun _ hcontent => nomatch hcontent⟩
    | some content =>
      rw [hadd] at hlead howned
      refine ⟨hlead.append fun captured' store' hstore => ?_, fun final hfinal => ?_⟩
      · have howned' : s.Owned none store'.content := hstore ▸ howned content rfl
        have hnext := (ih howned' captured').1
        rw [hstore] at hnext
        exact hnext
      · have howned' : s.Owned none (Store.ofContent content).content := howned content rfl
        exact (ih howned' none).2 final hfinal

/-- The steps of a list replace its members. -/
theorem leads_list (h : Regular c s) (ht : t ∈ s.tables) (hn : t.name ∈ s.configs) (hp : p ∈ s.tables)
    (hitem : c.IsItem p.name) (hj : Table.junction p.name t.name ∈ s.tables) {path : String} {scalarItems : Bool}
    {elements : List Json} (hsteps : writeSteps path (.list t.name p scalarItems) (.arr elements) = .ok steps)
    (ho : s.Owned none store.content) (captured : Option Int) :
    Leads captured steps store ((s.withoutMembers store.content p.name t.name).addMembers p t.name elements) ∧
      ∀ content ∈ (s.withoutMembers store.content p.name t.name).addMembers p t.name elements, s.Owned none content := by
  obtain ⟨memberSteps, hmembers, hsteps⟩ := except_bind_eq_ok.1 hsteps
  cases hsteps
  have ho' : s.Owned none store.session.content := ho
  obtain ⟨hdelete, howned⟩ := h.perform_deleteMembers hn hp hitem hj ho' rfl
  have hempty := h.rowsOf_junction_removed hn hp hitem hj ho rfl
  have hfirst : Leads captured [.execute (deleteMembers t.name p), .execute (deleteLinks t.name p)] store
      (some (s.withoutMembers store.content p.name t.name)) := by
    refine (Leads.execute rfl hdelete).append fun captured' store' hstore => ?_
    have hstore : store'.session.content = s.withoutMembers store.content p.name t.name := hstore
    have howned' : s.Owned none store'.session.content := by
      rw [hstore]
      exact howned
    have hlinks := h.perform_deleteLinks hj howned' (by rw [hstore]; exact hempty)
    have hlead : Leads captured' [.execute (deleteLinks t.name p)] store'
        (some { store'.session with changes := 0 }.content) := Leads.execute rfl hlinks
    rw [← hstore]
    exact hlead
  refine ⟨hfirst.append fun captured' store' hstore => ?_, ?_⟩
  · have howned' : s.Owned none store'.content := by
      rw [hstore]
      exact howned
    have hadd := (h.leads_members ht hn hp hitem hj hmembers howned' captured').1
    rw [hstore] at hadd
    exact hadd
  · have howned' : s.Owned none (Store.ofContent (s.withoutMembers store.content p.name t.name)).content := howned
    exact (h.leads_members ht hn hp hitem hj hmembers howned' none).2

/-! ## Scalars and references -/

/-- Only the row of a config is there to be assigned to. -/
theorem assigned_eq (h : Regular c s) (ht : t ∈ s.tables) {new : Option (String × Int)}
    {content : Content} (ho : s.Owned new content) {i : Nat} {col : Column} (hi : t.columns[i]? = some col) {row : Row}
    (hrow : content.rowsOf t.name = [row]) (v : Value) :
    s.assigned content t.name col.name v = content.onRows t.name fun rows =>
      Stored.insertRow (t.info.assign (i + 1) v row) (rows.filter (·.id != row.id)) := by
  have hcolumn : t.hasColumn col.name = true :=
    List.any_eq_true.2 ⟨col, List.mem_of_getElem? hi, beq_self_eq_true _⟩
  have hplace : placeOf t col.name = i + 1 := (placeOf_eq_iff (h.distinct t ht) hcolumn hi).2 rfl
  have hrow' : content.rowsOf t.info.name = [row] := hrow
  unfold CompiledSchema.assigned
  rw [Described.find?_name h.plain ht]
  dsimp only
  rw [hplace]
  refine Content.onRows_congr (t := t.info) (ho.sound.apart h.layout) (ho.sound.infos ▸ mem_infos ht) ?_
  rw [hrow', List.filter_cons_of_neg (by simp)]
  rfl

/-- The steps of a scalar field assign to its column. -/
theorem leads_scalar (h : Regular c s) (hslot : slot ∈ s.slots) {table column : String}
    (hs : slot.storage = .scalar table column) (ho : s.Owned none store.content) (v : Value) (captured : Option Int) :
    Leads captured [.execute (updateColumn table column (.value v))] store
        (some (s.assigned store.content table column v)) ∧
      s.Owned none (s.assigned store.content table column v) := by
  obtain ⟨t, ht, rfl, hn, i, col, hi, rfl, hlink⟩ := h.scalar hslot hs
  have ho' : s.Owned none store.session.content := ho
  obtain ⟨row, hrow, -⟩ := ho'.row_of_config (mem_infos ht) hn
  have hlength : i + 1 < t.info.columns.length := (List.getElem?_eq_some_iff.1 (getElem?_info hi)).1
  have hother : ∀ k ∈ t.info.foreignKeys, k.column ≠ i + 1 := by
    intro k' hk' he
    obtain ⟨k, hk, rfl⟩ := List.mem_map.1 hk'
    obtain ⟨j, col', hj, hname, hplace⟩ := h.place ht hk
    have hij : j = i := Nat.succ.inj (hplace.symm.trans he)
    rw [hij, hi, Option.some.injEq] at hj
    exact hlink k hk (by rw [← hname, hj])
  have howned := ho'.assign_other h.ownership (mem_infos ht) hn hrow hlength hother v
  have hperform := h.perform_updateColumn ht hn hi ho' hrow (fun k hk he => absurd he (hlink k hk)) rfl howned
    (.value v)
  rw [h.assigned_eq ht ho hi hrow v]
  exact ⟨Leads.execute rfl hperform, howned⟩

/-- The steps of a reference add a row, delete the one that the reference holds, and let it hold the new one. -/
theorem leads_reference (h : Regular c s) (hslot : slot ∈ s.slots) {table column : String} {target : Table}
    (hs : slot.storage = .reference table column target) (ho : s.Owned none store.content) {insert : Command}
    (hinsert : insertRow target members = .ok insert) (captured : Option Int) :
    Leads captured [.execute insert, .captureRowId, .execute (releaseRow table column target),
        .execute (updateColumn table column .capturedRowId)] store
        (s.replaced store.content table column target members) ∧
      ∀ content ∈ s.replaced store.content table column target members, s.Owned none content := by
  obtain ⟨t, ht, rfl, hn, hp, hitem, hk⟩ := h.reference hslot hs
  have ho' : s.Owned none store.session.content := ho
  obtain ⟨params, hparams, hfull, hroom⟩ := h.perform_insertItem hp hitem ho' hinsert
  have hresolve := resolve_of_params hparams captured
  unfold CompiledSchema.replaced
  dsimp only
  by_cases hitemFull : store.content.usedId target.name = maxInt
  · rw [if_pos hitemFull]
    exact ⟨fun _ => runWrites_execute_error hresolve (hfull hitemFull), fun _ hcontent => nomatch hcontent⟩
  rw [if_neg hitemFull]
  obtain ⟨hperform, howned⟩ := hroom hitemFull
  let id := store.content.usedId target.name + 1
  let inserted : Store := { store with session := { store.session with
    content := store.content.addItem target members, lastRowId := id, changes := 1 } }
  have howned : s.Owned (some (target.name, id)) inserted.session.content := howned
  -- the row that the reference holds is deleted
  obtain ⟨row, hrow, -⟩ := howned.row_of_config (mem_infos ht) hn
  have hids : s.referred inserted.session.content t.name column target.name = (row.value
      ((ForeignKey.mk column target.name (some .setNull)).info t.info.columns).column).id?.toList := by
    unfold CompiledSchema.referred
    rw [Described.find?_name h.plain ht]
    exact held_of_rowsOf (t.link ⟨column, target.name, some .setNull⟩) rfl hrow
  obtain ⟨hrelease, hreleased⟩ := h.perform_releaseRow ht hn hk hp rfl howned hrow hids
  obtain ⟨row', hrow', hnull⟩ := h.row_released ht hn hk hp rfl howned hrow hids hreleased
  let released : Store := { inserted with session := { inserted.session with
    content := inserted.session.content.removedAll s.infos target.name
      (s.referred inserted.session.content t.name column target.name)
    changes := (s.referred inserted.session.content t.name column target.name).length } }
  -- the reference gets to hold the new row
  obtain ⟨i, col, hi, rfl, hplace⟩ := h.place ht hk
  have hlinked := hreleased.assign_link h.ownership (mem_infos ht) hn (h.link_mem ht hk hitem) hrow' hnull
  rw [hplace] at hlinked
  have hreleased : s.Owned (some (target.name, id)) released.session.content := hreleased
  have hupdate := h.perform_updateColumn ht hn hi hreleased hrow' (fun _ _ _ => .integer id) rfl hlinked .capturedRowId
  have hlead : Leads (some id) [.execute (updateColumn t.name col.name .capturedRowId)] released (some _) :=
    Leads.execute rfl hupdate
  have hassigned := h.assigned_eq ht hreleased hi hrow' (.integer id)
  refine ⟨(hlead.of_run fun rest => ?_).congr (congrArg some hassigned.symm), fun content hcontent => ?_⟩
  · exact (runWrites_execute_ok hresolve hperform).trans
      (runWrites_captureRowId.trans (runWrites_execute_ok rfl hrelease))
  · cases hcontent
    exact hassigned ▸ hlinked

/-- **Every write of a slot leads to a content where every row has its owner, unless a table is full.** -/
theorem leads (h : Regular c s) (hslot : slot ∈ s.slots) {path : String} {value : Json}
    (hsteps : writeSteps path slot.storage value = .ok steps) (ho : s.Owned none store.content) (captured : Option Int) :
    Leads captured steps store (s.write slot value store.content) ∧
      ∀ content ∈ s.write slot value store.content, s.Owned none content := by
  unfold CompiledSchema.write
  cases hs : slot.storage with
  | scalar table column =>
    rw [hs] at hsteps
    unfold writeSteps at hsteps
    dsimp only at hsteps ⊢
    split at hsteps
    · obtain ⟨v, hv, hsteps⟩ := except_bind_eq_ok.1 hsteps
      cases hsteps
      obtain ⟨hlead, howned⟩ := h.leads_scalar hslot hs ho v captured
      have hstored : storedOf value = v := by
        unfold storedOf
        rw [hv]
        rfl
      rw [hstored]
      refine ⟨hlead, fun content hcontent => ?_⟩
      cases hcontent
      exact howned
    · cases hsteps
  | reference table column target =>
    rw [hs] at hsteps
    cases value with
    | obj members =>
      obtain ⟨insert, hinsert, hsteps⟩ := except_bind_eq_ok.1 hsteps
      cases hsteps
      exact h.leads_reference hslot hs ho hinsert captured
    | _ => cases hsteps
  | list table item scalarItems =>
    rw [hs] at hsteps
    obtain ⟨t, ht, rfl, hn, hp, hitem, hj⟩ := h.list hslot hs
    cases value with
    | arr elements => exact h.leads_list ht hn hp hitem hj hsteps ho captured
    | _ => cases hsteps

end Schema.Regular

end GuardedConfig
