import GuardedConfig.Proofs.Results

/-!
# `Proofs.Serving` — requests of a registry without triggers

Without triggers a request writes one field at most. If the value fits, the field is written as a whole, or not at all
where identifiers are used up; in all other cases the tables stay as they are.

## Contents

* `Described.eq_of_path` — paths belong to slots
* `Ends`, `Idle.ends` — how a request ends, by what it does on a copy
* `Serves` — a registry without triggers
* `Serves.ends_set`, `Serves.ends_set_rejected`, `Serves.ends_execute` — the requests
* `Serves.request` — what every request does
* `Serves.getField_outcome`, `Serves.view_outcome`
* `serves_of_load`, `Reachable.serves`
-/

namespace GuardedConfig

open Schema Sql
open Plan (writeSteps)

/-! ## Paths -/

namespace Schema

/-- The slots of a schema have different paths. -/
theorem Described.eq_of_path {c : Catalog} {s : CompiledSchema} (h : Described c s) {a b : Slot} (ha : a ∈ s.slots)
    (hb : b ∈ s.slots) (hpath : a.path = b.path) : a = b := by
  obtain ⟨hconfig, hfield⟩ := Slot.eq_of_path (h.notMem_field ha) (h.notMem_field hb) hpath
  by_contra hne
  exact (h.apart_of_ne ha hb hne).fields hconfig hfield

end Schema

namespace Registry

/-! ## How requests end -/

/-- How a request ends: whether it succeeds, the content that it leads to, and the registry apart from its store. -/
structure Ends (request : Request) (r : Registry) (succeeds : Bool) (content : Content) (rest : Registry) : Prop where
  result : (outcome request.run r).1.isOk = succeeds
  content : (outcome request.run r).2.store.content = content
  rest : { (outcome request.run r).2 with store := r.store } = rest

/-- A request ends as it does on a copy. -/
theorem Idle.ends {Q : Plan → Prop} {I : Content → Prop} {r copy : Registry} (h : r.Idle Q I) (hk : WritesKeep Q I)
    {request : Request} {result : Except Error Unit} (hcopy : outcome request.runOnCopy r.copied = (result, copy)) :
    Ends request r result.isOk copy.store.content { copy with store := r.store } := by
  have hatomic := request_atomic h.genuine request (h.complies hk request)
  rw [hcopy] at hatomic
  revert hatomic
  cases hrun : outcome request.run r with | mk result' after
  rintro ⟨hresult, hcontent, -, -, hrest⟩
  refine ⟨by rw [hrun]; exact hresult, ?_, by rw [hrun, ← hrest]⟩
  rw [hrun]
  cases result with
  | ok =>
    rw [show result'.isOk = true from hresult] at hcontent
    exact hcontent
  | error e =>
    rw [show result'.isOk = false from hresult] at hcontent
    exact hcontent.trans (content_runOnCopy_of_error hcopy).symm

/-! ## Registries without triggers -/

/-- A registry without triggers for a schema, between two requests: every row has its owner, and new rows get
identifiers that have not been used. -/
structure Serves (s : CompiledSchema) (r : Registry) : Prop extends
    Idle (Plan.Among s.slots []) (s.Owned none) r where
  routed : Routed s.slots r.plans
  counted : s.Counted r.store.content

variable {c : Catalog} {s : CompiledSchema} {r after : Registry} {slot : Slot} {p : Plan} {value : Json}

theorem lookup_modifyPlan_self {path : String} (hp : lookup path r.plans = some p) (f : Plan → Plan) :
    lookup path (r.modifyPlan path f).plans = some (f p) := by
  rw [lookup_modifyPlan, if_pos rfl, hp]
  rfl

/-- Each slot has its plan. -/
theorem Routed.plan (h : Described c s) (hr : Routed s.slots r.plans) (hslot : slot ∈ s.slots) :
    ∃ p, lookup slot.path r.plans = some p ∧ p.slot = slot := by
  obtain ⟨p, hp⟩ := Option.isSome_iff_exists.1 (hr.served slot hslot)
  exact ⟨p, hp, h.eq_of_path (hr.slot _ p hp).1 hslot (hr.slot _ p hp).2⟩

/-- Where every row has its owner, a field is read as the rows of its slot. -/
theorem getField_outcome (h : Regular c s) (hr : Routed s.slots r.plans) (ho : s.Owned none r.store.content)
    (hslot : slot ∈ s.slots) : outcome (getField slot.path) r = (.ok (slot.rows r.store.content), r) := by
  obtain ⟨p, hp, rfl⟩ := hr.plan h.described hslot
  unfold getField
  rw [outcome_bind, expectPlan_outcome, hp]
  dsimp only
  rw [onStore_outcome, h.readRows_outcome hslot ho]

namespace Serves

theorem plan (h : Regular c s) (hr : r.Serves s) (hslot : slot ∈ s.slots) :
    ∃ p, lookup slot.path r.plans = some p ∧ p.slot = slot := hr.routed.plan h.described hslot

theorem triggers (hr : r.Serves s) {path : String} (hp : lookup path r.plans = some p) : p.triggers = [] :=
  List.eq_nil_iff_forall_not_mem.2 fun t ht => (nomatch (hr.plans path p hp).2 t ht)

/-! ### Writing on a copy -/

/-- The writes of a plan without triggers lead to what is written, or to nothing at all. -/
theorem writeBody_outcome (h : Regular c s) (hslot : p.slot ∈ s.slots) (htriggers : p.triggers = [])
    (hsteps : writeSteps p.path p.slot.storage value = .ok p.writes) (ho : s.Owned none r.store.content)
    (setField : String → Json → Task Registry Unit) :
    ∃ result store, outcome (onCopy (writeBody setField p)) r = (result, { r with store }) ∧
      result.isOk = (s.write p.slot value r.store.content).isSome ∧
      store.content = (s.write p.slot value r.store.content).getD r.store.content := by
  have hbody : outcome (writeBody setField p) r = outcome (onStore (Plan.runWrites none p.writes)) r := by
    unfold writeBody
    rw [htriggers, outcome_bind]
    rcases outcome (onStore (Plan.runWrites none p.writes)) r with ⟨_ | ⟨⟩, after⟩ <;> rfl
  have hlead := (h.leads hslot hsteps ho none).1
  rw [onCopy_outcome, hbody, onStore_outcome]
  cases hresult : s.write p.slot value r.store.content with
  | none =>
    obtain ⟨e, failed, hfail⟩ := (hlead.congr hresult).outcome_eq
    rw [hfail]
    exact ⟨_, _, rfl, rfl, rfl⟩
  | some content =>
    obtain ⟨last, hlast, hcontent⟩ := (hlead.congr hresult).outcome_eq
    rw [hlast]
    exact ⟨_, _, rfl, rfl, hcontent⟩

/-- Executing a bound plan on a copy. -/
theorem executeOnCopyWith_outcome (h : Regular c s) {path : String} (hp : lookup path r.plans = some p)
    (hslot : p.slot ∈ s.slots) (htriggers : p.triggers = []) (hbound : p.bound = true)
    (hsteps : writeSteps p.path p.slot.storage value = .ok p.writes) (ho : s.Owned none r.store.content)
    (setField : String → Json → Task Registry Unit) :
    ∃ result store, outcome (executeOnCopyWith setField path) r = (result, { r with store }) ∧
      result.isOk = (s.write p.slot value r.store.content).isSome ∧
      store.content = (s.write p.slot value r.store.content).getD r.store.content := by
  rw [GuardedConfig.executeOnCopyWith_outcome, hp]
  dsimp only
  rw [if_pos hbound]
  exact writeBody_outcome h hslot htriggers hsteps ho setField

/-! ### Requests -/

/-- Setting a field on a copy: its plan is bound, and then executed if the value fits. -/
theorem set_outcome (hr : r.Planned (Plan.Among s.slots [])) {path : String} (hp : lookup path r.plans = some p)
    (value : Json) :
    outcome (Request.set path value).runOnCopy r =
      match (p.bind value).1 with
      | .ok () => outcome (executeOnCopyWith (setOnCopy (without r.paths path)) path)
          (r.modifyPlan path fun _ => (p.bind value).2)
      | .error e => (.error e, r.modifyPlan path fun _ => (p.bind value).2) := by
  rw [runOnCopy_set_outcome, setOnCopy_outcome, hp]
  dsimp only
  rw [if_pos (hr.listed path p hp), outcome_bind, bind_outcome, hp]
  dsimp only
  cases (p.bind value).1 <;> rfl

/-- A registry can be asked on a copy of its tables. -/
theorem copied (hr : r.Serves s) : r.copied.Planned (Plan.Among s.slots []) := ⟨hr.genuine, hr.plans, hr.listed⟩

/-- A value that does not fit is refused, and the tables stay as they are. -/
theorem ends_set_rejected (h : Regular c s) (hr : r.Serves s) {path : String} (hp : lookup path r.plans = some p)
    {f : Binding.Fault} (hsteps : writeSteps p.path p.slot.storage value = .error f) :
    Ends (.set path value) r false r.store.content (r.modifyPlan path fun _ => (p.bind value).2) := by
  have hbind : (p.bind value).1 = .error (.binding f) := by
    unfold Plan.bind
    rw [hsteps]
  have hcopy := set_outcome (r := r.copied) hr.copied hp value
  rw [hbind] at hcopy
  have hends := hr.toIdle.ends (h.writesKeep []) hcopy
  rw [store_modifyPlan, modifyPlan_withStore] at hends
  exact hends

/-- A value that fits is written, unless identifiers are used up. -/
theorem ends_set (h : Regular c s) (hr : r.Serves s) {path : String} (hp : lookup path r.plans = some p)
    {writes : List Plan.WriteStep} (hsteps : writeSteps p.path p.slot.storage value = .ok writes) :
    Ends (.set path value) r (s.write p.slot value r.store.content).isSome
      ((s.write p.slot value r.store.content).getD r.store.content) (r.modifyPlan path fun _ => (p.bind value).2) := by
  have hbind : p.bind value =
      (.ok (), { p with writes, reads := [Plan.readCommand p.slot.storage], bound := true }) := by
    unfold Plan.bind
    rw [hsteps]
  have hcopy := set_outcome (r := r.copied) hr.copied hp value
  rw [hbind] at hcopy ⊢
  have hq := lookup_modifyPlan_self (r := r.copied) hp fun _ =>
    { p with writes, reads := [Plan.readCommand p.slot.storage], bound := true }
  obtain ⟨result, store, hrun, hresult, hstore⟩ := executeOnCopyWith_outcome h hq (hr.plans path p hp).1
    (show p.triggers = [] from hr.triggers hp) rfl hsteps (by rw [store_modifyPlan]; exact hr.content)
    (setOnCopy (without r.paths path))
  rw [store_modifyPlan] at hresult hstore
  have hends : Ends (.set path value) r result.isOk store.content
      { r.copied.modifyPlan path fun _ =>
          { p with writes, reads := [Plan.readCommand p.slot.storage], bound := true } with store := r.store } :=
    hr.toIdle.ends (h.writesKeep []) (hcopy.trans hrun)
  rw [modifyPlan_withStore] at hends
  exact hresult ▸ hstore ▸ hends

/-- A plan that is bound is written, unless identifiers are used up. -/
theorem ends_execute (h : Regular c s) (hr : r.Serves s) {path : String} (hp : lookup path r.plans = some p)
    (hbound : p.bound = true) (hsteps : writeSteps p.path p.slot.storage value = .ok p.writes) :
    Ends (.execute path) r (s.write p.slot value r.store.content).isSome
      ((s.write p.slot value r.store.content).getD r.store.content) r := by
  obtain ⟨result, store, hrun, hresult, hstore⟩ := executeOnCopyWith_outcome (r := r.copied) h hp
    (hr.plans path p hp).1 (hr.triggers hp) hbound hsteps hr.content (setOnCopy (without r.paths path))
  have hcopy : outcome (Request.execute path).runOnCopy r.copied = (result, { r.copied with store }) :=
    (runOnCopy_execute_outcome path r.copied).trans hrun
  have hends := hr.toIdle.ends (h.writesKeep []) hcopy
  exact hresult ▸ hstore ▸ hends

/-- A plan that is not bound is not executed. -/
theorem ends_execute_unbound (h : Regular c s) (hr : r.Serves s) {path : String} (hp : lookup path r.plans = some p)
    (hbound : p.bound = false) : Ends (.execute path) r false r.store.content r := by
  have hcopy : outcome (Request.execute path).runOnCopy r.copied =
      (.error (.binding (.notBound p.path "executed")), r.copied) := by
    rw [runOnCopy_execute_outcome, GuardedConfig.executeOnCopyWith_outcome, show lookup path r.copied.plans = some p from hp]
    dsimp only
    rw [hbound]
    rfl
  exact hr.toIdle.ends (h.writesKeep []) hcopy

/-- Binding a value writes nothing. -/
theorem ends_bind (h : Regular c s) (hr : r.Serves s) {path : String} (hp : lookup path r.plans = some p) :
    Ends (.bind path value) r (p.bind value).1.isOk r.store.content (r.modifyPlan path fun _ => (p.bind value).2) := by
  have hcopy : outcome (Request.bind path value).runOnCopy r.copied =
      ((p.bind value).1, r.copied.modifyPlan path fun _ => (p.bind value).2) := by
    rw [show outcome (Request.bind path value).runOnCopy r.copied = _ from bind_outcome path value r.copied,
      show lookup path r.copied.plans = some p from hp]
  have hends := hr.toIdle.ends (h.writesKeep []) hcopy
  rw [store_modifyPlan, modifyPlan_withStore] at hends
  exact hends

/-- A path without a plan is refused. -/
theorem ends_unknown (h : Regular c s) (hr : r.Serves s) (request : Request) (hp : lookup request.path r.plans = none) :
    Ends request r false r.store.content r := by
  have hcopy : outcome request.runOnCopy r.copied = (.error (.unknownField request.path), r.copied) := by
    cases request with
    | bind path value =>
      have hp : lookup path r.copied.plans = none := hp
      rw [show outcome (Request.bind path value).runOnCopy r.copied = _ from bind_outcome path value r.copied, hp]
      rfl
    | execute path =>
      have hp : lookup path r.copied.plans = none := hp
      rw [runOnCopy_execute_outcome, GuardedConfig.executeOnCopyWith_outcome, hp]
      rfl
    | set path value =>
      have hp : lookup path r.copied.plans = none := hp
      rw [runOnCopy_set_outcome, setOnCopy_outcome, hp]
      rfl
  exact hr.toIdle.ends (h.writesKeep []) hcopy

/-! ### What requests do -/

/-- After a request the registry serves as before. -/
theorem of_ends (h : Regular c s) (hr : r.Serves s) {request : Request} {succeeds : Bool} {content : Content}
    {rest : Registry} (hends : Ends request r succeeds content rest) (hcounted : s.Counted content) :
    (outcome request.run r).2.Serves s where
  toIdle := Request.run_keeping (h.writesKeep []) hr.toIdle request
  routed := hr.routed.request hr.genuine request
  counted := hends.content ▸ hcounted

/-- A request after which the tables are as they were. -/
theorem of_unchanged (h : Regular c s) (hr : r.Serves s) {request : Request} {succeeds : Bool} {rest : Registry}
    (hends : Ends request r succeeds r.store.content rest) :
    (outcome request.run r).2.Serves s ∧
      ((outcome request.run r).2.store.content = r.store.content ∨
        ∃ slot ∈ s.slots, ∃ value, Wrote c s slot value r.store.content (outcome request.run r).2.store.content) :=
  ⟨of_ends h hr hends hr.counted, .inl hends.content⟩

/-- A request that writes a value that fits. -/
theorem of_write (h : Regular c s) (hr : r.Serves s) (hslot : slot ∈ s.slots) {path : String}
    {writes : List Plan.WriteStep} (hsteps : writeSteps path slot.storage value = .ok writes) {request : Request}
    {rest : Registry} (hends : Ends request r (s.write slot value r.store.content).isSome
      ((s.write slot value r.store.content).getD r.store.content) rest) :
    (outcome request.run r).2.Serves s ∧
      ((outcome request.run r).2.store.content = r.store.content ∨
        ∃ slot ∈ s.slots, ∃ value, Wrote c s slot value r.store.content (outcome request.run r).2.store.content) := by
  cases hafter : s.write slot value r.store.content with
  | none =>
    rw [hafter] at hends
    exact of_unchanged h hr hends
  | some content =>
    rw [hafter] at hends
    have hwrote : Wrote c s slot value r.store.content content := h.wrote hslot hsteps hr.content hr.counted hafter
    exact ⟨of_ends h hr hends hwrote.counted, .inr ⟨slot, hslot, value, hends.content.symm ▸ hwrote⟩⟩

/-- **What a request does**: nothing to the tables, or it writes one field. -/
theorem request (h : Regular c s) (hr : r.Serves s) (request : Request) :
    (outcome request.run r).2.Serves s ∧
      ((outcome request.run r).2.store.content = r.store.content ∨
        ∃ slot ∈ s.slots, ∃ value, Wrote c s slot value r.store.content (outcome request.run r).2.store.content) := by
  cases hp : lookup request.path r.plans with
  | none => exact of_unchanged h hr (ends_unknown h hr request hp)
  | some p =>
    have hslot := (hr.plans _ p hp).1
    cases request with
    | bind path value => exact of_unchanged h hr (ends_bind h hr hp)
    | execute path =>
      cases hbound : p.bound with
      | false => exact of_unchanged h hr (ends_execute_unbound h hr hp hbound)
      | true =>
        obtain ⟨value, hsteps⟩ := (hr.genuine _ p hp).writeSteps_eq hbound
        exact of_write h hr hslot hsteps (ends_execute h hr hp hbound hsteps)
    | set path value =>
      cases hsteps : writeSteps p.path p.slot.storage value with
      | ok writes => exact of_write h hr hslot hsteps (ends_set h hr hp hsteps)
      | error f => exact of_unchanged h hr (ends_set_rejected h hr hp hsteps)

/-! ### Setting a slot -/

/-- Binding a value succeeds if the value has steps. -/
theorem isOk_bind (h : Regular c s) (hr : r.Serves s) (hslot : slot ∈ s.slots) (value : Json) :
    (outcome (Registry.bind slot.path value) r).1.isOk = true ↔
      ∃ writes, writeSteps slot.path slot.storage value = .ok writes := by
  obtain ⟨p, hp, rfl⟩ := hr.plan h hslot
  rw [bind_outcome, hp]
  dsimp only
  unfold Plan.bind Plan.path
  cases writeSteps p.slot.path p.slot.storage value with
  | ok writes => exact ⟨fun _ => ⟨writes, rfl⟩, fun _ => rfl⟩
  | error f => exact ⟨fun hok => (nomatch hok), fun ⟨_, hw⟩ => (nomatch hw)⟩

/-- Setting a slot succeeds exactly if the value can be bound and there are identifiers left. -/
theorem isOk_set (h : Regular c s) (hr : r.Serves s) (hslot : slot ∈ s.slots) :
    (outcome (Request.set slot.path value).run r).1.isOk = true ↔
      (outcome (Registry.bind slot.path value) r).1.isOk = true ∧ slot.HasRoom value r.store.content := by
  rw [isOk_bind h hr hslot]
  obtain ⟨p, hp, rfl⟩ := hr.plan h hslot
  cases hsteps : writeSteps p.slot.path p.slot.storage value with
  | error f =>
    rw [(ends_set_rejected h hr hp hsteps).result]
    constructor
    · intro hok
      cases hok
    · rintro ⟨⟨_, hw⟩, -⟩
      cases hw
  | ok writes =>
    rw [(ends_set h hr hp hsteps).result, h.isSome_write hslot hsteps hr.content hr.counted]
    exact ⟨fun hroom => ⟨⟨writes, rfl⟩, hroom⟩, And.right⟩

/-- Setting a slot that fails changes nothing in the tables. -/
theorem content_of_set_failed (h : Regular c s) (hr : r.Serves s) (hslot : slot ∈ s.slots)
    (hfailed : (outcome (Request.set slot.path value).run r).1.isOk = false) :
    (outcome (Request.set slot.path value).run r).2.store.content = r.store.content := by
  obtain ⟨p, hp, rfl⟩ := hr.plan h hslot
  cases hsteps : writeSteps p.slot.path p.slot.storage value with
  | error f => exact (ends_set_rejected h hr hp hsteps).content
  | ok writes =>
    have hends := ends_set h hr hp hsteps
    rw [hends.result] at hfailed
    rw [hends.content]
    cases hafter : s.write p.slot value r.store.content with
    | none => rfl
    | some content =>
      rw [hafter] at hfailed
      cases hfailed

/-- Setting a slot that succeeds writes it, and leaves its plan bound to the value. -/
theorem of_set_succeeded (h : Regular c s) (hr : r.Serves s) (hslot : slot ∈ s.slots)
    (hok : (outcome (Request.set slot.path value).run r).1.isOk = true) :
    Wrote c s slot value r.store.content (outcome (Request.set slot.path value).run r).2.store.content ∧
      ∃ p, lookup slot.path (outcome (Request.set slot.path value).run r).2.plans = some p ∧ p.slot = slot ∧
        p.bound = true ∧ writeSteps p.path p.slot.storage value = .ok p.writes := by
  obtain ⟨writes, hsteps⟩ := (isOk_bind h hr hslot value).1 ((isOk_set h hr hslot).1 hok).1
  obtain ⟨p, hp, rfl⟩ := hr.plan h hslot
  have hends := ends_set h hr hp hsteps
  obtain ⟨content, hafter⟩ := Option.isSome_iff_exists.1 (hends.result.symm.trans hok)
  have hbind : p.bind value = (.ok (), { p with writes, reads := [Plan.readCommand p.slot.storage], bound := true }) := by
    unfold Plan.bind Plan.path
    rw [hsteps]
  have hplans : (outcome (Request.set p.slot.path value).run r).2.plans =
      (r.modifyPlan p.slot.path fun _ => (p.bind value).2).plans := (congrArg Registry.plans hends.rest :)
  refine ⟨?_, (p.bind value).2, ?_, Plan.slot_bind p value, by rw [hbind], by rw [hbind]; exact hsteps⟩
  · rw [hends.content, hafter]
    exact h.wrote hslot hsteps hr.content hr.counted hafter
  · rw [hplans, lookup_modifyPlan_self hp]

/-! ### Reading -/

/-- A field is read as the rows of its slot. -/
theorem getField_outcome (h : Regular c s) (hr : r.Serves s) (hslot : slot ∈ s.slots) :
    outcome (getField slot.path) r = (.ok (slot.rows r.store.content), r) :=
  Registry.getField_outcome h hr.routed hr.content hslot

/-- Once it has been bound, a field is viewed as it is read. -/
theorem view_outcome (h : Regular c s) (hr : r.Serves s) (hslot : slot ∈ s.slots)
    (hp : lookup slot.path r.plans = some p) (hbound : p.bound = true) :
    outcome (view slot.path) r = (.ok (slot.rows r.store.content), r) := by
  obtain rfl : p.slot = slot := h.described.eq_of_path (hr.plans _ p hp).1 hslot (hr.routed.slot _ p hp).2
  have hreads : p.reads = [Plan.readCommand p.slot.storage] := (hr.genuine _ p hp).reads_eq hbound
  have hview : outcome p.view r.store = outcome (Plan.readRows (Plan.readCommand p.slot.storage)) r.store := by
    have hread := h.readRows_outcome hslot hr.content
    unfold Plan.view
    rw [hbound, hreads, List.mapM_cons, List.mapM_nil, hread]
    simp [hread]
  unfold view
  rw [outcome_bind, expectPlan_outcome, hp]
  dsimp only
  rw [onStore_outcome, hview, h.readRows_outcome hslot hr.content]

end Serves

/-! ## Loading -/

/-- Installing a schema uses no identifiers but those of the rows of configs. -/
theorem counted_of_install {ds : Declarations} (hok : Schema.compile ds = .ok s) (hp : s.Plain) {before after : Store}
    (hempty : before.IsEmpty) (hinstall : outcome (install s.units) before = (.ok (), after)) :
    s.Counted after.content ∧ ∀ name, after.content.sequence name ≤ configRow := by
  obtain ⟨c, hd⟩ := described_of_compile hok hp.configs
  obtain ⟨hinstalled, -⟩ := installed_of_install hd hp hempty hinstall
  have hle : ∀ name, after.content.sequence name ≤ configRow := fun name => (hinstalled.sequences name).2
  refine ⟨⟨fun name => (hinstalled.sequences name).1, fun name => Int.le_trans (hle name) (by decide),
    fun t ht hn id hid => ?_⟩, hle⟩
  have hrows := hinstalled.rows t ht
  rw [hd.rows, if_neg hn] at hrows
  unfold Content.idsOf at hid
  rw [hrows] at hid
  cases hid

variable {a : Artifact} {store : Store}

/-- A registry that has been loaded from plain declarations without triggers. -/
theorem serves_of_load {after : Store} (hempty : store.IsEmpty) (hok : Schema.compile a.declarations = .ok s)
    (hp : s.Plain) (htriggers : a.declarations.triggers = []) (hload : load a store = (.ok r, after)) :
    ∃ c, Regular c s ∧ r.Serves s ∧ ∀ name, r.store.content.sequence name ≤ configRow := by
  obtain ⟨c, triggers, hregular, hcompiled, hidle⟩ := idle_of_load hempty hok hp hload
  rw [htriggers] at hcompiled
  cases hcompiled
  obtain ⟨schema, triggers, hschema, -, hinstall, hloaded⟩ := load_eq_ok hload
  obtain rfl : schema = s := Except.ok.inj (hschema.symm.trans hok)
  obtain ⟨hcounted, hfew⟩ := counted_of_install hok hp hempty hinstall
  rw [← hloaded.store] at hcounted hfew
  exact ⟨c, hregular, ⟨hidle, hloaded.routed, hcounted⟩, hfew⟩

/-- A registry that is reached from plain declarations without triggers. -/
theorem Reachable.serves (hempty : store.IsEmpty) (hok : Schema.compile a.declarations = .ok s) (hp : s.Plain)
    (htriggers : a.declarations.triggers = []) (h : Reachable a store r) : ∃ c, Regular c s ∧ r.Serves s := by
  induction h with
  | load hload =>
    obtain ⟨c, hregular, hserves, -⟩ := serves_of_load hempty hok hp htriggers hload
    exact ⟨c, hregular, hserves⟩
  | request request _ ih =>
    obtain ⟨c, hregular, hserves⟩ := ih
    exact ⟨c, hregular, (hserves.request hregular request).1⟩

end Registry

end GuardedConfig
