import GuardedConfig.Proofs.Installation
import GuardedConfig.Proofs.Invariants
import GuardedConfig.Proofs.Writes

/-!
# `Proofs.Loading` — what is loaded, and what stays of it

A registry that has been loaded has a plan for each slot of its schema, which has not been bound, and its store
has been installed. If the schema is plain and the store was empty, every row of the tables for items has exactly
one owner, and that stays so whatever is requested.

## Contents

* `Loaded`, `load_eq_ok`, `Reachable.exists_load`
* `Routed`, `Reachable.routed`
* `Plan.Among`, `Regular.writesKeep`
* `idle_of_load`, `exists_load`, `Reachable.idle`
-/

namespace GuardedConfig

open Schema Sql

namespace Registry

/-! ## Loading -/

/-- A plan as loading makes it: for a slot under its path, with some of the triggers, and not bound yet. -/
structure Fresh (slots : List Slot) (triggers : List Trigger) (path : String) (p : Plan) : Prop where
  slot : p.slot ∈ slots
  path_eq : p.slot.path = path
  triggers : ∀ t ∈ p.triggers, t ∈ triggers
  bound : p.bound = false

/-- A registry as loading makes it. -/
structure Loaded (slots : List Slot) (triggers : List Trigger) (store : Store) (r : Registry) : Prop where
  store : r.store = store
  paths : r.paths = slots.map (·.path)
  plans : ∀ path p, lookup path r.plans = some p → Fresh slots triggers path p
  served : ∀ slot ∈ slots, (lookup slot.path r.plans).isSome = true

variable {slots : List Slot} {triggers : List Trigger} {store : Store}

theorem loaded_ofSchema (store : Store) (schema : CompiledSchema) (triggers : List Trigger) :
    Loaded schema.slots triggers store (ofSchema store schema) where
  store := rfl
  paths := rfl
  plans := by
    suffices h : ∀ (slots : List Slot) (plans : List (String × Plan)), (∀ slot ∈ slots, slot ∈ schema.slots) →
        (∀ path p, lookup path plans = some p → Fresh schema.slots triggers path p) →
        ∀ path p, lookup path (slots.foldl (fun plans slot => assign slot.path { slot } plans) plans) = some p →
          Fresh schema.slots triggers path p from h schema.slots [] (fun _ h => h) fun _ _ h => nomatch h
    intro slots
    induction slots with
    | nil => exact fun _ _ h => h
    | cons slot slots ih =>
      intro plans hslots h
      refine ih _ (fun slot' hslot' => hslots slot' (List.mem_cons_of_mem _ hslot')) fun path p hp => ?_
      by_cases hs : path = slot.path
      · rw [hs, lookup_assign_self] at hp
        cases hp
        exact ⟨hslots slot (List.mem_cons_self ..), hs.symm, fun _ ht => (nomatch ht), rfl⟩
      · rw [lookup_assign_of_ne hs] at hp
        exact h path p hp
  served := by
    suffices h : ∀ (slots : List Slot) (plans : List (String × Plan)) (path : String),
        (path ∈ slots.map (·.path) ∨ (lookup path plans).isSome = true) →
        (lookup path (slots.foldl (fun plans slot => assign slot.path { slot } plans) plans)).isSome = true from
      fun slot hslot => h schema.slots [] slot.path (.inl (List.mem_map_of_mem hslot))
    intro slots
    induction slots with
    | nil => exact fun _ _ h => h.resolve_left List.not_mem_nil
    | cons slot slots ih =>
      intro plans path h
      refine ih _ path ?_
      by_cases hs : path = slot.path
      · rw [hs, lookup_assign_self]
        exact .inr rfl
      · rw [lookup_assign_of_ne hs]
        exact h.imp_left fun hmem => (List.mem_cons.1 hmem).resolve_left hs

theorem Loaded.attach {r : Registry} (h : Loaded slots triggers store r) {t : Trigger} (ht : t ∈ triggers)
    (path : String) : Loaded slots triggers store (r.modifyPlan path (·.attach t)) where
  store := (store_modifyPlan ..).trans h.store
  paths := (paths_modifyPlan ..).trans h.paths
  plans other q hq := by
    obtain ⟨p, hp, rfl | ⟨-, rfl⟩⟩ := lookup_modifyPlan_eq_some hq
    · exact h.plans other q hp
    · have hfresh := h.plans other p hp
      refine ⟨hfresh.slot, hfresh.path_eq, fun t' ht' => ?_, hfresh.bound⟩
      rcases List.mem_append.1 ht' with ht' | ht'
      · exact hfresh.triggers t' ht'
      · exact List.mem_singleton.1 ht' ▸ ht
  served slot hslot := by
    have hserved := h.served slot hslot
    rw [lookup_modifyPlan]
    split
    · rename_i heq
      rw [Option.isSome_map, ← heq]
      exact hserved
    · exact hserved

theorem register_loaded {t : Trigger} (ht : t ∈ triggers) :
    Keeps (Loaded slots triggers store) (Loaded slots triggers store) (register t) :=
  register_keeps_of (fun _ path h => h.attach ht path) fun _ _ h => ⟨h.store, h.paths, h.plans, h.served⟩

theorem prepare_eq_ok {ds : Declarations} {schema : CompiledSchema} (h : prepare ds = .ok (schema, triggers)) :
    Schema.compile ds = .ok schema ∧ ds.triggers.mapM Trigger.compile = .ok triggers := by
  unfold prepare at h
  cases hcompile : Schema.compile ds with
  | error f =>
    rw [hcompile] at h
    cases h
  | ok compiled =>
    rw [hcompile] at h
    obtain ⟨schema', hschema, h⟩ := except_bind_eq_ok.1 h
    obtain ⟨triggers', htriggers, h⟩ := except_bind_eq_ok.1 h
    cases hschema
    split at h
    · cases h
    · cases h
      exact ⟨rfl, htriggers⟩

/-- What is loaded is the schema of the declarations, installed on the store. -/
theorem load_eq_ok {a : Artifact} {store after : Store} {r : Registry} (h : load a store = (.ok r, after)) :
    ∃ schema triggers, Schema.compile a.declarations = .ok schema ∧
      a.declarations.triggers.mapM Trigger.compile = .ok triggers ∧
      outcome (install schema.units) store = (.ok (), after) ∧ Loaded schema.slots triggers after r := by
  unfold load at h
  cases hp : prepare a.declarations with
  | error e => simp [hp] at h
  | ok prepared =>
    obtain ⟨schema, triggers⟩ := prepared
    simp only [hp] at h
    obtain ⟨hschema, htriggers⟩ := prepare_eq_ok hp
    split at h
    · simp at h
    · rename_i installed hinstall
      have hstart := loaded_ofSchema installed schema triggers
      have hk : Keeps (Loaded schema.slots triggers installed) (Loaded schema.slots triggers installed)
          (triggers.forM fun t => do let _ ← register t : Task Registry Unit) :=
        .forM fun t ht => (register_loaded ht).bind fun _ => .pure _
      have hr := hk { ofSchema installed schema with slices := a.declarations.slices, metadata := a.metadata }
        ⟨hstart.store, hstart.paths, hstart.plans, hstart.served⟩
      split at h
      · rename_i r' heq
        rw [show outcome (triggers.forM fun t => do let _ ← register t : Task Registry Unit) _ = _ from heq] at hr
        cases h
        exact ⟨schema, triggers, hschema, htriggers, hinstall, hr⟩
      · simp at h

/-- Plans stand under the paths of their slots, and there is one for each slot. -/
structure Routed (slots : List Slot) (plans : List (String × Plan)) : Prop where
  slot : ∀ path p, lookup path plans = some p → p.slot ∈ slots ∧ p.slot.path = path
  served : ∀ slot ∈ slots, (lookup slot.path plans).isSome = true

theorem Loaded.routed {r : Registry} (h : Loaded slots triggers store r) : Routed slots r.plans where
  slot path p hp := ⟨(h.plans path p hp).slot, (h.plans path p hp).path_eq⟩
  served := h.served

/-- Binding leaves every plan under its path. -/
theorem Routed.kept (slots : List Slot) : Plan.Kept (Routed slots) := by
  intro plans path p value hp h
  refine ⟨fun other q hq => ?_, fun slot hslot => ?_⟩
  · by_cases ho : other = path
    · rw [ho, lookup_assign_self, Option.some.injEq] at hq
      rw [← hq, Plan.slot_bind, ho]
      exact h.slot path p hp
    · rw [lookup_assign_of_ne ho] at hq
      exact h.slot other q hq
  · by_cases ho : slot.path = path
    · rw [ho, lookup_assign_self]
      rfl
    · rw [lookup_assign_of_ne ho]
      exact h.served slot hslot

/-- Requests leave every plan under its path. -/
theorem Routed.request {r : Registry} (h : Routed slots r.plans) (hr : r.Genuine) (request : Request) :
    Routed slots (outcome request.run r).2.plans :=
  ((Request.run_keeps Store.Kept.trivial (Routed.kept slots) request).after ⟨hr, ⟨⟩, h⟩).plans

/-- In a registry that is reached, every plan stands under its path. -/
theorem Reachable.routed {a : Artifact} {store : Store} {s : CompiledSchema} {r : Registry}
    (hok : Schema.compile a.declarations = .ok s) (h : Reachable a store r) : Routed s.slots r.plans := by
  induction h with
  | load hload =>
    obtain ⟨schema, triggers, hschema, -, -, hloaded⟩ := load_eq_ok hload
    obtain rfl : schema = s := Except.ok.inj (hschema.symm.trans hok)
    exact hloaded.routed
  | request request hr ih => exact ih.request hr.genuine request

/-- Every registry that is reached is later than one that has been loaded. -/
theorem Reachable.exists_load {a : Artifact} {store : Store} {r : Registry} (h : Reachable a store r) :
    ∃ r₀ after, Registry.load a store = (.ok r₀, after) ∧ r₀.Later r := by
  induction h with
  | load h => exact ⟨_, _, h, .refl⟩
  | request request _ ih =>
    obtain ⟨r₀, after, hload, hlater⟩ := ih
    exact ⟨r₀, after, hload, hlater.request request⟩

end Registry

/-! ## What stays -/

/-- A plan for one of some slots, with some of the triggers. -/
def Plan.Among (slots : List Slot) (triggers : List Trigger) (p : Plan) : Prop :=
  p.slot ∈ slots ∧ ∀ t ∈ p.triggers, t ∈ triggers

theorem Plan.Among.bind {slots : List Slot} {triggers : List Trigger} {p : Plan} (h : p.Among slots triggers)
    (value : Json) : (p.bind value).2.Among slots triggers := by
  unfold Plan.bind
  cases writeSteps p.path p.slot.storage value <;> exact h

namespace Schema

variable {c : Catalog} {s : CompiledSchema}

/-- Writes of the slots of a regular schema keep that every row has its owner. -/
theorem Regular.writesKeep (h : Regular c s) (triggers : List Trigger) :
    WritesKeep (Plan.Among s.slots triggers) (s.Owned none) where
  settled content ho := ho.orphans_eq_zero h.ownership true
  bind _ value hp := hp.bind value
  write p hp value hw store after ho hrun := by
    obtain ⟨hlead, howned⟩ := h.leads hp.1 hw ho none
    cases hresult : s.write p.slot value store.content with
    | none =>
      obtain ⟨e, failed, hfail⟩ := (hlead.congr hresult).outcome_eq
      rw [hrun] at hfail
      cases hfail
    | some content =>
      obtain ⟨last, hlast, hcontent⟩ := (hlead.congr hresult).outcome_eq
      rw [hrun] at hlast
      cases hlast
      exact hcontent ▸ howned content hresult

/-- A plain schema is regular once it has been installed, and every row has its owner then. -/
theorem regular_of_install {ds : Declarations} (hok : Schema.compile ds = .ok s) (hp : s.Plain) {before after : Store}
    (hempty : before.IsEmpty) (hinstall : outcome (install s.units) before = (.ok (), after)) :
    ∃ c, Regular c s ∧ s.Owned none after.content ∧ Store.SameStack after before := by
  obtain ⟨c, hd⟩ := described_of_compile hok hp.configs
  obtain ⟨hinstalled, hstack⟩ := installed_of_install hd hp hempty hinstall
  exact ⟨c, ⟨hd, hp, fun t ht => (hinstalled.definable t ht).distinct⟩, hinstalled.owned hd hp, hstack⟩

end Schema

namespace Registry

variable {a : Artifact} {store : Store} {s : CompiledSchema} {r : Registry}

/-- When a plain schema is loaded on an empty store, every row has its owner. -/
theorem idle_of_load {after : Store} (hempty : store.IsEmpty) (hok : Schema.compile a.declarations = .ok s)
    (hp : s.Plain) (hload : load a store = (.ok r, after)) :
    ∃ c triggers, Regular c s ∧ a.declarations.triggers.mapM Trigger.compile = .ok triggers ∧
      r.Idle (Plan.Among s.slots triggers) (s.Owned none) := by
  obtain ⟨schema, triggers, hschema, htriggers, hinstall, hloaded⟩ := load_eq_ok hload
  obtain rfl : schema = s := Except.ok.inj (hschema.symm.trans hok)
  obtain ⟨c, hregular, howned, hstack⟩ := regular_of_install hok hp hempty hinstall
  refine ⟨c, triggers, hregular, htriggers, ⟨⟨genuine_of_load hload, fun path p hlookup => ?_, fun path p hlookup => ?_⟩,
    ?_⟩, ?_⟩
  · have hfresh := hloaded.plans path p hlookup
    exact ⟨hfresh.slot, hfresh.triggers⟩
  · have hfresh := hloaded.plans path p hlookup
    rw [hloaded.paths, ← hfresh.path_eq]
    exact List.mem_map_of_mem hfresh.slot
  · rw [hloaded.store]
    exact howned
  · rw [hloaded.store, hstack.saved]
    exact hempty.closed

/-- A plain schema without triggers can be loaded on an empty store if its tables can be defined. -/
theorem exists_load (hempty : store.IsEmpty) (hok : Schema.compile a.declarations = .ok s) (hp : s.Plain)
    (htriggers : a.declarations.triggers = []) (hdefinable : ∀ t ∈ s.tables, t.Definable) :
    ∃ r after, load a store = (.ok r, after) := by
  obtain ⟨c, hd⟩ := described_of_compile hok hp.configs
  have hinstall := (isOk_install hd hp hempty).2 hdefinable
  have hprepare : prepare a.declarations = .ok (s, []) := by
    unfold prepare
    rw [hok, htriggers]
    rfl
  unfold load
  rw [hprepare]
  dsimp only
  revert hinstall
  show (outcome (install s.units) store).1.isOk = true → _
  cases hrun : outcome (install s.units) store with | mk result after
  intro hinstall
  rw [show (install s.units).run.run store = (result, after) from hrun]
  cases result with
  | ok => exact ⟨_, _, rfl⟩
  | error e => cases hinstall

/-- In a registry that is reached from a plain schema on an empty store, every row has its owner. -/
theorem Reachable.idle (hempty : store.IsEmpty) (hok : Schema.compile a.declarations = .ok s) (hp : s.Plain)
    (h : Reachable a store r) :
    ∃ c triggers, Regular c s ∧ a.declarations.triggers.mapM Trigger.compile = .ok triggers ∧
      r.Idle (Plan.Among s.slots triggers) (s.Owned none) := by
  obtain ⟨r₀, after, hload, hlater⟩ := h.exists_load
  obtain ⟨c, triggers, hregular, htriggers, hidle⟩ := idle_of_load hempty hok hp hload
  exact ⟨c, triggers, hregular, htriggers, hlater.keeping (hregular.writesKeep triggers) hidle⟩

end Registry

/-! ### A server -/

/-- The declarations of a server: a port, an owner, and a list of commands. -/
def serverArtifact : Artifact where
  fingerprint := ""
  declarations := {
    structs := [⟨"Command", "name TEXT", none⟩]
    configs := [⟨"Server", "port INTEGER, owner Command, commands LIST(Command)"⟩] }

def commandTable : Table := { name := "Command", columns := [⟨"name", "TEXT"⟩] }

def serverTable : Table where
  name := "Server"
  columns := [⟨"port", "INTEGER"⟩, ⟨"owner", "INTEGER"⟩]
  foreignKeys := [⟨"owner", "Command", some .setNull⟩]

def serverSchema : CompiledSchema where
  units := [
    ⟨"Command", [.create commandTable]⟩,
    ⟨"Server", [.create serverTable, .create (.junction "Command" "Server"), .configRow "Server"]⟩]
  configs := ["Server"]
  slots := [
    ⟨"Server", "port", .scalar "Server" "port"⟩,
    ⟨"Server", "owner", .reference "Server" "owner" commandTable⟩,
    ⟨"Server", "commands", .list "Server" commandTable false⟩]

theorem compile_server : Schema.compile serverArtifact.declarations = .ok serverSchema := by decide +kernel

theorem plain_server : serverSchema.Plain where
  words := by
    have htables : serverSchema.tables = [commandTable, serverTable, .junction "Command" "Server"] := rfl
    rw [htables, List.forall_mem_cons, List.forall_mem_cons, List.forall_mem_singleton]
    exact ⟨.inr (by decide +kernel), .inr (by decide +kernel), .inl ⟨_, _, rfl⟩⟩
  constraints := by decide +kernel
  apart := by decide +kernel
  configs := by decide +kernel

theorem isEmpty_new : (Store.ofContent {}).IsEmpty := ⟨rfl, rfl, rfl⟩

/-- The server can be loaded on a new store. -/
theorem load_server : ∃ r after, Registry.load serverArtifact (.ofContent {}) = (.ok r, after) :=
  Registry.exists_load isEmpty_new compile_server plain_server rfl (by decide +kernel)

end GuardedConfig
