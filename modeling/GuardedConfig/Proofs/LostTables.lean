import GuardedConfig.Proofs.Batches
import GuardedConfig.Proofs.History
import Mathlib.Data.List.Induction

/-!
# `Proofs.LostTables` — tables of batches that fail

A batch that fails gives no statements, but the tables that it has recorded by then stay recorded, and the batches after
it refer to them as if they had been created. So a recorded table is either created by a batch that succeeds, or lost: a
batch that failed has recorded it. A field that does not compile leaves the tables that the fields before it were
supplied with, and perhaps one more; all of them are for items, so a catalog still looks like that of a schema.

## Contents

* `Refuses` — steps that change nothing when they fail: `reference_refuses`, `listItem_refuses`,
  `compileStruct_refuses`
* `Leftover`, `addFields_leftover`, `compileConfig_leftover` — what a config leaves that does not compile
* `outlined_compile`, `Catalog.outlined_after` — a catalog looks like that of a schema, whatever has failed
* `Somewhere`, `Creates`, `Lost`, `created_iff_not_lost` — where a table comes from
* `CompiledSchema.Mentions`, `mentioned_created_iff` — the tables that a batch refers to
-/

namespace GuardedConfig.Schema

open GuardedConfig.Field

variable {α β : Type} {c c' : Catalog} {made : List Table} {s : CompiledSchema} {e : Fault}

/-! ## Steps that change nothing when they fail -/

/-- A step that leaves a catalog as it is when it fails. -/
def Refuses (c : Catalog) (x : Compile α) : Prop := ∀ e c', outcome x c = (.error e, c') → c' = c

namespace Refuses

theorem pure (a : α) : Refuses c (pure a : Compile α) := nofun

theorem throw (e : Fault) : Refuses c (throw e : Compile α) := fun _ _ h => (Prod.mk.inj h).2.symm

theorem get_bind {f : Catalog → Compile β} (h : Refuses c (f c)) : Refuses c ((get : Compile Catalog) >>= f) := by
  intro e c' hfail
  rw [outcome_bind_ok (outcome_get c)] at hfail
  exact h e c' hfail

theorem ofExcept_bind {r : Except Fault α} {f : α → Compile β} (h : ∀ a, r = .ok a → Refuses c (f a)) :
    Refuses c (Compile.ofExcept r >>= f) := by
  intro e c' hfail
  obtain ⟨-, hsame⟩ | ⟨a, ha, hfail⟩ := ofExcept_bind_eq_error.1 hfail
  · exact hsame
  · exact h a ha e c' hfail

/-- What follows a step does not fail. -/
theorem bind {x : Compile α} {f : α → Compile β} (hx : Refuses c x)
    (hf : ∀ a c₁ e c', outcome (f a) c₁ ≠ (.error e, c')) : Refuses c (x >>= f) :=
  fun e c' hfail => hx e c' (outcome_eq_error_of_bind hfail hf)

theorem claim (name : String) (kind : Resolved) : Refuses c (claim name kind) := by
  unfold Schema.claim
  refine get_bind ?_
  cases c.resolved name with
  | some existing => exact throw _
  | none => exact nofun

theorem inField {field config : String} {step : Compile α} (h : Refuses c step) :
    Refuses c (inField field config step) := by
  intro e c' hfail
  unfold Schema.inField at hfail
  rw [outcome_tryCatch] at hfail
  rcases hstep : outcome step c with ⟨e' | a, c₁⟩ <;> rw [hstep] at hfail <;> cases hfail
  exact h _ _ hstep

end Refuses

theorem make_refuses (template : Template) (argument : Argument) (name : String) (claims : Bool) :
    Refuses c (instantiate.make template argument name claims) := by
  unfold instantiate.make
  refine .ofExcept_bind fun table _ => ?_
  cases claims with
  | true => exact .bind (.claim name .instantiation) nofun
  | false => exact nofun

theorem instantiate_refuses (name : String) (raw : Option String) : Refuses c (instantiate name raw) := by
  unfold instantiate
  refine .get_bind ?_
  split
  · exact .throw _
  split
  · refine .ofExcept_bind fun argument _ => ?_
    dsimp only
    split
    · split
      · exact .pure _
      · exact make_refuses _ _ _ _
    · exact .throw _
    · exact make_refuses _ _ _ _
  · split
    · exact .pure _
    · exact make_refuses _ _ _ _

theorem reference_refuses (ref : TypeRef) : Refuses c (reference ref) := by
  unfold reference
  refine .get_bind ?_
  split
  · split
    · exact .pure _
    · exact .throw _
  · split
    · exact .pure _
    · exact .throw _
  · exact .throw _
  · exact .throw _
  · exact instantiate_refuses _ _
  · exact .throw _

theorem listItem_refuses (ref : TypeRef) : Refuses c (listItem ref) := by
  unfold listItem
  refine .get_bind ?_
  split
  · split
    · exact .pure _
    · exact .bind (.claim _ _) nofun
  · split
    · exact .bind (reference_refuses ref) nofun
    · exact .throw _

theorem compileStruct_refuses (decl : StructDecl) : Refuses c (compileStruct decl) := by
  unfold compileStruct
  dsimp only
  split
  · exact .throw _
  split
  · exact .ofExcept_bind fun rule _ => .ofExcept_bind fun _ _ => .bind (.claim _ _) nofun
  · exact .ofExcept_bind fun table _ => .bind (.claim _ _) nofun

/-! ## What is left of a config that does not compile -/

/-- What is left of fields that do not compile: a catalog that has grown, with more tables for items. -/
def Leftover (c : Catalog) (made : List Table) (c' : Catalog) : Prop :=
  ∃ items, c.Grows c' ∧ c'.Supplies (made ++ items) ∧ ∀ t ∈ items, t.IsBare ∧ c'.IsItem t.name

theorem Leftover.refl (h : c.Supplies made) : Leftover c made c :=
  ⟨[], .refl c, (List.append_nil made).symm ▸ h, nofun⟩

theorem Supplied.leftover {target : Target} (h : Supplied c made target c') : Leftover c made c' :=
  ⟨target.made, h.grows, h.supplies, h.bare⟩

variable {known : Catalog} {config : String} {done : List String} {d : ConfigDraft} {field : FieldDef}

/-- The tables that a draft needs are left as well. -/
theorem Drafted.leftover (hd : Drafted known c made config done d) (h : Leftover c (made ++ d.prerequisites) c') :
    Leftover known made c' := by
  obtain ⟨items, hgrows, hsupplies, hitems⟩ := h
  rw [List.append_assoc] at hsupplies
  refine ⟨d.prerequisites ++ items, hd.grows.trans hgrows, hsupplies, fun t ht => ?_⟩
  rcases List.mem_append.1 ht with ht | ht
  · exact ⟨(hd.bare t ht).1, (hd.bare t ht).2.grows hgrows⟩
  · exact hitems t ht

theorem addReference_leftover {ref : TypeRef} (h : c.Supplies made)
    (hfail : outcome (d.addReference field ref) c = (.error e, c')) : Leftover c made c' := by
  rw [Refuses.inField (reference_refuses ref) _ _ (outcome_eq_error_of_bind hfail nofun)]
  exact .refl h

/-- A list whose junction has no name to itself leaves the table of its items. -/
theorem addList_leftover {item : TypeRef} (h : c.Supplies made)
    (hfail : outcome (d.addList field item) c = (.error e, c')) : Leftover c made c' := by
  rcases outcome_bind_eq_error.1 hfail with hfail | ⟨⟨target, scalarItems⟩, c₁, htarget, hfail⟩
  · rw [Refuses.inField (listItem_refuses item) _ _ hfail]
    exact .refl h
  · have hsupplied := listItem_supplies h (inField_eq_ok.1 htarget)
    dsimp only at hfail
    split at hfail
    · cases hfail
      exact hsupplied.leftover
    · rw [Refuses.claim _ _ _ _ (outcome_eq_error_of_bind hfail nofun)]
      exact hsupplied.leftover

theorem addField_leftover (h : c.Supplies made) (hfail : outcome (d.addField field) c = (.error e, c')) :
    Leftover c made c' := by
  unfold ConfigDraft.addField at hfail
  dsimp only at hfail
  rw [outcome_bind_ok (outcome_get c)] at hfail
  obtain ⟨-, rfl⟩ | ⟨type, -, hfail⟩ := ofExcept_bind_eq_error.1 hfail
  · exact .refl h
  cases type with
  | list item => exact addList_leftover h hfail
  | named ref =>
    dsimp only at hfail
    split at hfail
    · exact addReference_leftover h hfail
    · cases hfail
  | sql =>
    dsimp only at hfail
    split at hfail
    · cases hfail
      exact .refl h
    · split at hfail
      · cases hfail
        exact .refl h
      · cases hfail

/-- Fields that do not compile leave what the fields before the failing one have been supplied with. The induction goes
field by field, and what is drafted so far is the invariant. -/
theorem addFields_leftover {fields : List FieldDef} (hd : Drafted known c made config done d)
    (hfields : (done ++ fields.map (·.name)).Nodup) (hfail : outcome (d.addFields fields) c = (.error e, c')) :
    Leftover known made c' := by
  induction fields generalizing c done d with
  | nil => cases hfail
  | cons field fields ih =>
    rcases outcome_bind_eq_error.1 hfail with hfail | ⟨d₁, c₁, hfield, hfail⟩
    · exact hd.leftover (addField_leftover hd.supplies hfail)
    · have hnotMem := notMem_of_nodup hfields
      rw [List.map_cons, List.append_cons] at hfields
      exact ih (hd.addField hnotMem hfield) hfields hfail

theorem recordTables_ne_error (ts : List Table) : outcome (recordTables ts) c ≠ (.error e, c') := by
  induction ts generalizing c with
  | nil => exact nofun
  | cons t ts ih => exact ih (c := { c with tables := assign t.name t c.tables })

theorem compileConfig_leftover {decl : ConfigDecl} (h : Outlined c s)
    (hfail : outcome (compileConfig decl) c = (.error e, c')) : Leftover c s.tables c' := by
  obtain ⟨-, rfl⟩ | ⟨body, hbody, hfail⟩ := ofExcept_bind_eq_error.1 hfail
  · exact .refl h.supplies
  rcases outcome_bind_eq_error.1 hfail with hclaim | ⟨⟨⟩, c₁, hclaim, hfail⟩
  · rw [Refuses.claim _ _ _ _ hclaim]
    exact .refl h.supplies
  obtain ⟨hnew, rfl⟩ := claim_eq_ok.1 hclaim
  rcases outcome_bind_eq_error.1 hfail with hfields | ⟨draft, c₂, -, hfail⟩
  · have hnodup := (parseBody_fields hbody).nodup
    obtain ⟨items, hgrows, hleft⟩ := addFields_leftover (drafted_bare h hnew body.constraints) hnodup hfields
    exact ⟨items, (Catalog.grows_claim .config hnew).trans hgrows, hleft⟩
  · -- nothing fails once the fields are done
    rw [outcome_bind_ok (recordTable_eq_ok decl.name draft.table c₂)] at hfail
    exact absurd (outcome_eq_error_of_bind hfail nofun) (recordTables_ne_error _)

/-! ## Batches that fail -/

theorem outlined_compileStructs_error {decls : List StructDecl} (h : Outlined c s)
    (hfail : outcome (compileStructs decls) c = (.error e, c')) : ∃ s', Outlined c' s' := by
  induction decls generalizing c s with
  | nil => cases hfail
  | cons decl decls ih =>
    rcases outcome_bind_eq_error.1 hfail with hfail | ⟨unit, c₁, hunit, hfail⟩
    · rw [compileStruct_refuses decl _ _ hfail]
      exact ⟨s, h⟩
    · exact ih (outlined_compileStruct h hunit) (outcome_eq_error_of_bind hfail nofun)

theorem outlined_compileConfigs_error {decls : List ConfigDecl} (h : Outlined c s)
    (hfail : outcome (compileConfigs decls) c = (.error e, c')) : ∃ s', Outlined c' s' := by
  induction decls generalizing c s with
  | nil => cases hfail
  | cons decl decls ih =>
    rcases outcome_bind_eq_error.1 hfail with hfail | ⟨⟨unit, slots⟩, c₁, hunit, hfail⟩
    · obtain ⟨items, hgrows, hsupplies, hitems⟩ := compileConfig_leftover h hfail
      exact ⟨_, h.addItems hgrows hsupplies hitems decl.name⟩
    · exact ih (outlined_compileConfig h hunit) (outcome_eq_error_of_bind hfail nofun)

/-- A catalog still looks like that of a schema after a batch, whether the batch fails or not. -/
theorem outlined_compile (ds : Declarations) (h : Outlined c s) : ∃ s', Outlined (c.compile ds).2 s' := by
  show ∃ s', Outlined (outcome (compileDeclarations ds) c).2 s'
  rcases hcompile : outcome (compileDeclarations ds) c with ⟨e | more, c'⟩
  · rcases outcome_bind_eq_error.1 hcompile with hfail | ⟨structs, c₁, hstructs, hfail⟩
    · exact outlined_compileStructs_error h hfail
    · exact outlined_compileConfigs_error (outlined_compileStructs h hstructs) (outcome_eq_error_of_bind hfail nofun)
  · exact ⟨_, outlined_compileDeclarations h hcompile⟩

theorem Catalog.outlined_after (batches : List Declarations) : ∃ s, Outlined (Catalog.after batches) s := by
  induction batches using List.reverseRecOn with
  | nil => exact ⟨{}, outlined_empty⟩
  | append_singleton batches ds ih =>
    obtain ⟨s, h⟩ := ih
    rw [Catalog.after_append_singleton]
    exact outlined_compile ds h

/-! ## Where tables come from -/

theorem tables_append (s more : CompiledSchema) : (s.append more).tables = s.tables ++ more.tables := by
  unfold CompiledSchema.append CompiledSchema.tables CompiledSchema.statements
  rw [List.flatMap_append, tablesOf_append]

/-- A batch that succeeds creates exactly the tables that are recorded meanwhile. -/
theorem create_mem_iff {ds : Declarations} {more : CompiledSchema} {t : Table} (h : Outlined c s)
    (hok : c.compile ds = (.ok more, c')) :
    .create t ∈ more.statements ↔ c.table t.name = none ∧ c'.table t.name = some t := by
  have hsupplies := (outlined_compileDeclarations h hok).supplies
  rw [tables_append] at hsupplies
  rw [← mem_tablesOf]
  constructor
  · intro ht
    refine ⟨h.supplies.table_eq_none.2 fun u hu hname => ?_, hsupplies.table_of_mem (List.mem_append_right _ ht)⟩
    have hnodup := hsupplies.nodup
    rw [List.map_append, List.nodup_append] at hnodup
    exact hnodup.2.2 _ (List.mem_map_of_mem hu) _ (List.mem_map_of_mem ht) hname
  · rintro ⟨hnone, hsome⟩
    rcases List.mem_append.1 (hsupplies.table_eq hsome).1 with hold | hnew
    · rw [h.supplies.table_of_mem hold] at hnone
      cases hnone
    · exact hnew

/-- Somewhere in a history, `P` holds of the batches so far and the next one. -/
def Somewhere (P : List Declarations → Declarations → Prop) (batches : List Declarations) : Prop :=
  ∃ front ds back, batches = front ++ ds :: back ∧ P front ds

section Histories

variable {P : List Declarations → Declarations → Prop} {batches : List Declarations} {ds : Declarations} {t : Table}

theorem somewhere_append_singleton : Somewhere P (batches ++ [ds]) ↔ Somewhere P batches ∨ P batches ds := by
  constructor
  · rintro ⟨front, mid, back, hsplit, hp⟩
    rcases List.eq_nil_or_concat back with rfl | ⟨back, last, rfl⟩
    · obtain ⟨rfl, hds⟩ := List.append_inj' hsplit rfl
      cases hds
      exact .inr hp
    · rw [List.concat_eq_append, ← List.cons_append, ← List.append_assoc] at hsplit
      exact .inl ⟨front, mid, back, (List.append_inj' hsplit rfl).1, hp⟩
  · rintro (⟨front, mid, back, rfl, hp⟩ | hp)
    · exact ⟨front, mid, back ++ [ds], by rw [List.append_assoc, List.cons_append], hp⟩
    · exact ⟨batches, ds, [], rfl, hp⟩

/-- A statement of a batch that succeeds creates the table. -/
def Created (batches : List Declarations) (t : Table) : Prop :=
  Somewhere (fun front ds => ∃ s, ((Catalog.after front).compile ds).1 = .ok s ∧ .create t ∈ s.statements) batches

/-- A batch that fails has recorded the table. -/
def Lost (batches : List Declarations) (t : Table) : Prop :=
  Somewhere (fun front ds => (∃ e, ((Catalog.after front).compile ds).1 = .error e) ∧
    (Catalog.after front).table t.name = none ∧ (Catalog.after (front ++ [ds])).table t.name = some t) batches

/-- What has been recorded somewhere is recorded in the end. -/
theorem Somewhere.table (h : Somewhere P batches)
    (hP : ∀ front ds, P front ds → (Catalog.after (front ++ [ds])).table t.name = some t) :
    (Catalog.after batches).table t.name = some t := by
  obtain ⟨front, ds, back, rfl, hp⟩ := h
  rw [List.append_cons]
  exact (Catalog.extends_after (front ++ [ds]) back).tables _ _ (hP front ds hp)

/-- A table of a batch that succeeds is new. -/
theorem create_mem_after {more : CompiledSchema} (hok : ((Catalog.after batches).compile ds).1 = .ok more) :
    .create t ∈ more.statements ↔
      (Catalog.after batches).table t.name = none ∧ (Catalog.after (batches ++ [ds])).table t.name = some t := by
  obtain ⟨s, h⟩ := Catalog.outlined_after batches
  rw [Catalog.after_append_singleton]
  exact create_mem_iff h (Prod.ext hok rfl)

theorem Created.table (h : Created batches t) : (Catalog.after batches).table t.name = some t := by
  refine Somewhere.table h ?_
  rintro front ds ⟨s, hok, ht⟩
  exact ((create_mem_after hok).1 ht).2

theorem Lost.table (h : Lost batches t) : (Catalog.after batches).table t.name = some t :=
  Somewhere.table h fun _ _ hp => hp.2.2

theorem created_or_lost (ht : (Catalog.after batches).table t.name = some t) : Created batches t ∨ Lost batches t := by
  induction batches using List.reverseRecOn with
  | nil => cases ht
  | append_singleton batches ds ih =>
    unfold Created Lost
    rw [somewhere_append_singleton, somewhere_append_singleton]
    cases hbefore : (Catalog.after batches).table t.name with
    | some u =>
      have hlater := (Catalog.extends_after batches [ds]).tables _ _ hbefore
      rw [ht] at hlater
      cases hlater
      exact (ih hbefore).imp .inl .inl
    | none =>
      -- this batch has recorded it
      cases hcompile : ((Catalog.after batches).compile ds).1 with
      | ok more => exact .inl (.inr ⟨more, rfl, (create_mem_after hcompile).2 ⟨hbefore, ht⟩⟩)
      | error e => exact .inr (.inr ⟨⟨e, rfl⟩, rfl, ht⟩)

theorem not_lost_of_created (hcreated : Created batches t) : ¬ Lost batches t := by
  intro hlost
  induction batches using List.reverseRecOn with
  | nil =>
    obtain ⟨front, ds, back, hsplit, -⟩ := hcreated
    cases front <;> cases hsplit
  | append_singleton batches ds ih =>
    -- a table is recorded once, by this batch or by one before it
    rcases somewhere_append_singleton.1 hcreated with hcreated | ⟨more, hok, ht⟩
    · rcases somewhere_append_singleton.1 hlost with hlost | ⟨-, hnone, -⟩
      · exact ih hcreated hlost
      · rw [Created.table hcreated] at hnone
        cases hnone
    · rcases somewhere_append_singleton.1 hlost with hlost | ⟨⟨e, hfail⟩, -⟩
      · have hnone := ((create_mem_after hok).1 ht).1
        rw [Lost.table hlost] at hnone
        cases hnone
      · rw [hok] at hfail
        cases hfail

/-- A table that is recorded is created by a batch that succeeds, unless a batch that fails has recorded it. -/
theorem created_iff_not_lost (ht : (Catalog.after batches).table t.name = some t) :
    Created batches t ↔ ¬ Lost batches t :=
  ⟨not_lost_of_created, fun hnot => (created_or_lost ht).resolve_right hnot⟩

end Histories

/-! ## What a batch refers to -/

/-- Whether the fields of a schema, or the foreign keys of its tables, lead to a table of this name. -/
def CompiledSchema.Mentions (s : CompiledSchema) (name : String) : Prop :=
  (∃ slot ∈ s.slots, ∃ t ∈ slot.tables, t.name = name) ∨
    ∃ t, .create t ∈ s.statements ∧ ∃ k ∈ t.foreignKeys, k.references = name

/-- **Tables of batches that fail.** All that a batch refers to, if it succeeds, is recorded after it, and it is created
by this batch or by one before it that succeeds, except for what a batch before it has recorded and then failed. -/
theorem mentioned_created_iff {batches : List Declarations} {ds : Declarations} {more : CompiledSchema}
    (hok : ((Catalog.after batches).compile ds).1 = .ok more) :
    (∀ slot ∈ more.slots, ∀ t ∈ slot.tables, (Catalog.after (batches ++ [ds])).table t.name = some t) ∧
    ∀ name, more.Mentions name → ∃ t, (Catalog.after (batches ++ [ds])).table name = some t ∧
      (Created (batches ++ [ds]) t ↔ ¬ Lost batches t) := by
  obtain ⟨s, h⟩ := Catalog.outlined_after batches
  have houtlined : Outlined (Catalog.after (batches ++ [ds])) (s.append more) := by
    rw [Catalog.after_append_singleton]
    exact outlined_compileDeclarations h (Prod.ext hok rfl)
  have hslots : ∀ slot ∈ more.slots, ∀ t ∈ slot.tables, t ∈ (s.append more).tables := fun slot hslot t ht =>
    houtlined.tables_slot (List.mem_append_right _ hslot) ht
  refine ⟨fun slot hslot t ht => houtlined.supplies.table_of_mem (hslots slot hslot t ht), fun name hname => ?_⟩
  have hmade : ∃ t ∈ (s.append more).tables, t.name = name := by
    obtain ⟨slot, hslot, t, ht, hname⟩ | ⟨u, hu, k, hk, rfl⟩ := hname
    · exact ⟨t, hslots slot hslot t ht, hname⟩
    · have hmem : u ∈ (s.append more).tables := by
        rw [tables_append]
        exact List.mem_append_right _ (mem_tablesOf.2 hu)
      exact ((houtlined.inOrder.grounded hmem).leads k hk).2
  obtain ⟨t, ht, rfl⟩ := hmade
  have hrecorded := houtlined.supplies.table_of_mem ht
  refine ⟨t, hrecorded, ?_⟩
  rw [created_iff_not_lost hrecorded, not_iff_not]
  unfold Lost
  rw [somewhere_append_singleton]
  -- the batch itself does not fail
  refine or_iff_left ?_
  rintro ⟨⟨e, hfail⟩, -⟩
  rw [hok] at hfail
  cases hfail

/-- A batch of one config. -/
def listBatch (config body : String) : Declarations := { configs := [⟨config, body⟩] }

/-- The schema of a config that has a list of integers and nothing else, behind tables that are made for it. -/
def integersSchema (config : String) (tables : List Table) : CompiledSchema where
  units := [⟨config, tables.map .create ++
    [.create { name := config }, .create (.junction "INTEGER" config), .configRow config]⟩]
  configs := [config]
  slots := [⟨config, "p", .list config (.wrapper "INTEGER") true⟩]

theorem mentions_integers (config : String) (tables : List Table) : (integersSchema config tables).Mentions "INTEGER" :=
  .inl ⟨_, List.mem_singleton_self _, .wrapper "INTEGER", List.mem_cons_self .., rfl⟩

/-- A batch that fails loses nothing that has been created before it. -/
theorem mentioned_created_iff_integers :
    let batches := [listBatch "A" "p LIST(INTEGER)", listBatch "B" "p LIST(INTEGER), q Missing"]
    ((Catalog.after batches).compile (listBatch "C" "p LIST(INTEGER)")).1 = .ok (integersSchema "C" []) ∧
      Created (batches ++ [listBatch "C" "p LIST(INTEGER)"]) (.wrapper "INTEGER") := by
  intro batches
  have hfirst : ((Catalog.after []).compile (listBatch "A" "p LIST(INTEGER)")).1 =
      .ok (integersSchema "A" [.wrapper "INTEGER"]) := by decide +kernel
  have hlast : ((Catalog.after batches).compile (listBatch "C" "p LIST(INTEGER)")).1 = .ok (integersSchema "C" []) := by
    decide +kernel
  obtain ⟨hslots, hnames⟩ := mentioned_created_iff hlast
  obtain ⟨t, ht, hiff⟩ := hnames "INTEGER" (mentions_integers "C" [])
  have hsame := (hslots _ (List.mem_singleton_self _) (.wrapper "INTEGER") (List.mem_cons_self ..)).symm.trans ht
  cases hsame
  refine ⟨hlast, hiff.2 (not_lost_of_created ?_)⟩
  exact ⟨[], _, [listBatch "B" "p LIST(INTEGER), q Missing"], rfl, _, hfirst, List.mem_cons_self ..⟩

/-- A config whose last field does not compile has taken the table of integers with it: the config after it has a list
in that table, and no batch creates it. -/
theorem lost_integers :
    let failing := listBatch "A" "p LIST(INTEGER), q Missing"
    let working := listBatch "B" "p LIST(INTEGER)"
    ((Catalog.after [failing]).compile working).1 = .ok (integersSchema "B" []) ∧
      (integersSchema "B" []).Mentions "INTEGER" ∧ ∀ t, t.name = "INTEGER" → ¬ Created [failing, working] t := by
  intro failing working
  have hrecorded : (Catalog.after [failing, working]).table "INTEGER" = some (.wrapper "INTEGER") := by decide +kernel
  have hlost : Lost [failing, working] (.wrapper "INTEGER") := by
    refine ⟨[], failing, [working], rfl, ⟨.inField (.unresolved "Missing") "q" "A", ?_⟩, ?_, ?_⟩ <;> decide +kernel
  refine ⟨by decide +kernel, mentions_integers "B" [], fun t hname hcreated => ?_⟩
  have hsame := hcreated.table
  rw [hname, hrecorded] at hsame
  cases hsame
  exact not_lost_of_created hcreated hlost

end GuardedConfig.Schema
