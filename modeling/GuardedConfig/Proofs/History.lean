import GuardedConfig.Proofs.Catalog

/-!
# `Proofs.History` — catalogs over batches that may fail

A batch of declarations may fail at any point, and what it has recorded by then stays for the batches after it. Still a
catalog never contradicts itself: names are claimed and tables recorded in separate steps, but nothing can fail between
the two, apart from the table of a config and those of its junctions, whose names wait for their tables until all fields
are done. So a step is described by what it keeps, and by the names that it leaves waiting. A batch that succeeds leaves
none.

## Contents

* `Catalog.Extends`, `Catalog.Consistent` — what every step keeps
* `Catalog.Leads` — where a step leads, and the names that wait
* `Ends` and its rules — steps that may fail
* `instantiate_ends`, `reference_ends`, `listItem_ends`, `addField_ends` — one field
* `compileStruct_ends`, `compileConfig_ends`, `compileDeclarations_ends` — declarations, wherever they fail
* `compileDeclarations_claims` — what declarations that succeed have claimed
* `Catalog.after`, `consistent_of_batches` — batches
-/

namespace GuardedConfig.Schema

open GuardedConfig.Field

/-- Whether a name of this kind never waits for its table. -/
def Resolved.hasTable : Resolved → Bool
  | struct | instantiation | builtin => true
  | template | junction | config => false

/-- What a key has after it, or another key, has got a value. -/
theorem lookup_assign {α : Type} (key other : String) (value : α) (l : List (String × α)) :
    lookup other (assign key value l) = if other = key then some value else lookup other l := by
  split
  case isTrue h => rw [h, lookup_assign_self]
  case isFalse h => exact lookup_assign_of_ne h value l

namespace Catalog

/-! ## What every step keeps -/

/-- Names, tables and templates stay as they have been recorded. -/
structure Extends (c c' : Catalog) : Prop where
  names : ∀ name kind, c.resolved name = some kind → c'.resolved name = some kind
  tables : ∀ name t, c.table name = some t → c'.table name = some t
  templates : ∀ name t, c.template name = some t → c'.template name = some t

/-- The parts of a catalog agree: tables and templates stand under their own names, which are claimed, and names of
structs, of instances and of built-in types have tables, as those of templates have templates. -/
structure Consistent (c : Catalog) : Prop where
  tables : ∀ name t, c.table name = some t → t.name = name ∧ ∃ kind, c.resolved name = some kind
  supplied : ∀ name kind, c.resolved name = some kind → kind.hasTable = true → ∃ t, c.table name = some t
  templates : ∀ name, c.resolved name = some .template ↔ ∃ t, c.template name = some t
  templateNames : ∀ name t, c.template name = some t → t.name = name

variable {c c' c'' : Catalog} {name : String} {kind : Resolved} {t : Table} {waiting more : List String}

theorem Extends.refl (c : Catalog) : c.Extends c := ⟨fun _ _ h => h, fun _ _ h => h, fun _ _ h => h⟩

theorem Extends.trans (h : c.Extends c') (h' : c'.Extends c'') : c.Extends c'' :=
  ⟨fun name kind hk => h'.names name kind (h.names name kind hk),
   fun name t ht => h'.tables name t (h.tables name t ht),
   fun name t ht => h'.templates name t (h.templates name t ht)⟩

/-- What has no meaning in the end had none before. -/
theorem Extends.resolved_eq_none (h : c.Extends c') (hnew : c'.resolved name = none) : c.resolved name = none := by
  rw [Option.eq_none_iff_forall_ne_some]
  intro kind hk
  rw [h.names name kind hk] at hnew
  cases hnew

theorem consistent_empty : ({} : Catalog).Consistent :=
  ⟨nofun, nofun, fun _ => ⟨nofun, nofun⟩, nofun⟩

/-- No table is recorded under a name that is not claimed. -/
theorem Consistent.table_eq_none (h : c.Consistent) (hnew : c.resolved name = none) : c.table name = none := by
  rw [Option.eq_none_iff_forall_ne_some]
  intro t ht
  obtain ⟨-, kind, hk⟩ := h.tables name t ht
  rw [hnew] at hk
  cases hk

theorem Consistent.template_eq_none (h : c.Consistent) (hnew : c.resolved name = none) : c.template name = none := by
  rw [Option.eq_none_iff_forall_ne_some]
  intro t ht
  rw [(h.templates name).2 ⟨t, ht⟩] at hnew
  cases hnew

/-- Recording a table where there is none. -/
theorem extends_record (t : Table) (hnone : c.table name = none) :
    c.Extends { c with tables := assign name t c.tables } := by
  refine ⟨fun _ _ h => h, fun other u hu => ?_, fun _ _ h => h⟩
  have hne : other ≠ name := by
    rintro rfl
    rw [hnone] at hu
    cases hu
  exact (lookup_assign_of_ne hne t c.tables).trans hu

/-! ## Where a step leads -/

/-- Where a step leads: a consistent catalog that keeps what there was. The names in `waiting` have been claimed on the
way, for tables that are still to be recorded, and no others wait that have not waited before. -/
structure Leads (c : Catalog) (waiting : List String) (c' : Catalog) : Prop where
  keeps : c.Extends c'
  consistent : c'.Consistent
  awaits : ∀ name, c'.Awaits name ↔ c.Awaits name ∨ name ∈ waiting
  unclaimed : ∀ name ∈ waiting, c.resolved name = none
  nodup : waiting.Nodup

theorem Leads.refl (h : c.Consistent) : c.Leads [] c :=
  ⟨.refl c, h, fun _ => by simp, nofun, .nil⟩

theorem Leads.trans (h : c.Leads waiting c') (h' : c'.Leads more c'') : c.Leads (waiting ++ more) c'' where
  keeps := h.keeps.trans h'.keeps
  consistent := h'.consistent
  awaits name := by rw [h'.awaits, h.awaits, List.mem_append, or_assoc]
  unclaimed name hname := by
    rcases List.mem_append.1 hname with hname | hname
    · exact h.unclaimed name hname
    · exact h.keeps.resolved_eq_none (h'.unclaimed name hname)
  nodup := by
    refine List.nodup_append.2 ⟨h.nodup, h'.nodup, ?_⟩
    -- what waits is claimed, and what is claimed on the rest of the way was not
    rintro name hwaiting _ hmore rfl
    obtain ⟨-, kind, hk, -⟩ := (h.awaits name).2 (.inr hwaiting)
    rw [h'.unclaimed name hmore] at hk
    cases hk

/-- Claiming a name, and recording what stands under it: a template for a template, a table at once for the kinds that
never wait, and nothing else anywhere. -/
theorem leads_claim {tables : List (String × Table)} {templates : List (String × Template)} (h : c.Consistent)
    (hnew : c.resolved name = none) (hothers : ∀ other ≠ name,
      lookup other tables = c.table other ∧ lookup other templates = c.template other)
    (hnamed : ∀ t, lookup name tables = some t → t.name = name)
    (hsupplied : kind.hasTable = true → ∃ t, lookup name tables = some t)
    (htemplate : kind = .template ↔ ∃ t, lookup name templates = some t)
    (htemplateName : ∀ t, lookup name templates = some t → t.name = name)
    (hwaiting : ∀ other, other ∈ waiting ↔ other = name ∧ lookup name tables = none ∧ kind ≠ .template)
    (hnodup : waiting.Nodup) : c.Leads waiting ⟨assign name kind c.names, tables, templates⟩ := by
  have hself : lookup name (assign name kind c.names) = some kind := lookup_assign_self ..
  have hother {other : String} (hne : other ≠ name) : lookup other (assign name kind c.names) = c.resolved other :=
    lookup_assign_of_ne hne kind c.names
  have hold {other : String} {k : Resolved} (hk : c.resolved other = some k) : other ≠ name := by
    rintro rfl
    rw [hnew] at hk
    cases hk
  -- what was recorded is under other names, and nothing happens to those
  have hkeeps : c.Extends ⟨assign name kind c.names, tables, templates⟩ := by
    refine ⟨fun other k hk => (hother (hold hk)).trans hk, fun other t ht => ?_, fun other t ht => ?_⟩
    · obtain ⟨-, k, hk⟩ := h.tables other t ht
      exact (hothers other (hold hk)).1.trans ht
    · have hk := (h.templates other).2 ⟨t, ht⟩
      exact (hothers other (hold hk)).2.trans ht
  refine ⟨hkeeps, ⟨?tables, ?supplied, ?templates, ?templateNames⟩, fun other => ?awaits, fun other hmem => ?unclaimed,
    hnodup⟩
  case tables =>
    intro other t ht
    by_cases hne : other = name
    · subst hne
      exact ⟨hnamed t ht, kind, hself⟩
    · obtain ⟨hname, k, hk⟩ := h.tables other t ((hothers other hne).1.symm.trans ht)
      exact ⟨hname, k, (hother hne).trans hk⟩
  case supplied =>
    intro other k hk hhas
    by_cases hne : other = name
    · subst hne
      cases hself.symm.trans hk
      exact hsupplied hhas
    · obtain ⟨t, ht⟩ := h.supplied other k ((hother hne).symm.trans hk) hhas
      exact ⟨t, (hothers other hne).1.trans ht⟩
  case templates =>
    intro other
    show lookup other (assign name kind c.names) = _ ↔ ∃ t, lookup other templates = some t
    by_cases hne : other = name
    · rw [hne, hself, ← htemplate, Option.some.injEq]
    · rw [hother hne, h.templates, (hothers other hne).2]
  case templateNames =>
    intro other t ht
    by_cases hne : other = name
    · subst hne
      exact htemplateName t ht
    · exact h.templateNames other t ((hothers other hne).2.symm.trans ht)
  case awaits =>
    rw [hwaiting]
    constructor
    · rintro ⟨hnone, k, hk, hkind⟩
      by_cases hne : other = name
      · subst hne
        cases hself.symm.trans hk
        exact .inr ⟨rfl, hnone, hkind⟩
      · exact .inl ⟨(hothers other hne).1.symm.trans hnone, k, (hother hne).symm.trans hk, hkind⟩
    · rintro (⟨hnone, k, hk, hkind⟩ | ⟨rfl, hnone, hkind⟩)
      · exact ⟨(hothers other (hold hk)).1.trans hnone, k, (hother (hold hk)).trans hk, hkind⟩
      · exact ⟨hnone, kind, hself, hkind⟩
  case unclaimed =>
    rw [((hwaiting other).1 hmem).1]
    exact hnew

/-- Claiming a name for a table that is recorded later. -/
theorem leads_wait (h : c.Consistent) (hkind : kind = .config ∨ kind = .junction) (hnew : c.resolved name = none) :
    c.Leads [name] { c with names := assign name kind c.names } := by
  have htable : lookup name c.tables = none := h.table_eq_none hnew
  have htemplate : lookup name c.templates = none := h.template_eq_none hnew
  refine leads_claim h hnew (fun _ _ => ⟨rfl, rfl⟩) ?_ ?_ ?_ ?_ ?_ (by simp) <;>
    rcases hkind with rfl | rfl <;> simp [htable, htemplate, Resolved.hasTable]

/-- Claiming a name for a table that is recorded at once. -/
theorem leads_supplied (h : c.Consistent) (hkind : kind.hasTable = true) (hnew : c.resolved name = none)
    (ht : t.name = name) :
    c.Leads [] { c with names := assign name kind c.names, tables := assign name t c.tables } := by
  have htemplate : lookup name c.templates = none := h.template_eq_none hnew
  refine leads_claim h hnew (fun _ hne => ⟨lookup_assign_of_ne hne t c.tables, rfl⟩) ?_ ?_ ?_ ?_ ?_ .nil <;>
    cases kind <;> simp_all [Resolved.hasTable]

/-- Claiming a name for a template. -/
theorem leads_template {template : Template} (h : c.Consistent) (hnew : c.resolved name = none)
    (ht : template.name = name) :
    c.Leads [] { c with names := assign name .template c.names, templates := assign name template c.templates } := by
  have htable : lookup name c.tables = none := h.table_eq_none hnew
  refine leads_claim h hnew (fun _ hne => ⟨rfl, lookup_assign_of_ne hne template c.templates⟩) ?_ ?_ ?_ ?_ ?_ .nil <;>
    simp_all [Resolved.hasTable]

/-- Recording a table under a name that is claimed. -/
theorem Consistent.record (h : c.Consistent) (hk : c.resolved name = some kind) (ht : t.name = name) :
    Consistent { c with tables := assign name t c.tables } := by
  have hlookup (other : String) :
      lookup other (assign name t c.tables) = if other = name then some t else c.table other := lookup_assign ..
  refine ⟨fun other u hu => ?_, fun other k hother htable => ?_, h.templates, h.templateNames⟩
  · rw [Catalog.table, hlookup] at hu
    split at hu
    case isTrue he =>
      cases hu
      exact ⟨ht.trans he.symm, kind, he ▸ hk⟩
    case isFalse => exact h.tables other u hu
  · rw [Catalog.table, hlookup]
    split
    · exact ⟨t, rfl⟩
    · exact h.supplied other k hother htable

/-- A name waits no longer once its table is recorded. -/
theorem awaits_record (t : Table) (other : String) :
    Awaits { c with tables := assign name t c.tables } other ↔ c.Awaits other ∧ other ≠ name := by
  constructor
  · rintro ⟨hnone, hclaimed⟩
    have hne : other ≠ name := by
      rintro rfl
      cases (lookup_assign_self other t c.tables).symm.trans hnone
    exact ⟨⟨(lookup_assign_of_ne hne t c.tables).symm.trans hnone, hclaimed⟩, hne⟩
  · exact fun ⟨hawaits, hne⟩ => hawaits.record t hne

/-- Recording the table of a template without an argument. -/
theorem leads_default (h : c.Consistent) (hk : c.resolved name = some .template) (hnone : c.table name = none)
    (ht : t.name = name) : c.Leads [] { c with tables := assign name t c.tables } := by
  refine ⟨extends_record t hnone, h.record hk ht, fun other => ?_, nofun, .nil⟩
  rw [awaits_record]
  refine ⟨fun hawaits => .inl hawaits.1, fun hawaits => ?_⟩
  have hawaits := hawaits.resolve_right List.not_mem_nil
  refine ⟨hawaits, ?_⟩
  rintro rfl
  obtain ⟨kind, hkind, hne⟩ := hawaits.claimed
  exact hne (Option.some.inj (hkind.symm.trans hk))

/-- Recording the table that a name waits for. -/
theorem Leads.record (h : c.Leads (t.name :: waiting) c') :
    c.Leads waiting { c' with tables := assign t.name t c'.tables } := by
  obtain ⟨hnotMem, hnodup⟩ := List.nodup_cons.1 h.nodup
  have hawaits := (h.awaits t.name).2 (.inr (List.mem_cons_self ..))
  obtain ⟨kind, hk, -⟩ := hawaits.claimed
  refine ⟨h.keeps.trans (extends_record t hawaits.unrecorded), h.consistent.record hk rfl, fun other => ?_,
    fun other hother => h.unclaimed other (List.mem_cons_of_mem _ hother), hnodup⟩
  rw [awaits_record, h.awaits, List.mem_cons]
  constructor
  · rintro ⟨hold | hname | hwaiting, hne⟩
    · exact .inl hold
    · exact absurd hname hne
    · exact .inr hwaiting
  · rintro (hold | hwaiting)
    · refine ⟨.inl hold, ?_⟩
      rintro rfl
      obtain ⟨-, kind, hk, -⟩ := hold
      rw [h.unclaimed _ (List.mem_cons_self ..)] at hk
      cases hk
    · exact ⟨.inr (.inr hwaiting), fun hname => hnotMem (hname ▸ hwaiting)⟩

end Catalog

/-! ## Steps that may fail -/

variable {α β : Type} {c c' : Catalog} {waiting : List String} {P Q : α → List String → Prop}

/-- How a step from a catalog ends: it succeeds, and `Q` tells of the result and of the names that are left waiting, or
it fails. In both cases the catalog keeps what it had and is consistent. -/
inductive Ends (c : Catalog) (Q : α → List String → Prop) : Except Fault α × Catalog → Prop
  | ok {a : α} {waiting : List String} {c' : Catalog} : c.Leads waiting c' → Q a waiting → Ends c Q (.ok a, c')
  | error {e : Fault} {c' : Catalog} : c.Extends c' → c'.Consistent → Ends c Q (.error e, c')

namespace Ends

theorem keeps {o : Except Fault α × Catalog} (h : Ends c Q o) : c.Extends o.2 ∧ o.2.Consistent := by
  cases h with
  | ok hleads => exact ⟨hleads.keeps, hleads.consistent⟩
  | error hkeeps hconsistent => exact ⟨hkeeps, hconsistent⟩

theorem pure {a : α} (h : c.Consistent) (ha : Q a []) : Ends c Q (outcome (pure a : Compile α) c) := ok (.refl h) ha

theorem throw (h : c.Consistent) (e : Fault) : Ends c Q (outcome (throw e : Compile α) c) := error (.refl c) h

/-- A step goes on from where another one has led. -/
theorem trans {R : β → List String → Prop} {o : Except Fault β × Catalog} (h : c.Leads waiting c')
    (ho : Ends c' (fun b more => R b (waiting ++ more)) o) : Ends c R o := by
  cases ho with
  | ok hmore hb => exact ok (h.trans hmore) hb
  | error hkeeps hconsistent => exact error (h.keeps.trans hkeeps) hconsistent

theorem bind {x : Compile α} {f : α → Compile β} {R : β → List String → Prop} (hx : Ends c P (outcome x c))
    (hf : ∀ a waiting c', c.Leads waiting c' → P a waiting →
      Ends c' (fun b more => R b (waiting ++ more)) (outcome (f a) c')) : Ends c R (outcome (x >>= f) c) := by
  rw [outcome_bind]
  generalize outcome x c = o at hx
  cases hx with
  | ok hleads ha => exact trans hleads (hf _ _ _ hleads ha)
  | error hkeeps hconsistent => exact error hkeeps hconsistent

/-- A step that leaves no name waiting is followed by the next one. -/
theorem settled_bind {x : Compile α} {f : α → Compile β} {R : β → List String → Prop}
    (hx : Ends c (fun _ waiting => waiting = []) (outcome x c))
    (hf : ∀ a c', c.Leads [] c' → Ends c' R (outcome (f a) c')) : Ends c R (outcome (x >>= f) c) := by
  refine bind hx fun a waiting c' hleads hnil => ?_
  subst hnil
  exact hf a c' hleads

theorem ofExcept_bind {r : Except Fault α} {f : α → Compile β} {R : β → List String → Prop} (h : c.Consistent)
    (hf : ∀ a, r = .ok a → Ends c R (outcome (f a) c)) : Ends c R (outcome (Compile.ofExcept r >>= f) c) := by
  rw [outcome_bind, outcome_compileOfExcept]
  cases r with
  | error e => exact error (.refl c) h
  | ok a => exact hf a rfl

/-- Claiming a name fails without a trace if the name is taken. -/
theorem claim_bind {name : String} {kind : Resolved} {f : Unit → Compile β} {R : β → List String → Prop}
    (h : c.Consistent) (hf : c.resolved name = none →
      Ends c R (outcome (f ()) { c with names := assign name kind c.names })) :
    Ends c R (outcome (claim name kind >>= f) c) := by
  rw [outcome_bind]
  rcases hclaim : outcome (claim name kind) c with ⟨e | ⟨⟩, c'⟩
  · unfold claim at hclaim
    rw [outcome_bind_ok (outcome_get c)] at hclaim
    cases hr : c.resolved name with
    | some existing =>
      rw [hr] at hclaim
      cases hclaim
      exact error (.refl c) h
    | none =>
      rw [hr] at hclaim
      cases hclaim
  · obtain ⟨hnew, rfl⟩ := claim_eq_ok.1 hclaim
    exact hf hnew

theorem inField {field config : String} {step : Compile α} (h : Ends c Q (outcome step c)) :
    Ends c Q (outcome (inField field config step) c) := by
  unfold Schema.inField
  rw [outcome_tryCatch]
  generalize outcome step c = o at h
  cases h with
  | ok hleads ha => exact ok hleads ha
  | error hkeeps hconsistent => exact error hkeeps hconsistent

end Ends

/-! ## One field -/

/-- A step that leaves no name waiting. -/
abbrev Settles (c : Catalog) (o : Except Fault α × Catalog) : Prop := Ends c (fun _ waiting => waiting = []) o

theorem make_ends {template : Template} {argument : Argument} {name : String} {claims : Bool} (h : c.Consistent)
    (hname : claims = false → c.resolved name = some .template ∧ c.table name = none) :
    Settles c (outcome (instantiate.make template argument name claims) c) := by
  unfold instantiate.make
  refine .ofExcept_bind h fun t ht => ?_
  have htable := (structTable_eq_ok ht).1
  cases claims with
  | true =>
    rw [if_pos rfl]
    exact .claim_bind h fun hnew => .ok (Catalog.leads_supplied h rfl hnew htable) rfl
  | false =>
    obtain ⟨hk, hnone⟩ := hname rfl
    exact .ok (Catalog.leads_default h hk hnone htable) rfl

theorem instantiate_ends {name : String} {raw : Option String} (h : c.Consistent)
    (hk : c.resolved name = some .template) : Settles c (outcome (instantiate name raw) c) := by
  unfold instantiate
  rw [outcome_bind_ok (outcome_get c)]
  obtain ⟨template, htemplate⟩ := (h.templates name).1 hk
  have hname := h.templateNames name template htemplate
  rw [htemplate]
  dsimp only
  cases raw with
  | some raw =>
    refine .ofExcept_bind h fun argument _ => ?_
    -- the instance is there, its name is taken, or it is made
    split
    · split
      · exact .pure h rfl
      · exact make_ends h nofun
    · exact .throw h _
    · exact make_ends h nofun
  | none =>
    dsimp only
    split
    · exact .pure h rfl
    · -- the name is that of the template, so the table is recorded without a claim
      rename_i hnone
      rw [hname] at hnone ⊢
      refine make_ends h fun _ => ⟨hk, Option.eq_none_iff_forall_ne_some.2 fun t ht => ?_⟩
      exact hnone t hk ht

theorem reference_ends (ref : TypeRef) (h : c.Consistent) : Settles c (outcome (reference ref) c) := by
  unfold reference
  rw [outcome_bind_ok (outcome_get c)]
  split
  · split
    · exact .pure h rfl
    · exact .throw h _
  · split
    · exact .pure h rfl
    · exact .throw h _
  · exact .throw h _
  · exact .throw h _
  · rename_i hk
    exact instantiate_ends h hk
  · exact .throw h _

theorem listItem_ends (ref : TypeRef) (h : c.Consistent) : Settles c (outcome (listItem ref) c) := by
  unfold listItem
  rw [outcome_bind_ok (outcome_get c)]
  split
  · split
    · exact .pure h rfl
    · exact .claim_bind h fun hnew => .ok (Catalog.leads_supplied h rfl hnew rfl) rfl
  · split
    · exact .settled_bind (reference_ends ref h) fun target c' hleads => .pure hleads.consistent rfl
    · exact .throw h _

/-- The names that the tables of a draft wait under. -/
def ConfigDraft.pending (d : ConfigDraft) : List String := d.table.name :: d.junctions.map (·.name)

/-- A step of a draft leaves a name waiting for each table that it adds to the draft. -/
abbrev Extended (c : Catalog) (d : ConfigDraft) (o : Except Fault ConfigDraft × Catalog) : Prop :=
  Ends c (fun d' waiting => d'.pending = d.pending ++ waiting) o

variable (d : ConfigDraft)

theorem addList_ends (field : FieldDef) (item : TypeRef) (h : c.Consistent) :
    Extended c d (outcome (d.addList field item) c) := by
  unfold ConfigDraft.addList
  refine .settled_bind (.inField (listItem_ends item h)) fun ⟨target, scalarItems⟩ c' hleads => ?_
  dsimp only
  split
  · exact .throw hleads.consistent _
  · refine .claim_bind hleads.consistent fun hnew => .ok (Catalog.leads_wait hleads.consistent (.inr rfl) hnew) ?_
    simp [ConfigDraft.pending, ConfigDraft.withSlot]

theorem addReference_ends (field : FieldDef) (ref : TypeRef) (h : c.Consistent) :
    Extended c d (outcome (d.addReference field ref) c) := by
  unfold ConfigDraft.addReference
  refine .settled_bind (.inField (reference_ends ref h)) fun target c' hleads => .pure hleads.consistent ?_
  simp [ConfigDraft.pending, ConfigDraft.withSlot, Table.withForeignKey, Table.withColumn]

theorem addField_ends (field : FieldDef) (h : c.Consistent) : Extended c d (outcome (d.addField field) c) := by
  have hscalar : Extended c d (outcome (pure (d.addScalar field) : Compile ConfigDraft) c) :=
    .pure h (List.append_nil d.pending).symm
  unfold ConfigDraft.addField
  dsimp only
  rw [outcome_bind_ok (outcome_get c)]
  refine .ofExcept_bind h fun shape _ => ?_
  cases shape with
  | list item => exact addList_ends d field item h
  | named ref =>
    dsimp only
    split
    · exact addReference_ends d field ref h
    · exact hscalar
  | sql =>
    dsimp only
    split
    · exact .throw h _
    · split
      · exact .throw h _
      · exact hscalar

/-- Fields keep what was recorded, and leave the tables of the config waiting. -/
theorem addFields_ends (fields : List FieldDef) (h : c.Consistent) :
    Extended c d (outcome (d.addFields fields) c) := by
  induction fields generalizing d c with
  | nil => exact .pure h (List.append_nil d.pending).symm
  | cons field fields ih =>
    refine .bind (addField_ends d field h) fun d₁ waiting c₁ hleads hd => ?_
    simpa only [Extended, hd, List.append_assoc] using ih d₁ hleads.consistent

/-! ## Declarations -/

theorem recordTable_eq_ok (name : String) (t : Table) (c : Catalog) :
    outcome (recordTable name t) c = (.ok (), { c with tables := assign name t c.tables }) := rfl

/-- Once the tables that wait are recorded, no name is left waiting. -/
theorem recordTables_ends (tables : List Table) {c' : Catalog} (h : c.Leads (tables.map (·.name)) c') :
    ∃ c'', outcome (recordTables tables) c' = (.ok (), c'') ∧ c.Leads [] c'' := by
  induction tables generalizing c' with
  | nil => exact ⟨c', rfl, h⟩
  | cons t tables ih =>
    obtain ⟨c'', hrest, hleads⟩ := ih h.record
    exact ⟨c'', hrest, hleads⟩

theorem compileConfig_ends (decl : ConfigDecl) (h : c.Consistent) : Settles c (outcome (compileConfig decl) c) := by
  unfold compileConfig
  refine .ofExcept_bind h fun body _ => .claim_bind h fun hnew => ?_
  have hclaimed := Catalog.leads_wait h (.inl rfl) hnew
  have hfields := addFields_ends { table := { name := decl.name, constraints := body.constraints } } body.fields
    hclaimed.consistent
  rw [outcome_bind]
  generalize outcome (ConfigDraft.addFields _ body.fields) _ = o at hfields
  cases hfields with
  | error hkeeps hconsistent => exact .error (hclaimed.keeps.trans hkeeps) hconsistent
  | @ok draft waiting c' hleads hdraft =>
    -- the names that wait are those of the tables of the draft
    obtain ⟨hname, rfl⟩ := List.cons.inj hdraft
    have hall : c.Leads (draft.table.name :: draft.junctions.map (·.name)) c' := by
      rw [hname]
      exact hclaimed.trans hleads
    obtain ⟨c'', hrecorded, hdone⟩ := recordTables_ends draft.junctions hall.record
    rw [hname] at hrecorded
    dsimp only
    rw [outcome_bind_ok (recordTable_eq_ok decl.name draft.table c'), outcome_bind_ok hrecorded]
    exact .ok hdone rfl

theorem compileStruct_ends (decl : StructDecl) (h : c.Consistent) : Settles c (outcome (compileStruct decl) c) := by
  unfold compileStruct
  dsimp only
  split
  · exact .throw h _
  split
  · refine .ofExcept_bind h fun rule _ => .ofExcept_bind h fun _ _ => .claim_bind h fun hnew => ?_
    exact .ok (Catalog.leads_template h hnew rfl) rfl
  · refine .ofExcept_bind h fun t ht => .claim_bind h fun hnew => ?_
    exact .ok (Catalog.leads_supplied h rfl hnew (structTable_eq_ok ht).1) rfl

theorem compileStructs_ends (decls : List StructDecl) (h : c.Consistent) :
    Settles c (outcome (compileStructs decls) c) := by
  induction decls generalizing c with
  | nil => exact .pure h rfl
  | cons decl decls ih =>
    refine .settled_bind (compileStruct_ends decl h) fun unit c₁ h₁ => ?_
    exact .settled_bind (ih h₁.consistent) fun units c₂ h₂ => .pure h₂.consistent rfl

theorem compileConfigs_ends (decls : List ConfigDecl) (h : c.Consistent) :
    Settles c (outcome (compileConfigs decls) c) := by
  induction decls generalizing c with
  | nil => exact .pure h rfl
  | cons decl decls ih =>
    refine .settled_bind (compileConfig_ends decl h) fun ⟨unit, slots⟩ c₁ h₁ => ?_
    exact .settled_bind (ih h₁.consistent) fun ⟨units, more⟩ c₂ h₂ => .pure h₂.consistent rfl

/-- Declarations keep what was recorded, wherever they fail; if they do not fail, they leave no name waiting. -/
theorem compileDeclarations_ends (ds : Declarations) (h : c.Consistent) : Settles c (c.compile ds) := by
  show Settles c (outcome (compileDeclarations ds) c)
  unfold compileDeclarations
  refine .settled_bind (compileStructs_ends ds.structs h) fun structs c₁ h₁ => ?_
  exact .settled_bind (compileConfigs_ends ds.configs h₁.consistent) fun ⟨configs, slots⟩ c₂ h₂ =>
    .pure h₂.consistent rfl

/-- Recording tables claims nothing. -/
theorem recordTables_resolved {tables : List Table} {c' : Catalog} {name : String}
    (hok : outcome (recordTables tables) c = (.ok (), c')) : c'.resolved name = c.resolved name := by
  induction tables generalizing c with
  | nil =>
    cases hok
    rfl
  | cons t tables ih => exact ih (c := { c with tables := assign t.name t c.tables }) hok

/-- A config that is compiled has claimed its name. -/
theorem compileConfig_claims {decl : ConfigDecl} {c' : Catalog} {result : SchemaUnit × List Slot} (h : c.Consistent)
    (hok : outcome (compileConfig decl) c = (.ok result, c')) :
    c.resolved decl.name = none ∧ c'.resolved decl.name = some .config := by
  unfold compileConfig at hok
  obtain ⟨body, -, hok⟩ := ofExcept_bind_eq_ok.1 hok
  obtain ⟨⟨⟩, c₁, hclaim, hok⟩ := outcome_bind_eq_ok.1 hok
  obtain ⟨hnew, rfl⟩ := claim_eq_ok.1 hclaim
  obtain ⟨draft, c₂, hfields, hok⟩ := outcome_bind_eq_ok.1 hok
  rw [outcome_bind_ok (recordTable_eq_ok decl.name draft.table c₂)] at hok
  obtain ⟨⟨⟩, c₃, hrecorded, hok⟩ := outcome_bind_eq_ok.1 hok
  cases hok
  have hkeeps := (addFields_ends { table := { name := decl.name, constraints := body.constraints } } body.fields
    (Catalog.leads_wait h (.inl rfl) hnew).consistent).keeps.1
  rw [hfields] at hkeeps
  exact ⟨hnew, (recordTables_resolved hrecorded).trans (hkeeps.names decl.name .config Catalog.resolved_claim)⟩

theorem compileConfigs_claims {decls : List ConfigDecl} {c' : Catalog} {result : List SchemaUnit × List Slot}
    (h : c.Consistent) (hok : outcome (compileConfigs decls) c = (.ok result, c')) :
    ∀ decl ∈ decls, c.resolved decl.name = none ∧ c'.resolved decl.name = some .config := by
  induction decls generalizing c result with
  | nil => exact fun _ hmem => (nomatch hmem)
  | cons first decls ih =>
    obtain ⟨⟨unit, slots⟩, c₁, hfirst, hok⟩ := outcome_bind_eq_ok.1 hok
    obtain ⟨⟨units, more⟩, c₂, hrest, hok⟩ := outcome_bind_eq_ok.1 hok
    cases hok
    obtain ⟨hkeeps, hconsistent⟩ := (compileConfig_ends first h).keeps
    rw [hfirst] at hkeeps hconsistent
    have hlater := (compileConfigs_ends decls hconsistent).keeps.1
    rw [hrest] at hlater
    rintro decl (_ | ⟨_, hmem⟩)
    · obtain ⟨hnew, hclaimed⟩ := compileConfig_claims h hfirst
      exact ⟨hnew, hlater.names _ _ hclaimed⟩
    · obtain ⟨hnew, hclaimed⟩ := ih hconsistent hrest decl hmem
      exact ⟨hkeeps.resolved_eq_none hnew, hclaimed⟩

/-- Each config of declarations that succeed has claimed its name. -/
theorem compileDeclarations_claims {ds : Declarations} (h : c.Consistent) (hok : (c.compile ds).1.isOk = true) :
    ∀ decl ∈ ds.configs, c.resolved decl.name = none ∧ (c.compile ds).2.resolved decl.name = some .config := by
  rcases hcompile : c.compile ds with ⟨_ | schema, c'⟩
  · rw [hcompile] at hok
    cases hok
  obtain ⟨structs, c₁, hstructs, hcompile⟩ := outcome_bind_eq_ok.1 hcompile
  obtain ⟨⟨configs, slots⟩, c₂, hconfigs, hcompile⟩ := outcome_bind_eq_ok.1 hcompile
  cases hcompile
  obtain ⟨hkeeps, hconsistent⟩ := (compileStructs_ends ds.structs h).keeps
  rw [hstructs] at hkeeps hconsistent
  intro decl hmem
  obtain ⟨hnew, hclaimed⟩ := compileConfigs_claims hconsistent hconfigs decl hmem
  exact ⟨hkeeps.resolved_eq_none hnew, hclaimed⟩

/-! ## Batches -/

/-- The catalog after batches of declarations, whether they succeed or not. -/
def Catalog.after (batches : List Declarations) : Catalog := batches.foldl (fun c ds => (c.compile ds).2) {}

theorem Catalog.after_append_singleton (batches : List Declarations) (ds : Declarations) :
    Catalog.after (batches ++ [ds]) = ((Catalog.after batches).compile ds).2 := by
  unfold Catalog.after
  rw [List.foldl_append]
  rfl

/-- A catalog goes on from what the batches before have left. -/
theorem Catalog.extends_foldl (batches : List Declarations) (h : c.Consistent) :
    c.Extends (batches.foldl (fun c ds => (c.compile ds).2) c) ∧
      Catalog.Consistent (batches.foldl (fun c ds => (c.compile ds).2) c) := by
  induction batches generalizing c with
  | nil => exact ⟨.refl c, h⟩
  | cons ds batches ih =>
    obtain ⟨hkeeps, hconsistent⟩ := (compileDeclarations_ends ds h).keeps
    obtain ⟨hlater, hlast⟩ := ih hconsistent
    exact ⟨hkeeps.trans hlater, hlast⟩

theorem Catalog.consistent_after (batches : List Declarations) : (Catalog.after batches).Consistent :=
  (extends_foldl batches consistent_empty).2

theorem Catalog.extends_after (batches more : List Declarations) :
    (Catalog.after batches).Extends (Catalog.after (batches ++ more)) := by
  unfold Catalog.after
  rw [List.foldl_append]
  exact (extends_foldl more (consistent_after batches)).1

/-- A batch that succeeds leaves a table under every name that it has claimed, except for those of templates. -/
theorem Catalog.table_of_compile {ds : Declarations} {name : String} {kind : Resolved}
    (h : c.Consistent) (hok : (c.compile ds).1.isOk = true) (hnew : c.resolved name = none)
    (hk : (c.compile ds).2.resolved name = some kind) (hkind : kind ≠ .template) :
    ∃ t, (c.compile ds).2.table name = some t := by
  have hends := compileDeclarations_ends ds h
  generalize c.compile ds = o at hok hk hends
  obtain ⟨hleads, rfl⟩ | _ := hends
  case error => cases hok
  rw [← Option.ne_none_iff_exists']
  intro hnone
  rcases (hleads.awaits name).1 ⟨hnone, kind, hk, hkind⟩ with ⟨-, k, hold, -⟩ | hmem
  · rw [hnew] at hold
    cases hold
  · cases hmem

/-- A catalog keeps names, tables and templates as they were recorded, over all batches to come, and never contradicts
itself. A batch that succeeds has claimed the names of its configs, and whatever it has claimed for a config or for a
junction has a table from then on. -/
theorem consistent_of_batches :
    (∀ batches, (Catalog.after batches).Consistent) ∧
    (∀ batches later, (Catalog.after batches).Extends (Catalog.after (batches ++ later))) ∧
    ∀ batches ds later, ((Catalog.after batches).compile ds).1.isOk = true →
      (∀ decl ∈ ds.configs, (Catalog.after batches).resolved decl.name = none ∧
        (Catalog.after (batches ++ [ds])).resolved decl.name = some .config) ∧
      ∀ name kind, (Catalog.after batches).resolved name = none →
        (Catalog.after (batches ++ [ds])).resolved name = some kind → kind = .config ∨ kind = .junction →
        ∃ t, (Catalog.after (batches ++ ds :: later)).table name = some t := by
  refine ⟨Catalog.consistent_after, Catalog.extends_after, fun batches ds later hok => ?_⟩
  have hstep := Catalog.after_append_singleton batches ds
  have hconsistent := Catalog.consistent_after batches
  refine ⟨hstep ▸ compileDeclarations_claims hconsistent hok, fun name kind hnew hk hkind => ?_⟩
  have hne : kind ≠ .template := by rcases hkind with rfl | rfl <;> decide
  obtain ⟨t, ht⟩ := Catalog.table_of_compile hconsistent hok hnew (hstep ▸ hk) hne
  have hlater := Catalog.extends_after (batches ++ [ds]) later
  rw [List.append_assoc, List.singleton_append] at hlater
  exact ⟨t, hlater.tables name t (hstep ▸ ht)⟩

/-- A config that fails at its last field leaves the wrapper table of its list and its own name, without a table. The
config of the batch after it shares the wrapper table, and keeps its junction table when the first batch comes again. -/
theorem consistent_of_batches_failed :
    let failing : Declarations := { configs := [⟨"Broken", "sizes LIST(INTEGER), next Missing"⟩] }
    let working : Declarations := { configs := [⟨"Working", "sizes LIST(INTEGER)"⟩] }
    (Catalog.after [failing]).resolved "Broken" = some .config ∧ (Catalog.after [failing]).table "Broken" = none ∧
      (Catalog.after [failing]).table "INTEGER" = some (.wrapper "INTEGER") ∧
      ∃ t, (Catalog.after [failing, working, failing]).table (junctionName "INTEGER" "Working") = some t := by
  intro failing working
  have hbefore : (Catalog.after [failing]).resolved "Broken" = some .config ∧
      (Catalog.after [failing]).table "Broken" = none ∧
      (Catalog.after [failing]).table "INTEGER" = some (.wrapper "INTEGER") ∧
      (Catalog.after [failing]).resolved (junctionName "INTEGER" "Working") = none := by decide +kernel
  have hok : ((Catalog.after [failing]).compile working).1.isOk = true := by decide +kernel
  have hclaimed : (Catalog.after [failing, working]).resolved (junctionName "INTEGER" "Working") = some .junction := by
    decide +kernel
  exact ⟨hbefore.1, hbefore.2.1, hbefore.2.2.1,
    (consistent_of_batches.2.2 [failing] working [failing] hok).2 _ .junction hbefore.2.2.2 hclaimed (.inr rfl)⟩

end GuardedConfig.Schema
