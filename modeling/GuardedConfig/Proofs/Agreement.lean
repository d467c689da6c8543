import GuardedConfig.Proofs.Compilation

/-!
# `Proofs.Agreement` — fields and columns are in step

The table of a config and the slots of its fields are built side by side. Reading and writing a field trusts that its
slot says where the field is stored, so for each field the two have to agree: a scalar has its column with its own type,
a reference has an integer column with one foreign key, and a list has no column but a junction. Besides these, the
table has only the constraints of the body.

## Contents

* `Slot.columnFor?`, `Slot.Suits` — what a field asks for
* `Table.Follows`, `addFields_follows` — field by field
* `CompiledSchema.Formed`, `formed_compileConfigs` — config by config
* `Slot.AgreesWith`, `Table.Agrees` — what it is for fields, slots and a table to agree
* `Table.Follows.agreesWith`, `Outlined.agrees` — a table that follows its body agrees with it
* `slots_agree` — fields and columns are in step
-/

namespace GuardedConfig.Schema

open GuardedConfig.Field

variable {c c' : Catalog} {s : CompiledSchema} {t : Table}

/-! ## What a field asks for -/

namespace Slot

/-- The column of a field in the table of its config, if the field is stored in this slot. -/
def columnFor? (field : FieldDef) (s : Slot) : Option Column :=
  match s.storage with
  | .scalar _ column => some ⟨column, field.type⟩
  | .reference _ column _ => some ⟨column, "INTEGER"⟩
  | .list .. => none

/-- A slot for a field, stored in a way that the type of the field allows. -/
def Suits (field : FieldDef) (s : Slot) : Prop :=
  s.field = field.name ∧
    match s.storage with
    | .scalar .. => field.isSqlTyped = true
    | .reference .. => ∃ ref, field.classify = .ok (.named ref)
    | .list .. => ∃ item, field.classify = .ok (.list item)

end Slot

/-! ## Fields one after another -/

/-- A table that has what the fields of a body ask for and the constraints of the body, and nothing else. -/
structure Table.Follows (t : Table) (body : Body) (slots : List Slot) : Prop where
  suits : List.Forall₂ Slot.Suits body.fields slots
  columns : t.columns = (body.fields.zip slots).filterMap fun (field, slot) => slot.columnFor? field
  foreignKeys : t.foreignKeys = slots.filterMap Slot.foreignKey?
  constraints : t.constraints = body.constraints

variable {d d' : ConfigDraft} {field : FieldDef} {done : List FieldDef} {constraints : List String}

/-- One more field, with its column and its foreign key. -/
theorem Table.Follows.add {slots : List Slot} (h : t.Follows ⟨done, constraints⟩ slots) {slot : Slot}
    (hsuits : slot.Suits field) {t' : Table} (hcolumns : t'.columns = t.columns ++ (slot.columnFor? field).toList)
    (hkeys : t'.foreignKeys = t.foreignKeys ++ slot.foreignKey?.toList) (hconstraints : t'.constraints = t.constraints) :
    t'.Follows ⟨done ++ [field], constraints⟩ (slots ++ [slot]) where
  suits := List.rel_append h.suits (.cons hsuits .nil)
  columns := by
    rw [hcolumns, h.columns, List.zip_append h.suits.length_eq, List.filterMap_append]
    cases hcolumn : slot.columnFor? field <;> simp [hcolumn]
  foreignKeys := by
    rw [hkeys, h.foreignKeys, List.filterMap_append]
    cases hkey : slot.foreignKey? <;> simp [hkey]
  constraints := hconstraints.trans h.constraints

theorem addScalar_follows (h : d.table.Follows ⟨done, constraints⟩ d.slots) (htype : field.isSqlTyped = true) :
    (d.addScalar field).table.Follows ⟨done ++ [field], constraints⟩ (d.addScalar field).slots := by
  refine h.add ⟨rfl, htype⟩ rfl ?_ rfl
  exact (List.append_nil _).symm

theorem addReference_follows (h : d.table.Follows ⟨done, constraints⟩ d.slots) {ref : TypeRef}
    (hclass : field.classify = .ok (.named ref)) (hok : outcome (d.addReference field ref) c = (.ok d', c')) :
    d'.table.Follows ⟨done ++ [field], constraints⟩ d'.slots := by
  obtain ⟨target, c₁, -, hok⟩ := outcome_bind_eq_ok.1 hok
  cases hok
  have hsuits : Slot.Suits field ⟨d.table.name, field.name, .reference d.table.name field.name target.table⟩ :=
    ⟨rfl, ref, hclass⟩
  exact h.add hsuits rfl rfl rfl

theorem addList_follows (h : d.table.Follows ⟨done, constraints⟩ d.slots) {item : TypeRef}
    (hclass : field.classify = .ok (.list item)) (hok : outcome (d.addList field item) c = (.ok d', c')) :
    d'.table.Follows ⟨done ++ [field], constraints⟩ d'.slots := by
  obtain ⟨⟨target, scalarItems⟩, c₁, -, hok⟩ := outcome_bind_eq_ok.1 hok
  dsimp only at hok
  split at hok
  · cases hok
  · obtain ⟨⟨⟩, c₂, -, hok⟩ := outcome_bind_eq_ok.1 hok
    cases hok
    have hsuits : Slot.Suits field ⟨d.table.name, field.name, .list d.table.name target.table scalarItems⟩ :=
      ⟨rfl, item, hclass⟩
    refine h.add hsuits ?_ ?_ rfl <;> exact (List.append_nil _).symm

theorem addField_follows (h : d.table.Follows ⟨done, constraints⟩ d.slots)
    (hok : outcome (d.addField field) c = (.ok d', c')) :
    d'.table.Follows ⟨done ++ [field], constraints⟩ d'.slots := by
  unfold ConfigDraft.addField at hok
  dsimp only at hok
  rw [get_bind_eq_ok] at hok
  obtain ⟨type, hclass, hok⟩ := ofExcept_bind_eq_ok.1 hok
  cases type with
  | list item => exact addList_follows h hclass hok
  | named ref =>
    dsimp only at hok
    split at hok
    · exact addReference_follows h hclass hok
    · rename_i hscalar
      rw [Bool.or_eq_true, not_or, Bool.not_eq_true', Bool.not_eq_false] at hscalar
      cases hok
      exact addScalar_follows h hscalar.2
  | sql =>
    dsimp only at hok
    split at hok
    · cases hok
    · split at hok
      · cases hok
      · rename_i htype
        cases hok
        exact addScalar_follows h (by simpa using htype)

theorem addFields_follows {fields : List FieldDef} (h : d.table.Follows ⟨done, constraints⟩ d.slots)
    (hok : outcome (d.addFields fields) c = (.ok d', c')) :
    d'.table.Follows ⟨done ++ fields, constraints⟩ d'.slots := by
  induction fields generalizing c done d with
  | nil =>
    cases hok
    rw [List.append_nil]
    exact h
  | cons field fields ih =>
    obtain ⟨d₁, c₁, hfield, hok⟩ := outcome_bind_eq_ok.1 hok
    rw [List.append_cons]
    exact ih (addField_follows h hfield) hok

/-! ## Configs one after another -/

/-- A schema whose slots are those of some configs, one after another, each with a table that follows its body. -/
structure CompiledSchema.Formed (s : CompiledSchema) (decls : List ConfigDecl) : Prop where
  configs : s.configs = decls.map (·.name)
  slots : s.slots = decls.flatMap fun decl => s.slotsOf decl.name
  tables : ∀ decl ∈ decls, ∃ body, parseBody decl.name decl.body = .ok body ∧
    ∃ t ∈ s.tables, t.name = decl.name ∧ t.Follows body (s.slotsOf decl.name)

theorem formed_compileConfig {decl : ConfigDecl} {decls : List ConfigDecl} {unit : SchemaUnit} {slots : List Slot}
    (h : Outlined c s) (hf : s.Formed decls) (hok : outcome (compileConfig decl) c = (.ok (unit, slots), c')) :
    CompiledSchema.Formed ⟨s.units ++ [unit], s.configs ++ [decl.name], s.slots ++ slots⟩ (decls ++ [decl]) := by
  obtain ⟨body, d, last, hbody, hnew, hfields, hd, -, rfl, rfl⟩ := drafted_compileConfig h hok
  obtain ⟨hfresh, hold⟩ := h.unused hnew
  have hown : ∀ slot ∈ d.slots, slot.config = decl.name := fun slot hslot => (hd.slots slot hslot).1
  have hself := slotsOf_append_self hold hown (s.units ++ [⟨decl.name, d.statements⟩]) (s.configs ++ [decl.name])
  -- the configs before this one keep their slots, because its name is new
  have hother : ∀ other ∈ decls, CompiledSchema.slotsOf ⟨s.units ++ [⟨decl.name, d.statements⟩],
      s.configs ++ [decl.name], s.slots ++ d.slots⟩ other.name = s.slotsOf other.name := by
    intro other hmem
    refine slotsOf_append_of_ne hown (fun heq => hfresh ?_) _ _
    rw [hf.configs, ← heq]
    exact List.mem_map_of_mem hmem
  have htables := tables_addUnit s ⟨decl.name, d.statements⟩ (s.configs ++ [decl.name]) (s.slots ++ d.slots)
  refine ⟨?configs, ?slots, ?tables⟩
  case configs => rw [hf.configs, List.map_append, List.map_singleton]
  case slots =>
    rw [List.flatMap_append, List.flatMap_singleton, hself, List.flatMap_congr hother, ← hf.slots]
  case tables =>
    rw [htables, tablesOf_statements]
    intro other hmem
    rcases List.mem_append.1 hmem with hmem | hmem
    · obtain ⟨body', hbody', t, ht, hname, hfollows⟩ := hf.tables other hmem
      rw [hother other hmem]
      exact ⟨body', hbody', t, List.mem_append_left _ ht, hname, hfollows⟩
    · rw [List.mem_singleton.1 hmem, hself]
      have hstart : (ConfigDraft.bare decl.name body.constraints).table.Follows ⟨[], body.constraints⟩ [] :=
        ⟨.nil, rfl, rfl, rfl⟩
      have hfollows := addFields_follows hstart hfields
      refine ⟨body, hbody, d.table, ?_, hd.name, hfollows⟩
      exact List.mem_append_right _ (List.mem_append_right _ (List.mem_cons_self ..))

theorem formed_compileConfigs {decls more : List ConfigDecl} {units : List SchemaUnit} {slots : List Slot}
    (h : Outlined c s) (hf : s.Formed decls) (hok : outcome (compileConfigs more) c = (.ok (units, slots), c')) :
    CompiledSchema.Formed ⟨s.units ++ units, s.configs ++ more.map (·.name), s.slots ++ slots⟩ (decls ++ more) := by
  induction more generalizing c s decls units slots with
  | nil =>
    cases hok
    rw [List.append_nil, List.map_nil, List.append_nil, List.append_nil, List.append_nil]
    exact hf
  | cons decl more ih =>
    obtain ⟨⟨unit, own⟩, c₁, hunit, hok⟩ := outcome_bind_eq_ok.1 hok
    obtain ⟨⟨others, rest⟩, c₂, hmore, hok⟩ := outcome_bind_eq_ok.1 hok
    cases hok
    rw [List.append_cons, List.map_cons, List.append_cons s.configs, List.append_cons decls, ← List.append_assoc]
    exact ih (outlined_compileConfig h hunit) (formed_compileConfig h hf hunit) hmore

theorem formed_of_compile {ds : Declarations} (hok : compile ds = .ok s) : s.Formed ds.configs := by
  obtain ⟨structs, c₁, hstructs, houtcome⟩ := outcome_bind_eq_ok.1 (outcome_of_compile hok)
  obtain ⟨⟨units, slots⟩, c₂, hconfigs, houtcome⟩ := outcome_bind_eq_ok.1 houtcome
  cases houtcome
  have hnone : CompiledSchema.Formed ⟨[] ++ structs, [], []⟩ [] := ⟨rfl, rfl, fun _ hd => nomatch hd⟩
  have hformed := formed_compileConfigs (outlined_compileStructs outlined_empty hstructs) hnone hconfigs
  rw [List.nil_append, List.nil_append, List.nil_append, List.nil_append] at hformed
  exact hformed

/-- A config has as many slots as its body has fields. -/
theorem CompiledSchema.Formed.length_slotsOf {decls : List ConfigDecl} (h : s.Formed decls) {decl : ConfigDecl}
    (hdecl : decl ∈ decls) :
    ∃ body, parseBody decl.name decl.body = .ok body ∧ (s.slotsOf decl.name).length = body.fields.length := by
  obtain ⟨body, hbody, t, -, -, hfollows⟩ := h.tables decl hdecl
  exact ⟨body, hbody, hfollows.suits.length_eq.symm⟩

/-! ## Agreement -/

/-- A field, its slot and the tables of a catalog agree. A scalar has a column with its own type and no foreign key. A
reference has an integer column with one foreign key, which leads to the target. A list has no column, and a junction
that leads to its items and to the config. -/
def Slot.AgreesWith (c : Catalog) (t : Table) (field : FieldDef) (s : Slot) : Prop :=
  s.config = t.name ∧ s.field = field.name ∧
    match s.storage with
    | .scalar table column => table = t.name ∧ column = field.name ∧ field.isSqlTyped = true ∧
        ⟨column, field.type⟩ ∈ t.columns ∧ t.foreignKeys.filter (·.column = column) = []
    | .reference table column target => table = t.name ∧ column = field.name ∧
        (∃ ref, field.classify = .ok (.named ref)) ∧ ⟨column, "INTEGER"⟩ ∈ t.columns ∧
        c.table target.name = some target ∧
        t.foreignKeys.filter (·.column = column) = [⟨column, target.name, some .setNull⟩]
    | .list table item _ => table = t.name ∧ (∃ ref, field.classify = .ok (.list ref)) ∧
        field.name ∉ t.columnNames ∧ c.table item.name = some item ∧
        ∃ junction, c.table (junctionName item.name t.name) = some junction ∧
          junction.columns = [⟨item.key, "INTEGER NOT NULL"⟩, ⟨t.key, "INTEGER NOT NULL"⟩] ∧
          junction.foreignKeys = [⟨item.key, item.name, some .cascade⟩, ⟨t.key, t.name, some .cascade⟩]

/-- A table of a config that is recorded in a catalog agrees with its body and its slots. It has no columns and foreign
keys other than those of its fields, and its columns have different names. -/
structure Table.Agrees (c : Catalog) (t : Table) (body : Body) (slots : List Slot) : Prop where
  recorded : c.table t.name = some t
  fields : List.Forall₂ (Slot.AgreesWith c t) body.fields slots
  columns : t.columns = (body.fields.zip slots).filterMap fun (field, slot) => slot.columnFor? field
  foreignKeys : t.foreignKeys = slots.filterMap Slot.foreignKey?
  names : (t.key :: t.columnNames).Nodup
  constraints : t.constraints = body.constraints

/-- Of slots with different fields, only the one with a certain field has foreign keys for it. -/
theorem foreignKeys_of_field {slots : List Slot} (hcolumns : ∀ slot ∈ slots, ∀ k ∈ slot.foreignKey?, k.column = slot.field)
    (hnodup : (slots.map (·.field)).Nodup) {slot : Slot} (hslot : slot ∈ slots) :
    (slots.filterMap Slot.foreignKey?).filter (·.column = slot.field) = slot.foreignKey?.toList := by
  induction slots with
  | nil => cases hslot
  | cons first slots ih =>
    obtain ⟨hfirst, hrest⟩ := List.forall_mem_cons.1 hcolumns
    rw [List.map_cons, List.nodup_cons] at hnodup
    have hkeys : (first :: slots).filterMap Slot.foreignKey? =
        first.foreignKey?.toList ++ slots.filterMap Slot.foreignKey? := by
      rw [List.filterMap_cons]
      cases first.foreignKey? <;> rfl
    rw [hkeys, List.filter_append]
    -- keys for a field come from its slot alone, which is the first one or one of the others
    rcases List.mem_cons.1 hslot with rfl | hmem
    · have hself : slot.foreignKey?.toList.filter (·.column = slot.field) = slot.foreignKey?.toList :=
        List.filter_eq_self.2 fun k hk => decide_eq_true (hfirst k (Option.mem_toList.1 hk))
      have hnone : (slots.filterMap Slot.foreignKey?).filter (·.column = slot.field) = [] := by
        refine List.filter_eq_nil_iff.2 fun k hk heq => hnodup.1 ?_
        obtain ⟨other, hother, hk⟩ := List.mem_filterMap.1 hk
        rw [← of_decide_eq_true heq, hrest other hother k hk]
        exact List.mem_map_of_mem hother
      rw [hself, hnone, List.append_nil]
    · have hnone : first.foreignKey?.toList.filter (·.column = slot.field) = [] := by
        refine List.filter_eq_nil_iff.2 fun k hk heq => hnodup.1 ?_
        rw [← hfirst k (Option.mem_toList.1 hk), of_decide_eq_true heq]
        exact List.mem_map_of_mem hmem
      rw [hnone, List.nil_append, ih hrest hnodup.2 hmem]

/-- The slots of a config have different fields. -/
theorem Outlined.nodup_fields (h : Outlined c s) (config : String) : ((s.slotsOf config).map (·.field)).Nodup := by
  have hapart : (s.slotsOf config).Pairwise Slot.Apart := h.apart.sublist List.filter_sublist
  refine List.pairwise_map.2 (hapart.imp_of_mem fun {a b} ha hb hab => hab.fields ?_)
  rw [of_decide_eq_true (List.mem_filter.1 ha).2, of_decide_eq_true (List.mem_filter.1 hb).2]

/-- Different slots have different paths. -/
theorem Outlined.nodup_paths (h : Outlined c s) : (s.slots.map Slot.path).Nodup := by
  refine List.pairwise_map.2 (h.apart.imp_of_mem fun {a b} ha hb hab hpath => ?_)
  obtain ⟨hconfig, hfield⟩ := Slot.eq_of_path (h.notMem_field ha) (h.notMem_field hb) hpath
  exact hab.fields hconfig hfield

section Follows

variable {body : Body} {slots : List Slot}

/-- The slots are those of the fields, in their order. -/
theorem fields_of_suits {fields : List FieldDef} (h : List.Forall₂ Slot.Suits fields slots) :
    slots.map (·.field) = fields.map (·.name) := by
  induction h with
  | nil => rfl
  | cons hsuit _ ih => rw [List.map_cons, List.map_cons, hsuit.1, ih]

theorem Table.Follows.columnNames (hf : t.Follows body slots) : t.columnNames = slots.filterMap Slot.column? := by
  have hname : ∀ pair : FieldDef × Slot, (pair.2.columnFor? pair.1).map (·.name) = pair.2.column? := by
    rintro ⟨field, slot⟩
    unfold Slot.columnFor? Slot.column?
    cases slot.storage <;> rfl
  unfold Table.columnNames
  rw [hf.columns, List.map_filterMap, List.filterMap_congr fun pair _ => hname pair]
  conv_rhs => rw [← List.map_snd_zip (Nat.le_of_eq hf.suits.length_eq.symm), List.filterMap_map]
  rfl

variable {made : List Table} {name : String}

/-- A column is named like the field of a slot that has one. -/
theorem Table.Follows.slot_of_column (hf : t.Follows body slots) (hplaced : ∀ slot ∈ slots, slot.Placed c made)
    (hname : name ∈ t.columnNames) : ∃ slot ∈ slots, slot.column? = some name ∧ slot.field = name := by
  rw [hf.columnNames] at hname
  obtain ⟨slot, hslot, hcolumn⟩ := List.mem_filterMap.1 hname
  exact ⟨slot, hslot, hcolumn, ((hplaced slot hslot).column hcolumn).symm⟩

theorem Table.Follows.nodup_columnNames (hf : t.Follows body slots) (hplaced : ∀ slot ∈ slots, slot.Placed c made)
    (hfields : (slots.map (·.field)).Nodup) : t.columnNames.Nodup := by
  rw [hf.columnNames]
  refine List.pairwise_filterMap.2 ((List.pairwise_map.1 hfields).imp_of_mem fun {a b} ha hb hab x hx y hy hxy => hab ?_)
  rw [← (hplaced a ha).column hx, ← (hplaced b hb).column hy, hxy]

/-- A field and its slot agree with a table that has what they ask for. -/
theorem Table.Follows.agreesWith (hf : t.Follows body slots) (hplaced : ∀ slot ∈ slots, slot.Placed c made)
    (hmade : ∀ u ∈ made, c.table u.name = some u) (hjunctions : ∀ slot ∈ slots, ∀ j ∈ slot.junction?, j ∈ made)
    (hconfigs : ∀ slot ∈ slots, slot.config = t.name) (hfields : (slots.map (·.field)).Nodup) {slot : Slot}
    (hpair : (field, slot) ∈ body.fields.zip slots) : slot.AgreesWith c t field := by
  have hmem : slot ∈ slots := (List.of_mem_zip hpair).2
  have hconfig := hconfigs slot hmem
  have hplace := hplaced slot hmem
  obtain ⟨hfield, hstorage⟩ := (List.forall₂_iff_zip.1 hf.suits).2 hpair
  have hcolumn : ∀ column, slot.columnFor? field = some column → column ∈ t.columns := by
    intro column hcolumn
    rw [hf.columns]
    exact List.mem_filterMap.2 ⟨(field, slot), hpair, hcolumn⟩
  have hkeys := foreignKeys_of_field (fun slot hslot k hk => ((hplaced slot hslot).foreignKey hk).1) hfields hmem
  rw [← hf.foreignKeys] at hkeys
  unfold Slot.Placed at hplace
  unfold Slot.AgreesWith
  refine ⟨hconfig, hfield, ?_⟩
  cases hs : slot.storage with
  | scalar table column =>
    rw [hs] at hplace hstorage
    obtain ⟨rfl, rfl⟩ := hplace
    refine ⟨hconfig, hfield, hstorage, hcolumn _ ?_, ?_⟩
    · rw [Slot.columnFor?, hs]
    · rw [hkeys, Slot.foreignKey?, hs]
      rfl
  | reference table column target =>
    rw [hs] at hplace hstorage
    obtain ⟨rfl, rfl, htarget, -⟩ := hplace
    refine ⟨hconfig, hfield, hstorage, hcolumn _ ?_, hmade target htarget, ?_⟩
    · rw [Slot.columnFor?, hs]
    · rw [hkeys, Slot.foreignKey?, hs]
      rfl
  | list table item scalarItems =>
    rw [hs] at hplace hstorage
    obtain ⟨rfl, hitem, -, -⟩ := hplace
    refine ⟨hconfig, hstorage, fun hname => ?_, hmade item hitem, ?_⟩
    · -- no other slot has this field, and this one has no column
      obtain ⟨other, hother, hcolumn, hname⟩ := hf.slot_of_column hplaced hname
      rw [List.inj_on_of_nodup_map hfields hother hmem (hname.trans hfield.symm), Slot.column?, hs] at hcolumn
      cases hcolumn
    · have hjunction : Table.junction item.name slot.config ∈ slot.junction? := by
        rw [Slot.junction?, hs]
        rfl
      rw [hconfig] at hjunction
      exact ⟨.junction item.name t.name, hmade _ (hjunctions slot hmem _ hjunction), rfl, rfl⟩

end Follows

/-- A table that follows its body agrees with it, in a catalog that has all the tables of the schema. -/
theorem Outlined.agrees (h : Outlined c s) {decl : ConfigDecl} {body : Body}
    (hbody : parseBody decl.name decl.body = .ok body) (ht : t ∈ s.tables) (hname : t.name = decl.name)
    (hf : t.Follows body (s.slotsOf decl.name)) : t.Agrees c body (s.slotsOf decl.name) := by
  have hslot : ∀ slot ∈ s.slotsOf decl.name, slot ∈ s.slots ∧ slot.config = t.name := fun slot hmem =>
    ⟨(List.mem_filter.1 hmem).1, (of_decide_eq_true (List.mem_filter.1 hmem).2).trans hname.symm⟩
  have hplaced : ∀ slot ∈ s.slotsOf decl.name, slot.Placed c s.tables := fun slot hmem =>
    (h.slots slot (hslot slot hmem).1).2.1
  have hnodup := h.nodup_fields decl.name
  refine ⟨h.supplies.table_of_mem ht, ?fields, hf.columns, hf.foreignKeys, ?names, hf.constraints⟩
  case fields =>
    refine List.forall₂_iff_zip.2 ⟨hf.suits.length_eq, fun {field slot} hpair => ?_⟩
    exact hf.agreesWith hplaced (fun u hu => h.supplies.table_of_mem hu)
      (fun slot hmem => (h.slots slot (hslot slot hmem).1).2.2) (fun slot hmem => (hslot slot hmem).2) hnodup hpair
  case names =>
    refine List.nodup_cons.2 ⟨fun hkey => ?_, hf.nodup_columnNames hplaced hnodup⟩
    obtain ⟨slot, hmem, -, hfield⟩ := hf.slot_of_column hplaced hkey
    have hnames : slot.field ∈ body.fields.map (·.name) := fields_of_suits hf.suits ▸ List.mem_map_of_mem hmem
    obtain ⟨field, hbodyField, hfieldName⟩ := List.mem_map.1 hnames
    refine parseBody_unreserved hbody field hbodyField ?_
    rw [hfieldName, hfield, ← hname]
    rfl

/-- **Fields and columns are in step.** Declarations that compile give one slot for each field of each config, in their
order and with different paths, and a table for each config that agrees with its fields and slots. -/
theorem slots_agree {decls : Declarations} (hok : compile decls = .ok s) :
    s.configs = decls.configs.map (·.name) ∧
    s.slots = decls.configs.flatMap (fun decl => s.slotsOf decl.name) ∧
    (s.slots.map Slot.path).Nodup ∧
    ∀ decl ∈ decls.configs, ∃ body, parseBody decl.name decl.body = .ok body ∧
      ∃ t ∈ s.tables, t.name = decl.name ∧
        t.Agrees (({} : Catalog).compile decls).2 body (s.slotsOf decl.name) := by
  have houtlined := outlined_of_compile hok
  have hformed := formed_of_compile hok
  refine ⟨hformed.configs, hformed.slots, houtlined.nodup_paths, fun decl hdecl => ?_⟩
  obtain ⟨body, hbody, t, ht, hname, hfollows⟩ := hformed.tables decl hdecl
  exact ⟨body, hbody, t, ht, hname, houtlined.agrees hbody ht hname hfollows⟩

/-- Fields of all kinds, where a reference and a list share an instantiation. -/
def windows : Declarations where
  structs := [⟨"Window", "minute INTEGER CHECK(minute < size)", some "size:INTEGER=5"⟩]
  configs := [⟨"Alpha", "port INTEGER NOT NULL, window Window(3), CHECK(port > 0), history LIST(Window( 3 )), p LIST(TEXT)"⟩,
    ⟨"Beta", "window Window(03)"⟩]

theorem slots_agree_windows : ∃ s, compile windows = .ok s ∧ (s.slots.map Slot.path).Nodup ∧
    ∀ decl ∈ windows.configs, ∃ body, parseBody decl.name decl.body = .ok body ∧
      ∃ t ∈ s.tables, t.name = decl.name ∧ t.Agrees (({} : Catalog).compile windows).2 body (s.slotsOf decl.name) := by
  have hrun : (compile windows).isOk = true := by decide +kernel
  rcases hok : compile windows with e | s
  · rw [hok] at hrun
    cases hrun
  · obtain ⟨-, -, hpaths, htables⟩ := slots_agree hok
    exact ⟨s, rfl, hpaths, htables⟩

end GuardedConfig.Schema
