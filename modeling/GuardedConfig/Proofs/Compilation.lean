import GuardedConfig.Proofs.Catalog

/-!
# `Proofs.Compilation` — what compiled declarations look like

The table of a config has one column for each scalar and each reference, with a foreign key for the references, and
there is one junction for each list. A table is created before what refers to it, and each config gets its row once.

## Contents

* `Slot.column?`, `Slot.foreignKey?`, `Slot.junction?`, `Slot.Placed`, `Slot.Apart`, `Slot.eq_of_path`
* `Drafted` — what a config has got from the fields so far
* `tablesOf`, `InOrder` — statements, and the order they stand in
* `Outlined` — what a schema looks like, and the meaning of its names; `Described`, if words are only for built-in types
* `outlined_compileDeclarations`, `outlined_of_compile` — declaration by declaration
-/

namespace GuardedConfig.Schema

open GuardedConfig.Field

variable {c c' : Catalog} {made : List Table}

/-! ## Slots -/

namespace Slot

/-- The column of a slot in the table of its config. -/
def column? (s : Slot) : Option String :=
  match s.storage with
  | .scalar _ column | .reference _ column _ => some column
  | .list .. => none

/-- The foreign key of a slot in the table of its config. -/
def foreignKey? (s : Slot) : Option ForeignKey :=
  match s.storage with
  | .reference _ column target => some ⟨column, target.name, some .setNull⟩
  | _ => none

/-- The junction of a slot. -/
def junction? (s : Slot) : Option Table :=
  match s.storage with
  | .list table item _ => some (.junction item.name table)
  | _ => none

/-- A slot that is stored in tables that are made, where names stand for what they should. -/
def Placed (c : Catalog) (made : List Table) (s : Slot) : Prop :=
  match s.storage with
  | .scalar table column => table = s.config ∧ column = s.field
  | .reference table column target => table = s.config ∧ column = s.field ∧ target ∈ made ∧ c.IsItem target.name
  | .list table item _ => table = s.config ∧ item ∈ made ∧ c.IsItem item.name ∧
      c.resolved (junctionName item.name table) = some .junction

/-- Two slots that have nothing in common: neither their path nor their junction. -/
structure Apart (s t : Slot) : Prop where
  fields : s.config = t.config → s.field ≠ t.field
  junctions : ∀ j ∈ s.junction?, ∀ k ∈ t.junction?, j.name ≠ k.name

theorem Apart.symm {a b : Slot} (h : a.Apart b) : b.Apart a :=
  ⟨fun hc hf => h.fields hc.symm hf.symm, fun j hj k hk hn => h.junctions k hk j hj hn.symm⟩

/-- The field of a path is what follows its last dot. -/
theorem eq_of_path {a b : Slot} (ha : '.' ∉ a.field.toList) (hb : '.' ∉ b.field.toList) (h : a.path = b.path) :
    a.config = b.config ∧ a.field = b.field := by
  have hchars : a.config.toList ++ '.' :: a.field.toList = b.config.toList ++ '.' :: b.field.toList := by
    simpa [Slot.path] using congrArg String.toList h
  -- a text in front of the last dot cannot go on after it
  have hsplit : ∀ {l l' r r' : List Char}, '.' ∉ r → l ++ '.' :: r = l' ++ '.' :: r' →
      ∀ m, l' = l ++ m → m = [] := by
    intro l l' r r' hr he m hm
    rw [hm, List.append_assoc] at he
    cases m with
    | nil => rfl
    | cons first m =>
      have hrest : r = m ++ '.' :: r' := (List.cons.inj (List.append_cancel_left he)).2
      exact absurd (hrest ▸ List.mem_append_right _ (List.mem_cons_self ..)) hr
  have hconfig : a.config.toList = b.config.toList := by
    rcases List.append_eq_append_iff.1 hchars with ⟨m, hm, -⟩ | ⟨m, hm, -⟩
    · rw [hm, hsplit ha hchars m hm, List.append_nil]
    · rw [hm, hsplit hb hchars.symm m hm, List.append_nil]
  rw [hconfig] at hchars
  exact ⟨String.toList_inj.1 hconfig, String.toList_inj.1 (List.cons.inj (List.append_cancel_left hchars)).2⟩

variable {slot : Slot} {more : List Table}

theorem Placed.mono (h : slot.Placed c made) (hc : c.Grows c') (hsub : made ⊆ more) : slot.Placed c' more := by
  unfold Placed at h ⊢
  cases hs : slot.storage with
  | scalar table column =>
    rw [hs] at h
    exact h
  | reference table column target =>
    rw [hs] at h
    obtain ⟨htable, hcolumn, hmem, hitem⟩ := h
    exact ⟨htable, hcolumn, hsub hmem, hitem.grows hc⟩
  | list table item scalarItems =>
    rw [hs] at h
    obtain ⟨htable, hmem, hitem, hk⟩ := h
    exact ⟨htable, hsub hmem, hitem.grows hc, hc _ _ hk⟩

theorem Placed.column (h : slot.Placed c made) {column : String} (hcolumn : column ∈ slot.column?) :
    column = slot.field := by
  unfold Placed at h
  unfold column? at hcolumn
  cases hs : slot.storage with
  | scalar table name =>
    rw [hs] at h hcolumn
    exact (Option.some.inj hcolumn).symm.trans h.2
  | reference table name target =>
    rw [hs] at h hcolumn
    exact (Option.some.inj hcolumn).symm.trans h.2.1
  | list table item scalarItems =>
    rw [hs] at hcolumn
    cases hcolumn

/-- The name of a junction stands for it. -/
theorem Placed.junction (h : slot.Placed c made) {j : Table} (hj : j ∈ slot.junction?) :
    c.resolved j.name = some .junction := by
  unfold Placed at h
  unfold junction? at hj
  cases hs : slot.storage with
  | list table item scalarItems =>
    rw [hs] at h hj
    cases hj
    exact h.2.2.2
  | _ =>
    rw [hs] at hj
    cases hj

/-- A junction is that of a table of items that is made. -/
theorem Placed.item (h : slot.Placed c made) {j : Table} (hj : j ∈ slot.junction?) :
    ∃ item ∈ made, j = .junction item.name slot.config := by
  unfold Placed at h
  unfold junction? at hj
  cases hs : slot.storage with
  | list table item scalarItems =>
    rw [hs] at h hj
    cases hj
    exact ⟨item, h.2.1, by rw [h.1]⟩
  | _ =>
    rw [hs] at hj
    cases hj

/-- A foreign key leads to a table of items that is made. -/
theorem Placed.foreignKey (h : slot.Placed c made) {k : ForeignKey} (hk : k ∈ slot.foreignKey?) :
    k.column = slot.field ∧ k.onDelete = some .setNull ∧ c.IsItem k.references ∧ ∃ p ∈ made, p.name = k.references := by
  unfold Placed at h
  unfold foreignKey? at hk
  cases hs : slot.storage with
  | reference table column target =>
    rw [hs] at h hk
    cases hk
    exact ⟨h.2.1, rfl, h.2.2.2, target, h.2.2.1, rfl⟩
  | _ =>
    rw [hs] at hk
    cases hk

end Slot

/-- Foreign keys are for some of the columns. -/
theorem foreignKeys_sublist (slots : List Slot) :
    ((slots.filterMap Slot.foreignKey?).map (·.column)).Sublist (slots.filterMap Slot.column?) := by
  induction slots with
  | nil => exact .refl []
  | cons slot slots ih =>
    rw [List.filterMap_cons, List.filterMap_cons]
    unfold Slot.foreignKey? Slot.column?
    cases slot.storage with
    | scalar table column => exact ih.cons column
    | reference table column target => exact ih.cons_cons column
    | list table item scalarItems => exact ih

/-! ## Drafts -/

/-- What the fields so far have given to a config: `known` is the catalog before them, `c` the one after them, and
`made` are the tables of earlier declarations. -/
structure Drafted (known c : Catalog) (made : List Table) (config : String) (done : List String) (d : ConfigDraft) :
    Prop where
  grows : known.Grows c
  supplies : c.Supplies (made ++ d.prerequisites)
  bare : ∀ t ∈ d.prerequisites, t.IsBare ∧ c.IsItem t.name
  name : d.table.name = config
  columns : d.table.columnNames = d.slots.filterMap Slot.column?
  foreignKeys : d.table.foreignKeys = d.slots.filterMap Slot.foreignKey?
  leads : ∀ k ∈ d.table.foreignKeys, k.Leads d.table
  junctions : d.junctions = d.slots.filterMap Slot.junction?
  awaits : ∀ t ∈ d.table :: d.junctions, c.Awaits t.name
  distinct : ((d.table :: d.junctions).map (·.name)).Nodup
  new : ∀ slot ∈ d.slots, ∀ j ∈ slot.junction?, known.resolved j.name = none
  fields : d.slots.map (·.field) = done
  slots : ∀ slot ∈ d.slots, slot.config = config ∧ slot.Placed c (made ++ d.prerequisites)
  apart : d.slots.Pairwise Slot.Apart

variable {known : Catalog} {config : String} {done : List String} {d d' : ConfigDraft} {slot : Slot}

theorem ForeignKey.Leads.mono {k : ForeignKey} {t u : Table} (h : k.Leads t) (hsub : t.columns ⊆ u.columns) :
    k.Leads u := by
  obtain ⟨column, hc, htype⟩ := h
  exact ⟨column, hsub hc, htype⟩

/-- The draft with a slot for one more field, with all that belongs to the slot. -/
theorem Drafted.add (h : Drafted known c made config done d) (slot : Slot) (hgrows : c.Grows c') {more : List Table}
    (hsupplies : c'.Supplies (made ++ d.prerequisites ++ more))
    (hmore : d'.prerequisites = d.prerequisites ++ more) (hbare : ∀ t ∈ more, t.IsBare ∧ c'.IsItem t.name)
    (hname : d'.table.name = config) (hcolumns : d'.table.columnNames = d.table.columnNames ++ slot.column?.toList)
    (hsub : d.table.columns ⊆ d'.table.columns)
    (hkeys : d'.table.foreignKeys = d.table.foreignKeys ++ slot.foreignKey?.toList)
    (hleads : ∀ k ∈ slot.foreignKey?, k.Leads d'.table)
    (hjunctions : d'.junctions = d.junctions ++ slot.junction?.toList)
    (hnew : ∀ j ∈ slot.junction?, c.resolved j.name = none ∧ c'.Awaits j.name)
    (hawaits : ∀ name, c.Awaits name → c'.Awaits name) (hslots : d'.slots = d.slots ++ [slot])
    (hconfig : slot.config = config) (hplaced : slot.Placed c' (made ++ d.prerequisites ++ more))
    (hfield : slot.field ∉ done) : Drafted known c' made config (done ++ [slot.field]) d' := by
  have hmade : made ++ d'.prerequisites = made ++ d.prerequisites ++ more := by rw [hmore, ← List.append_assoc]
  have hprerequisites : made ++ d.prerequisites ⊆ made ++ d'.prerequisites := by
    rw [hmade]
    exact List.subset_append_left _ _
  refine ⟨h.grows.trans hgrows, hmade ▸ hsupplies, ?bare, hname, ?columns, ?keys, ?leads, ?junctions,
    ?awaits, ?distinct, ?new, ?fields, ?slots, ?apart⟩
  case bare =>
    intro t ht
    rw [hmore] at ht
    rcases List.mem_append.1 ht with ht | ht
    · exact ⟨(h.bare t ht).1, (h.bare t ht).2.grows hgrows⟩
    · exact hbare t ht
  case columns =>
    rw [hcolumns, h.columns, hslots, List.filterMap_append]
    cases hs : slot.column? <;> simp [hs]
  case keys =>
    rw [hkeys, h.foreignKeys, hslots, List.filterMap_append]
    cases hs : slot.foreignKey? <;> simp [hs]
  case leads =>
    intro k hk
    rw [hkeys] at hk
    rcases List.mem_append.1 hk with hk | hk
    · exact (h.leads k hk).mono hsub
    · exact hleads k (Option.mem_toList.1 hk)
  case junctions =>
    rw [hjunctions, h.junctions, hslots, List.filterMap_append]
    cases hs : slot.junction? <;> simp [hs]
  case awaits =>
    intro t ht
    rcases List.mem_cons.1 ht with rfl | ht
    · rw [hname, ← h.name]
      exact hawaits _ (h.awaits _ (List.mem_cons_self ..))
    · rw [hjunctions] at ht
      rcases List.mem_append.1 ht with ht | ht
      · exact hawaits _ (h.awaits t (List.mem_cons_of_mem _ ht))
      · exact (hnew t (Option.mem_toList.1 ht)).2
  case distinct =>
    have hnames : (d'.table :: d'.junctions).map (·.name) =
        (d.table :: d.junctions).map (·.name) ++ slot.junction?.toList.map (·.name) := by
      rw [List.map_cons, List.map_cons, hname, h.name, hjunctions, List.map_append, List.cons_append]
    rw [hnames, List.nodup_append]
    -- the names so far are claimed, that of a new junction was not
    refine ⟨h.distinct, ?_, ?_⟩
    · cases slot.junction? <;> simp
    · rintro a ha b hb rfl
      obtain ⟨t, ht, rfl⟩ := List.mem_map.1 ha
      obtain ⟨j, hj, hjt⟩ := List.mem_map.1 hb
      obtain ⟨kind, hk, -⟩ := (h.awaits t ht).claimed
      rw [← hjt, (hnew j (Option.mem_toList.1 hj)).1] at hk
      cases hk
  case new =>
    intro s hs j hj
    rw [hslots] at hs
    rcases List.mem_append.1 hs with hs | hs
    · exact h.new s hs j hj
    · rw [List.mem_singleton.1 hs] at hj
      cases hk : known.resolved j.name with
      | none => rfl
      | some kind =>
        have := (hnew j hj).1
        rw [h.grows _ _ hk] at this
        cases this
  case fields =>
    rw [hslots, List.map_append, h.fields]
    rfl
  case slots =>
    intro s hs
    rw [hslots] at hs
    rcases List.mem_append.1 hs with hs | hs
    · exact ⟨(h.slots s hs).1, (h.slots s hs).2.mono hgrows hprerequisites⟩
    · rw [List.mem_singleton.1 hs]
      exact ⟨hconfig, hmade ▸ hplaced⟩
  case apart =>
    rw [hslots, List.pairwise_append]
    refine ⟨h.apart, List.pairwise_singleton _ _, fun s hs t ht => ?_⟩
    rw [List.mem_singleton.1 ht]
    constructor
    · rintro - hfields
      refine hfield ?_
      rw [← h.fields, ← hfields]
      exact List.mem_map_of_mem hs
    · intro j hj k hk hjk
      have hold := (h.slots s hs).2.junction hj
      rw [hjk, (hnew k hk).1] at hold
      cases hold

/-- A scalar field gets a column. -/
theorem Drafted.addScalar {field : FieldDef} (h : Drafted known c made config done d) (hfield : field.name ∉ done) :
    Drafted known c made config (done ++ [field.name]) (d.addScalar field) := by
  refine h.add ⟨d.table.name, field.name, .scalar d.table.name field.name⟩ (.refl c) ?_
    (List.append_nil _).symm (fun _ ht => (nomatch ht)) h.name ?_ (List.subset_append_left _ _) (List.append_nil _).symm
    (fun _ hk => (nomatch hk)) (List.append_nil _).symm (fun _ hj => (nomatch hj)) (fun _ ha => ha) rfl h.name
    ⟨rfl, rfl⟩ hfield
  · rw [List.append_nil]
    exact h.supplies
  · exact List.map_append

/-- A reference gets a column with a foreign key. -/
theorem Drafted.addReference {field : FieldDef} {ref : TypeRef} (h : Drafted known c made config done d)
    (hfield : field.name ∉ done) (hok : outcome (d.addReference field ref) c = (.ok d', c')) :
    Drafted known c' made config (done ++ [field.name]) d' := by
  obtain ⟨target, c₁, htarget, hok⟩ := outcome_bind_eq_ok.1 hok
  have hsupplied := reference_supplies h.supplies (inField_eq_ok.1 htarget)
  cases hok
  refine h.add ⟨d.table.name, field.name, .reference d.table.name field.name target.table⟩ hsupplied.grows
    hsupplied.supplies rfl hsupplied.bare h.name ?_ (List.subset_append_left _ _) rfl ?_ (List.append_nil _).symm
    (fun _ hj => (nomatch hj)) (fun _ => hsupplied.awaits h.supplies) rfl h.name
    ⟨rfl, rfl, hsupplied.mem, hsupplied.item⟩ hfield
  · exact List.map_append
  · intro k hk
    cases hk
    exact ⟨_, List.mem_append_right _ (List.mem_singleton_self _), rfl, .inl ⟨rfl, rfl⟩⟩

/-- A list gets a junction. -/
theorem Drafted.addList {field : FieldDef} {item : TypeRef} (h : Drafted known c made config done d)
    (hfield : field.name ∉ done) (hok : outcome (d.addList field item) c = (.ok d', c')) :
    Drafted known c' made config (done ++ [field.name]) d' := by
  obtain ⟨⟨target, scalarItems⟩, c₁, htarget, hok⟩ := outcome_bind_eq_ok.1 hok
  have hsupplied := listItem_supplies h.supplies (inField_eq_ok.1 htarget)
  dsimp only at hok
  split at hok
  · cases hok
  · obtain ⟨⟨⟩, c₂, hclaim, hok⟩ := outcome_bind_eq_ok.1 hok
    obtain ⟨hnew, rfl⟩ := claim_eq_ok.1 hclaim
    have hgrows := Catalog.grows_claim .junction hnew
    cases hok
    refine h.add ⟨d.table.name, field.name, .list d.table.name target.table scalarItems⟩
      (hsupplied.grows.trans hgrows) ?_ rfl ?_ h.name (List.append_nil _).symm (List.Subset.refl _)
      (List.append_nil _).symm (fun _ hk => (nomatch hk)) rfl ?_
      (fun _ ha => (hsupplied.awaits h.supplies ha).claim .junction hnew) rfl h.name
      ⟨rfl, hsupplied.mem, hsupplied.item.grows hgrows, Catalog.resolved_claim⟩ hfield
    · exact hsupplied.supplies.claim _ hnew fun b hb => absurd hb (ne_builtin _ _ b)
    · exact fun t ht => ⟨(hsupplied.bare t ht).1, (hsupplied.bare t ht).2.grows hgrows⟩
    · intro j hj
      cases hj
      refine ⟨?_, Catalog.awaits_claim hsupplied.supplies hnew (fun hk => (nomatch hk))⟩
      cases hk : c.resolved (Table.junction target.table.name d.table.name).name with
      | none => rfl
      | some kind =>
        rw [hsupplied.grows _ _ hk] at hnew
        cases hnew

theorem Drafted.addField {field : FieldDef} (h : Drafted known c made config done d)
    (hfield : field.name ∉ done) (hok : outcome (d.addField field) c = (.ok d', c')) :
    Drafted known c' made config (done ++ [field.name]) d' := by
  unfold ConfigDraft.addField at hok
  dsimp only at hok
  rw [get_bind_eq_ok] at hok
  obtain ⟨type, -, hok⟩ := ofExcept_bind_eq_ok.1 hok
  cases type with
  | list item => exact h.addList hfield hok
  | named ref =>
    dsimp only at hok
    split at hok
    · exact h.addReference hfield hok
    · cases hok
      exact h.addScalar hfield
  | sql =>
    dsimp only at hok
    split at hok
    · cases hok
    · split at hok
      · cases hok
      · cases hok
        exact h.addScalar hfield

/-- What comes next among different things has not come before. -/
theorem notMem_of_nodup {α : Type} {a : α} {front back : List α} (h : (front ++ a :: back).Nodup) : a ∉ front :=
  fun hmem => (List.nodup_cons.1 (List.nodup_middle.1 h)).1 (List.mem_append_left _ hmem)

theorem Drafted.addFields {fields : List FieldDef} (h : Drafted known c made config done d)
    (hfields : (done ++ fields.map (·.name)).Nodup) (hok : outcome (d.addFields fields) c = (.ok d', c')) :
    Drafted known c' made config (done ++ fields.map (·.name)) d' := by
  induction fields generalizing c done d with
  | nil =>
    cases hok
    rw [List.map_nil, List.append_nil]
    exact h
  | cons field fields ih =>
    obtain ⟨d₁, c₁, hfield, hok⟩ := outcome_bind_eq_ok.1 hok
    have hnotMem := notMem_of_nodup hfields
    rw [List.map_cons, List.append_cons] at hfields ⊢
    exact ih (h.addField hnotMem hfield) hfields hok

/-! ## Schemas -/

/-- The table that a statement creates. -/
def SchemaStatement.table? : SchemaStatement → Option Table
  | create t => some t
  | configRow _ => none

/-- The config whose row a statement inserts. -/
def SchemaStatement.row? : SchemaStatement → Option String
  | create _ => none
  | configRow config => some config

/-- The tables that statements create, in order. -/
def tablesOf (ss : List SchemaStatement) : List Table := ss.filterMap SchemaStatement.table?

/-- A table whose names are good, and whose foreign keys lead to tables that are made. -/
structure Table.Grounded (made : List Table) (t : Table) : Prop where
  columns : ∀ c ∈ t.columns, isFieldName c.name = true ∨ ∃ p ∈ made, c.name = p.key
  leads : ∀ k ∈ t.foreignKeys, k.Leads t ∧ ∃ p ∈ made, p.name = k.references
  keys : (t.foreignKeys.map (·.column)).Sublist t.columnNames

/-- Statements in an order in which tables exist when they are referred to. -/
def InOrder : List Table → List SchemaStatement → Prop
  | _, [] => True
  | made, .create t :: ss => t.Grounded made ∧ InOrder (made ++ [t]) ss
  | made, .configRow config :: ss => (∃ t ∈ made, t.name = config) ∧ InOrder made ss

theorem inOrder_append {ss more : List SchemaStatement} :
    InOrder made (ss ++ more) ↔ InOrder made ss ∧ InOrder (made ++ tablesOf ss) more := by
  induction ss generalizing made with
  | nil =>
    show _ ↔ True ∧ InOrder (made ++ []) more
    rw [List.append_nil, true_and]
    rfl
  | cons s ss ih =>
    cases s with
    | create t =>
      show _ ∧ InOrder (made ++ [t]) (ss ++ more) ↔ (_ ∧ InOrder (made ++ [t]) ss) ∧ InOrder (made ++ t :: tablesOf ss) more
      rw [ih, and_assoc, List.append_cons made t (tablesOf ss)]
    | configRow config =>
      show _ ∧ InOrder made (ss ++ more) ↔ (_ ∧ InOrder made ss) ∧ InOrder (made ++ tablesOf ss) more
      rw [ih, and_assoc]

theorem Table.Grounded.mono {t : Table} {more : List Table} (h : t.Grounded made) (hsub : made ⊆ more) :
    t.Grounded more where
  columns c hc := by
    rcases h.columns c hc with hname | ⟨p, hp, hkey⟩
    · exact .inl hname
    · exact .inr ⟨p, hsub hp, hkey⟩
  leads k hk := by
    obtain ⟨hlead, p, hp, hname⟩ := h.leads k hk
    exact ⟨hlead, p, hsub hp, hname⟩
  keys := h.keys

/-- Tables that are grounded in what is made before all of them. -/
theorem inOrder_creates {ts : List Table} (h : ∀ t ∈ ts, t.Grounded made) : InOrder made (ts.map .create) := by
  induction ts generalizing made with
  | nil => exact ⟨⟩
  | cons t ts ih =>
    obtain ⟨ht, hts⟩ := List.forall_mem_cons.1 h
    exact ⟨ht, ih fun u hu => (hts u hu).mono (List.subset_append_left _ _)⟩

theorem tablesOf_creates (ts : List Table) : tablesOf (ts.map .create) = ts := by
  unfold tablesOf
  rw [List.filterMap_map]
  exact List.filterMap_some

theorem rows_creates (ts : List Table) : (ts.map SchemaStatement.create).filterMap SchemaStatement.row? = [] :=
  List.filterMap_eq_nil_iff.2 (List.forall_mem_map.2 fun _ _ => rfl)

namespace CompiledSchema

/-- The statements of all units, in order. -/
def statements (s : CompiledSchema) : List SchemaStatement := s.units.flatMap (·.statements)

/-- The tables of a schema, in the order in which they are created. -/
def tables (s : CompiledSchema) : List Table := tablesOf s.statements

/-- The slots of a config. -/
def slotsOf (s : CompiledSchema) (config : String) : List Slot := s.slots.filter (·.config = config)

/-- The table of a config: its columns and its foreign keys are those of its slots. -/
structure IsConfig (s : CompiledSchema) (t : Table) : Prop where
  mem : t.name ∈ s.configs
  columns : t.columnNames = (s.slotsOf t.name).filterMap Slot.column?
  foreignKeys : t.foreignKeys = (s.slotsOf t.name).filterMap Slot.foreignKey?

end CompiledSchema

/-- What a schema looks like, with a catalog that knows its names and its tables. -/
structure Outlined (c : Catalog) (s : CompiledSchema) : Prop where
  supplies : c.Supplies s.tables
  inOrder : InOrder [] s.statements
  rows : s.statements.filterMap SchemaStatement.row? = s.configs
  configs : ∀ name ∈ s.configs, c.resolved name = some .config
  nodup : s.configs.Nodup
  slots : ∀ slot ∈ s.slots, slot.config ∈ s.configs ∧ slot.Placed c s.tables ∧ ∀ j ∈ slot.junction?, j ∈ s.tables
  named : ∀ slot ∈ s.slots, isFieldName slot.field = true
  apart : s.slots.Pairwise Slot.Apart
  sorts : ∀ t ∈ s.tables, t.IsBare ∧ c.IsItem t.name ∨ s.IsConfig t ∨ ∃ slot ∈ s.slots, t ∈ slot.junction?

/-- A schema with no config that is named like a built-in type, so items are in tables of their own. -/
structure Described (c : Catalog) (s : CompiledSchema) : Prop extends Outlined c s where
  words : ∀ name ∈ s.configs, Builtin.ofName? name = none

variable {s : CompiledSchema}

/-- The name of a field has no dot. -/
theorem Outlined.notMem_field (h : Outlined c s) {slot : Slot} (hslot : slot ∈ s.slots) : '.' ∉ slot.field.toList :=
  notMem_of_isFieldName (h.named slot hslot) (by decide) (by decide) (by decide +kernel)

theorem tables_addUnit (s : CompiledSchema) (unit : SchemaUnit) (configs : List String) (slots : List Slot) :
    (⟨s.units ++ [unit], configs, slots⟩ : CompiledSchema).tables = s.tables ++ tablesOf unit.statements := by
  unfold CompiledSchema.tables CompiledSchema.statements tablesOf
  rw [List.flatMap_append, List.filterMap_append, List.flatMap_singleton]

theorem statements_addUnit (s : CompiledSchema) (unit : SchemaUnit) (configs : List String) (slots : List Slot) :
    (⟨s.units ++ [unit], configs, slots⟩ : CompiledSchema).statements = s.statements ++ unit.statements := by
  unfold CompiledSchema.statements
  rw [List.flatMap_append, List.flatMap_singleton]

theorem Table.IsBare.grounded {t : Table} (h : t.IsBare) : t.Grounded made where
  columns c hc := .inl (h.columns c hc)
  leads k hk := by
    rw [h.foreignKeys] at hk
    cases hk
  keys := by
    rw [h.foreignKeys]
    exact List.nil_sublist _

/-- A junction is grounded where its two tables are. -/
theorem grounded_junction {item owner : Table} (hi : item ∈ made) (ho : owner ∈ made) :
    (Table.junction item.name owner.name).Grounded made := by
  have hcolumns : ∀ c ∈ (Table.junction item.name owner.name).columns, c.name = item.key ∨ c.name = owner.key := by
    intro c hc
    rcases List.mem_pair.1 hc with rfl | rfl
    · exact .inl rfl
    · exact .inr rfl
  refine ⟨fun c hc => .inr ?_, fun k hk => ?_, List.Sublist.refl _⟩
  · rcases hcolumns c hc with hkey | hkey
    · exact ⟨item, hi, hkey⟩
    · exact ⟨owner, ho, hkey⟩
  · rcases List.mem_pair.1 hk with rfl | rfl
    · exact ⟨⟨_, List.mem_cons_self .., rfl, .inr ⟨rfl, rfl⟩⟩, item, hi, rfl⟩
    · exact ⟨⟨_, List.mem_cons_of_mem _ (List.mem_singleton_self _), rfl, .inr ⟨rfl, rfl⟩⟩, owner, ho, rfl⟩

/-- A slot stays what it is when names and tables are added. -/
theorem Outlined.slot_grows (h : Outlined c s) (hgrows : c.Grows c') {more : List Table} (hsub : s.tables ⊆ more)
    {slot : Slot} (hslot : slot ∈ s.slots) :
    slot.config ∈ s.configs ∧ slot.Placed c' more ∧ ∀ j ∈ slot.junction?, j ∈ more := by
  obtain ⟨hconfig, hplaced, hjunctions⟩ := h.slots slot hslot
  exact ⟨hconfig, hplaced.mono hgrows hsub, fun j hj => hsub (hjunctions j hj)⟩

/-- A table stays what it is in a schema with more configs, if the configs so far keep their slots. -/
theorem Outlined.sort_grows (h : Outlined c s) (hgrows : c.Grows c') {more : CompiledSchema}
    (hconfigs : s.configs ⊆ more.configs) (hslots : s.slots ⊆ more.slots)
    (hsame : ∀ config ∈ s.configs, more.slotsOf config = s.slotsOf config) {t : Table} (ht : t ∈ s.tables) :
    t.IsBare ∧ c'.IsItem t.name ∨ more.IsConfig t ∨ ∃ slot ∈ more.slots, t ∈ slot.junction? := by
  rcases h.sorts t ht with ⟨hbare, hitem⟩ | hconfig | ⟨slot, hslot, hj⟩
  · exact .inl ⟨hbare, hitem.grows hgrows⟩
  · refine .inr (.inl ⟨hconfigs hconfig.mem, ?_, ?_⟩) <;> rw [hsame t.name hconfig.mem]
    · exact hconfig.columns
    · exact hconfig.foreignKeys
  · exact .inr (.inr ⟨slot, hslots hslot, hj⟩)

/-- The slots of a config that is new are those that come with it. -/
theorem slotsOf_append_self {name : String} {more : List Slot} (hold : ∀ slot ∈ s.slots, slot.config ≠ name)
    (hmore : ∀ slot ∈ more, slot.config = name) (units : List SchemaUnit) (configs : List String) :
    CompiledSchema.slotsOf ⟨units, configs, s.slots ++ more⟩ name = more := by
  unfold CompiledSchema.slotsOf
  rw [List.filter_append, List.filter_eq_nil_iff.2, List.filter_eq_self.2, List.nil_append]
  · exact fun slot hslot => decide_eq_true (hmore slot hslot)
  · exact fun slot hslot heq => hold slot hslot (of_decide_eq_true heq)

/-- The slots of the other configs stay as they are. -/
theorem slotsOf_append_of_ne {name config : String} {more : List Slot} (hmore : ∀ slot ∈ more, slot.config = name)
    (hne : config ≠ name) (units : List SchemaUnit) (configs : List String) :
    CompiledSchema.slotsOf ⟨units, configs, s.slots ++ more⟩ config = s.slotsOf config := by
  have hnone : more.filter (·.config = config) = [] := by
    refine List.filter_eq_nil_iff.2 fun slot hslot heq => hne ?_
    rw [← hmore slot hslot, of_decide_eq_true heq]
  unfold CompiledSchema.slotsOf
  rw [List.filter_append, hnone, List.append_nil]

/-! ## Structs -/

/-- A catalog that has grown, and one more unit with tables for items. -/
theorem Outlined.addItems (h : Outlined c s) {ts : List Table} (hgrows : c.Grows c')
    (hsupplies : c'.Supplies (s.tables ++ ts)) (hitems : ∀ t ∈ ts, t.IsBare ∧ c'.IsItem t.name) (name : String) :
    Outlined c' ⟨s.units ++ [⟨name, ts.map .create⟩], s.configs, s.slots⟩ := by
  have htables := tables_addUnit s ⟨name, ts.map .create⟩ s.configs s.slots
  rw [tablesOf_creates] at htables
  have hstatements := statements_addUnit s ⟨name, ts.map .create⟩ s.configs s.slots
  refine ⟨htables ▸ hsupplies, ?order, ?rows, fun name hn => hgrows _ _ (h.configs name hn), h.nodup, ?slots, h.named,
    h.apart, ?sorts⟩
  case order =>
    rw [hstatements, inOrder_append]
    exact ⟨h.inOrder, inOrder_creates fun t ht => (hitems t ht).1.grounded⟩
  case rows =>
    rw [hstatements, List.filterMap_append, h.rows, rows_creates, List.append_nil]
  case slots =>
    rw [htables]
    exact fun slot hslot => h.slot_grows hgrows (List.subset_append_left _ _) hslot
  case sorts =>
    rw [htables]
    intro u hu
    rcases List.mem_append.1 hu with hu | hu
    · refine h.sort_grows hgrows ?_ ?_ ?_ hu
      · exact List.Subset.refl _
      · exact List.Subset.refl _
      · exact fun _ _ => rfl
    · exact .inl (hitems u hu)

theorem not_ofName? {name : String} (h : ¬ (Builtin.ofName? name).isSome = true) (b : Builtin) : name ≠ b.name := by
  rintro rfl
  rw [Builtin.ofName?_name] at h
  exact h rfl

/-- A catalog that has grown. -/
theorem Outlined.grow (h : Outlined c s) (hgrows : c.Grows c') (hsupplies : c'.Supplies s.tables) : Outlined c' s := by
  refine ⟨hsupplies, h.inOrder, h.rows, fun name hn => hgrows _ _ (h.configs name hn), h.nodup, ?_, h.named, h.apart, ?_⟩
  · exact fun slot hslot => h.slot_grows hgrows (List.Subset.refl _) hslot
  · exact fun t ht => h.sort_grows hgrows (List.Subset.refl _) (List.Subset.refl _) (fun _ _ => rfl) ht

theorem outlined_compileStruct {decl : StructDecl} {unit : Option SchemaUnit} (h : Outlined c s)
    (hok : outcome (compileStruct decl) c = (.ok unit, c')) :
    Outlined c' ⟨s.units ++ unit.toList, s.configs, s.slots⟩ := by
  unfold compileStruct at hok
  by_cases hname : (Builtin.ofName? decl.name).isSome = true
  · dsimp only at hok
    rw [if_pos hname] at hok
    cases decl.argument <;> cases hok
  dsimp only at hok
  rw [if_neg hname] at hok
  cases hargument : decl.argument with
  | some text =>
    rw [hargument] at hok
    obtain ⟨rule, -, hok⟩ := ofExcept_bind_eq_ok.1 hok
    obtain ⟨t, -, hok⟩ := ofExcept_bind_eq_ok.1 hok
    obtain ⟨⟨⟩, c₁, hclaim, hok⟩ := outcome_bind_eq_ok.1 hok
    obtain ⟨hnew, rfl⟩ := claim_eq_ok.1 hclaim
    cases hok
    have hclaimed := h.supplies.claim .template hnew fun b hb => absurd hb (not_ofName? hname b)
    rw [Option.toList_none, List.append_nil]
    exact h.grow (Catalog.grows_claim _ hnew) (hclaimed.recordTemplate rfl)
  | none =>
    rw [hargument] at hok
    obtain ⟨t, ht, hok⟩ := ofExcept_bind_eq_ok.1 hok
    obtain ⟨⟨⟩, c₁, hclaim, hok⟩ := outcome_bind_eq_ok.1 hok
    obtain ⟨hnew, rfl⟩ := claim_eq_ok.1 hclaim
    obtain ⟨hname', hbare⟩ := structTable_eq_ok ht
    cases hok
    have hsupplied : Supplied c s.tables { table := t, made := [t] }
        { c with names := assign decl.name .struct c.names, tables := assign decl.name t c.tables } :=
      .claimed h.supplies hnew (fun b hb => absurd hb (not_ofName? hname b)) hname' hbare rfl
    exact h.addItems hsupplied.grows hsupplied.supplies hsupplied.bare decl.name

theorem outlined_compileStructs {decls : List StructDecl} {units : List SchemaUnit} (h : Outlined c s)
    (hok : outcome (compileStructs decls) c = (.ok units, c')) :
    Outlined c' ⟨s.units ++ units, s.configs, s.slots⟩ := by
  induction decls generalizing c s units with
  | nil =>
    cases hok
    rw [List.append_nil]
    exact h
  | cons decl decls ih =>
    obtain ⟨unit, c₁, hunit, hok⟩ := outcome_bind_eq_ok.1 hok
    obtain ⟨more, c₂, hmore, hok⟩ := outcome_bind_eq_ok.1 hok
    cases hok
    rw [← List.append_assoc]
    exact ih (outlined_compileStruct h hunit) hmore

/-! ## Configs -/

theorem tablesOf_append (ss more : List SchemaStatement) : tablesOf (ss ++ more) = tablesOf ss ++ tablesOf more :=
  List.filterMap_append

/-- The tables of a draft that is done. -/
theorem tablesOf_draft (d : ConfigDraft) :
    tablesOf (d.prerequisites.map .create ++ .create d.table :: d.junctions.map .create) =
      d.prerequisites ++ d.table :: d.junctions := by
  rw [tablesOf_append, tablesOf_creates]
  show _ ++ d.table :: tablesOf _ = _
  rw [tablesOf_creates]

theorem tablesOf_statements (d : ConfigDraft) : tablesOf d.statements = d.prerequisites ++ d.table :: d.junctions := by
  unfold ConfigDraft.statements
  rw [tablesOf_append, tablesOf_draft]
  exact List.append_nil _

theorem rows_statements (d : ConfigDraft) : d.statements.filterMap SchemaStatement.row? = [d.table.name] := by
  unfold ConfigDraft.statements
  rw [List.filterMap_append, List.filterMap_append, rows_creates]
  show [] ++ List.filterMap _ (d.junctions.map _) ++ _ = _
  rw [rows_creates]
  rfl

/-- Recording tables whose names wait for them. -/
theorem recordTables_supplies {ts : List Table} (h : c.Supplies made) (hts : ∀ t ∈ ts, c.Awaits t.name)
    (hnodup : (ts.map (·.name)).Nodup) (hok : outcome (recordTables ts) c = (.ok (), c')) :
    c.Grows c' ∧ c'.Supplies (made ++ ts) := by
  induction ts generalizing c made with
  | nil =>
    cases hok
    rw [List.append_nil]
    exact ⟨.refl _, h⟩
  | cons t ts ih =>
    obtain ⟨ht, hts⟩ := List.forall_mem_cons.1 hts
    rw [List.map_cons, List.nodup_cons] at hnodup
    obtain ⟨⟨⟩, c₁, hrecord, hok⟩ := outcome_bind_eq_ok.1 hok
    cases hrecord
    obtain ⟨kind, hk, -⟩ := ht.claimed
    have hwait : ∀ u ∈ ts, Catalog.Awaits { c with tables := assign t.name t c.tables } u.name := fun u hu =>
      (hts u hu).record t fun hname => hnodup.1 (hname ▸ List.mem_map_of_mem hu)
    obtain ⟨hgrows, hsupplies⟩ := ih (h.record rfl hk ht.unrecorded) hwait hnodup.2 hok
    rw [List.append_cons]
    exact ⟨hgrows, hsupplies⟩

/-- The tables of a draft are grounded. -/
theorem Drafted.inOrder (h : Drafted known c made config done d) (hdone : ∀ name ∈ done, isFieldName name = true) :
    InOrder made d.statements := by
  unfold ConfigDraft.statements
  rw [inOrder_append, inOrder_append, tablesOf_creates, tablesOf_draft]
  have htable : d.table.Grounded (made ++ d.prerequisites) := by
    constructor
    · intro column hc
      have hmem : column.name ∈ d.table.columnNames := List.mem_map_of_mem hc
      rw [h.columns, List.mem_filterMap] at hmem
      obtain ⟨slot, hslot, hcolumn⟩ := hmem
      rw [(h.slots slot hslot).2.column hcolumn]
      refine .inl (hdone _ ?_)
      rw [← h.fields]
      exact List.mem_map_of_mem hslot
    · intro k hk
      refine ⟨h.leads k hk, ?_⟩
      rw [h.foreignKeys, List.mem_filterMap] at hk
      obtain ⟨slot, hslot, hk⟩ := hk
      exact ((h.slots slot hslot).2.foreignKey hk).2.2.2
    · rw [h.foreignKeys, h.columns]
      exact foreignKeys_sublist _
  refine ⟨⟨inOrder_creates fun t ht => (h.bare t ht).1.grounded, htable, inOrder_creates fun j hj => ?_⟩, ?_, ⟨⟩⟩
  · rw [h.junctions, List.mem_filterMap] at hj
    obtain ⟨slot, hslot, hj⟩ := hj
    obtain ⟨hconfig, hplaced⟩ := h.slots slot hslot
    obtain ⟨item, hmem, rfl⟩ := hplaced.item hj
    rw [hconfig, ← h.name]
    exact grounded_junction (List.mem_append_left _ hmem) (List.mem_append_right _ (List.mem_singleton_self _))
  · exact ⟨d.table, List.mem_append_right _ (List.mem_append_right _ (List.mem_cons_self ..)), rfl⟩

/-- A name without a meaning is not that of a config, and no slot is one of its slots. -/
theorem Outlined.unused (h : Outlined c s) {name : String} (hnew : c.resolved name = none) :
    name ∉ s.configs ∧ ∀ slot ∈ s.slots, slot.config ≠ name := by
  have hfresh : name ∉ s.configs := by
    intro hmem
    rw [h.configs name hmem] at hnew
    cases hnew
  exact ⟨hfresh, fun slot hslot heq => hfresh (heq ▸ (h.slots slot hslot).1)⟩

/-- What a draft adds to a schema. -/
theorem Outlined.addConfig (h : Outlined c s) {last : Catalog} {name : String}
    (hd : Drafted known last s.tables name done d) (hgrows : c.Grows known) (hlast : last.Grows c')
    (hnew : c.resolved name = none) (hname : c'.resolved name = some .config)
    (hsupplies : c'.Supplies (s.tables ++ tablesOf d.statements)) (hdone : ∀ name ∈ done, isFieldName name = true) :
    Outlined c' ⟨s.units ++ [⟨name, d.statements⟩], s.configs ++ [name], s.slots ++ d.slots⟩ := by
  have htables := tables_addUnit s ⟨name, d.statements⟩ (s.configs ++ [name]) (s.slots ++ d.slots)
  have hstatements := statements_addUnit s ⟨name, d.statements⟩ (s.configs ++ [name]) (s.slots ++ d.slots)
  have hgrows' := (hgrows.trans hd.grows).trans hlast
  obtain ⟨hfresh, hold⟩ := h.unused hnew
  have hown : ∀ slot ∈ d.slots, slot.config = name := fun slot hslot => (hd.slots slot hslot).1
  have hself := slotsOf_append_self hold hown (s.units ++ [⟨name, d.statements⟩]) (s.configs ++ [name])
  dsimp only at htables hstatements
  refine ⟨htables ▸ hsupplies, ?order, ?rows, ?configs, ?nodup, ?slots, ?named, ?apart, ?sorts⟩
  case order =>
    rw [hstatements, inOrder_append]
    exact ⟨h.inOrder, hd.inOrder hdone⟩
  case rows =>
    rw [hstatements, List.filterMap_append, h.rows, rows_statements, hd.name]
  case configs =>
    intro config hconfig
    rcases List.mem_append.1 hconfig with hconfig | hconfig
    · exact hgrows' _ _ (h.configs config hconfig)
    · rw [List.mem_singleton.1 hconfig]
      exact hname
  case nodup =>
    rw [List.nodup_append]
    refine ⟨h.nodup, List.pairwise_singleton _ _, ?_⟩
    rintro a ha b hb rfl
    rw [List.mem_singleton.1 hb] at ha
    exact hfresh ha
  case slots =>
    rw [htables, tablesOf_statements, ← List.append_assoc]
    intro slot hslot
    rcases List.mem_append.1 hslot with hslot | hslot
    · have hsub : s.tables ⊆ s.tables ++ d.prerequisites ++ d.table :: d.junctions :=
        List.Subset.trans (List.subset_append_left _ _) (List.subset_append_left _ _)
      obtain ⟨hconfig, hrest⟩ := h.slot_grows hgrows' hsub hslot
      exact ⟨List.mem_append_left _ hconfig, hrest⟩
    · obtain ⟨hconfig, hplaced⟩ := hd.slots slot hslot
      refine ⟨List.mem_append_right _ (List.mem_singleton.2 hconfig),
        hplaced.mono hlast (List.subset_append_left _ _), fun j hj => ?_⟩
      refine List.mem_append_right _ (List.mem_cons_of_mem _ ?_)
      rw [hd.junctions]
      exact List.mem_filterMap.2 ⟨slot, hslot, hj⟩
  case named =>
    intro slot hslot
    rcases List.mem_append.1 hslot with hslot | hslot
    · exact h.named slot hslot
    · refine hdone _ ?_
      rw [← hd.fields]
      exact List.mem_map_of_mem hslot
  case apart =>
    refine List.pairwise_append.2 ⟨h.apart, hd.apart, fun a ha b hb => ⟨fun hconfigs => ?_, fun j hj k hk hjk => ?_⟩⟩
    · rw [(hd.slots b hb).1] at hconfigs
      exact absurd (hconfigs ▸ (h.slots a ha).1) hfresh
    · have hknown := hgrows _ _ ((h.slots a ha).2.1.junction hj)
      rw [hjk, hd.new b hb k hk] at hknown
      cases hknown
  case sorts =>
    rw [htables, tablesOf_statements]
    intro t ht
    rcases List.mem_append.1 ht with ht | ht
    · exact h.sort_grows hgrows' (List.subset_append_left _ _) (List.subset_append_left _ _)
        (fun config hconfig => slotsOf_append_of_ne hown (fun heq => hfresh (heq ▸ hconfig)) _ _) ht
    -- the tables of the draft: those it needs first, that of the config, and the junctions
    rcases List.mem_append.1 ht with ht | ht
    · exact .inl ⟨(hd.bare t ht).1, (hd.bare t ht).2.grows hlast⟩
    rcases List.mem_cons.1 ht with rfl | ht
    · refine .inr (.inl ⟨List.mem_append_right _ (List.mem_singleton.2 hd.name), ?_, ?_⟩) <;> rw [hd.name, hself]
      · exact hd.columns
      · exact hd.foreignKeys
    · rw [hd.junctions, List.mem_filterMap] at ht
      obtain ⟨slot, hslot, hj⟩ := ht
      exact .inr (.inr ⟨slot, List.mem_append_right _ hslot, hj⟩)

/-- The draft of a config without fields. -/
def ConfigDraft.bare (name : String) (constraints : List String) : ConfigDraft := { table := { name, constraints } }

/-- A config starts with a name that has had no meaning before. -/
theorem drafted_bare (h : Outlined c s) {name : String} (hnew : c.resolved name = none) (constraints : List String) :
    Drafted { c with names := assign name .config c.names } { c with names := assign name .config c.names } s.tables name []
      (.bare name constraints) := by
  refine ⟨.refl _, ?_, fun _ ht => (nomatch ht), rfl, rfl, rfl, fun _ hk => (nomatch hk), rfl, ?_,
    List.pairwise_singleton _ _, fun _ hs => (nomatch hs), rfl, fun _ hs => (nomatch hs), List.Pairwise.nil⟩
  · show Catalog.Supplies _ (s.tables ++ [])
    rw [List.append_nil]
    exact h.supplies.claim .config hnew fun _ _ => .inr rfl
  · intro t ht
    rw [List.mem_singleton.1 ht]
    exact Catalog.awaits_claim h.supplies hnew fun hk => (nomatch hk)

/-- A config is compiled field by field, from a draft with its constraints alone, and its tables are recorded then. -/
theorem drafted_compileConfig {decl : ConfigDecl} {unit : SchemaUnit} {slots : List Slot} (h : Outlined c s)
    (hok : outcome (compileConfig decl) c = (.ok (unit, slots), c')) :
    ∃ body d last, parseBody decl.name decl.body = .ok body ∧ c.resolved decl.name = none ∧
      outcome ((ConfigDraft.bare decl.name body.constraints).addFields body.fields)
        { c with names := assign decl.name .config c.names } = (.ok d, last) ∧
      Drafted { c with names := assign decl.name .config c.names } last s.tables decl.name
        (body.fields.map (·.name)) d ∧
      outcome (recordTables (d.table :: d.junctions)) last = (.ok (), c') ∧
      unit = ⟨decl.name, d.statements⟩ ∧ slots = d.slots := by
  obtain ⟨body, hbody, hok⟩ := ofExcept_bind_eq_ok.1 hok
  obtain ⟨⟨⟩, c₁, hclaim, hok⟩ := outcome_bind_eq_ok.1 hok
  obtain ⟨hnew, rfl⟩ := claim_eq_ok.1 hclaim
  obtain ⟨d, c₂, hfields, hok⟩ := outcome_bind_eq_ok.1 hok
  obtain ⟨⟨⟩, c₃, hrecord, hok⟩ := outcome_bind_eq_ok.1 hok
  obtain ⟨⟨⟩, c₄, hjunctions, hok⟩ := outcome_bind_eq_ok.1 hok
  cases hok
  have hd := (drafted_bare h hnew body.constraints).addFields (parseBody_fields hbody).nodup hfields
  rw [List.nil_append] at hd
  refine ⟨body, d, c₂, hbody, hnew, hfields, hd, outcome_bind_eq_ok.2 ⟨(), c₃, ?_, hjunctions⟩, rfl, rfl⟩
  rw [hd.name]
  exact hrecord

theorem outlined_compileConfig {decl : ConfigDecl} {unit : SchemaUnit} {slots : List Slot} (h : Outlined c s)
    (hok : outcome (compileConfig decl) c = (.ok (unit, slots), c')) :
    Outlined c' ⟨s.units ++ [unit], s.configs ++ [decl.name], s.slots ++ slots⟩ := by
  obtain ⟨body, d, last, hbody, hnew, -, hd, hrecord, rfl, rfl⟩ := drafted_compileConfig h hok
  have hconfig : last.resolved decl.name = some .config := hd.grows _ _ Catalog.resolved_claim
  obtain ⟨hlast, hsupplies⟩ := recordTables_supplies hd.supplies hd.awaits hd.distinct hrecord
  rw [List.append_assoc, ← tablesOf_statements] at hsupplies
  exact h.addConfig hd (Catalog.grows_claim .config hnew) hlast hnew (hlast _ _ hconfig) hsupplies
    (List.forall_mem_map.2 (parseBody_fields hbody).names)

theorem outlined_compileConfigs {decls : List ConfigDecl} {units : List SchemaUnit} {slots : List Slot}
    (h : Outlined c s) (hok : outcome (compileConfigs decls) c = (.ok (units, slots), c')) :
    Outlined c' ⟨s.units ++ units, s.configs ++ decls.map (·.name), s.slots ++ slots⟩ := by
  induction decls generalizing c s units slots with
  | nil =>
    cases hok
    rw [List.append_nil, List.map_nil, List.append_nil, List.append_nil]
    exact h
  | cons decl decls ih =>
    obtain ⟨⟨unit, own⟩, c₁, hunit, hok⟩ := outcome_bind_eq_ok.1 hok
    obtain ⟨⟨more, others⟩, c₂, hmore, hok⟩ := outcome_bind_eq_ok.1 hok
    cases hok
    rw [List.append_cons, List.map_cons, List.append_cons s.configs, ← List.append_assoc]
    exact ih (outlined_compileConfig h hunit) hmore

/-! ## All declarations -/

/-- A schema with what is compiled on top of it. -/
def CompiledSchema.append (s more : CompiledSchema) : CompiledSchema :=
  ⟨s.units ++ more.units, s.configs ++ more.configs, s.slots ++ more.slots⟩

theorem outlined_empty : Outlined {} {} := by
  refine ⟨⟨rfl, fun _ h => (nomatch h), List.nodup_nil, fun _ _ h => (nomatch h), fun _ _ h => (nomatch h)⟩, ⟨⟩, rfl,
    fun _ h => (nomatch h), List.nodup_nil, fun _ h => (nomatch h), fun _ h => (nomatch h), List.Pairwise.nil,
    fun _ h => (nomatch h)⟩

/-- **What compiled declarations look like**, on top of what is compiled before them. -/
theorem outlined_compileDeclarations {decls : Declarations} {more : CompiledSchema} (h : Outlined c s)
    (hok : outcome (compileDeclarations decls) c = (.ok more, c')) : Outlined c' (s.append more) := by
  obtain ⟨structs, c₁, hstructs, hok⟩ := outcome_bind_eq_ok.1 hok
  obtain ⟨⟨configs, slots⟩, c₂, hconfigs, hok⟩ := outcome_bind_eq_ok.1 hok
  cases hok
  unfold CompiledSchema.append
  rw [← List.append_assoc]
  exact outlined_compileConfigs (outlined_compileStructs h hstructs) hconfigs

theorem outcome_of_compile {decls : Declarations} (hok : compile decls = .ok s) :
    outcome (compileDeclarations decls) {} = (.ok s, (({} : Catalog).compile decls).2) := Prod.ext hok rfl

/-- What declarations look like that are compiled on their own. -/
theorem outlined_of_compile {decls : Declarations} (hok : compile decls = .ok s) :
    Outlined (({} : Catalog).compile decls).2 s :=
  outlined_compileDeclarations outlined_empty (outcome_of_compile hok)

/-- Declarations of which no config is named like a built-in type. -/
theorem described_of_compile {decls : Declarations} (hok : compile decls = .ok s)
    (hnames : ∀ name ∈ s.configs, Builtin.ofName? name = none) : ∃ c, Described c s :=
  ⟨_, outlined_of_compile hok, hnames⟩

end GuardedConfig.Schema
