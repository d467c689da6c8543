import GuardedConfig.Proofs.Condition
import GuardedConfig.Proofs.Reading
import GuardedConfig.Sql.Session

/-!
# `Proofs.Definition` — the table that its text creates

The text of a simple table creates one table, and no other text does anything else: unless names are reserved, cut
off or given twice, the new table has the columns and the foreign keys that were written, behind an automatic key.
Such tables are plain, and their foreign keys are links.

## Contents

* `Column.info`, `ForeignKey.info`, `Table.info`
* `Adds`, `info_definitionWith` — columns and foreign keys are added
* `info_definition`, `Table.Definable`, `batch_createText`
* `HasDistinctColumns.isPlain`, `ForeignKey.Leads.isLink`
* `Wired`, `Wired.layout`
-/

namespace GuardedConfig.Schema

open Sql

/-! ## Tables as the store has them -/

/-- A column as the store has it. -/
def Column.info (c : Column) : ColumnInfo :=
  if c.type = linkType then { name := c.name, type := "INTEGER", notNull := some .abort }
  else { name := c.name, type := c.type }

/-- The key as the store has it. -/
def Table.keyInfo (t : Table) : ColumnInfo := { name := t.key, type := "INTEGER" }

/-- A foreign key as the store has it, in a table with some columns. -/
def ForeignKey.info (columns : List ColumnInfo) (k : ForeignKey) : ForeignKeyInfo where
  columns := [(columns.findIdx? fun c => sameName c.name k.column).getD 0]
  parent := k.references
  parentColumns := [primaryKey k.references]
  onDelete := (k.onDelete.map DeleteRule.action).getD .noAction

namespace Table

/-- A table as the store has it, with some of its columns and foreign keys. -/
def partialInfo (t : Table) (columns : List Column) (keys : List ForeignKey) : TableInfo where
  name := t.name
  definition := t.createText
  columns := t.keyInfo :: columns.map Column.info
  key := some 0
  autoincrement := true
  hasPrimaryKey := true
  foreignKeys := keys.map (ForeignKey.info (t.keyInfo :: columns.map Column.info))

/-- A table as the store has it. -/
def info (t : Table) : TableInfo := t.partialInfo t.columns t.foreignKeys

/-- A table as the store has it, with some columns behind its key and some of its foreign keys. -/
def built (t : Table) (columns : List ColumnInfo) (keys : List ForeignKey) : TableInfo where
  name := t.name
  definition := t.createText
  columns := t.keyInfo :: columns
  key := some 0
  autoincrement := true
  hasPrimaryKey := true
  foreignKeys := keys.map (ForeignKey.info (t.keyInfo :: columns))

@[simp] theorem info_name (t : Table) : t.info.name = t.name := rfl

/-- Whether no two columns of a table have the same name. -/
def HasDistinctColumns (t : Table) : Prop := t.info.columns.Pairwise fun a b => sameName a.name b.name = false

instance (t : Table) : Decidable t.HasDistinctColumns :=
  inferInstanceAs (Decidable (t.info.columns.Pairwise fun a b => sameName a.name b.name = false))

end Table

@[simp] theorem Column.info_name (c : Column) : c.info.name = c.name := by
  unfold info
  split <;> rfl

/-! ## Parts -/

variable {t : Table}

theorem columnIndex?_eq_none {t : TableInfo} {name : String} :
    t.columnIndex? name = none ↔ ∀ c ∈ t.columns, sameName c.name name = false := by
  unfold TableInfo.columnIndex?
  rw [List.findIdx?_eq_none_iff]

theorem modify_last {α : Type} (l : List α) (a : α) (f : α → α) : (l ++ [a]).modify l.length f = l ++ [f a] := by
  induction l with
  | nil => rfl
  | cons b l ih => exact congrArg (b :: ·) ih

theorem addColumn_eq (t : TableInfo) (c : ColumnDef) :
    addColumn t c = match t.columnIndex? c.name with
      | some _ => .error (.duplicateColumn c.name)
      | none => .ok { t with columns := t.columns ++ [{ name := c.name, type := c.type }] } := by
  unfold addColumn
  cases t.columnIndex? c.name <;> rfl

/-- Parts that add a column to a table, if its name is new. -/
def Adds (items : List TableItem) (c : ColumnInfo) : Prop :=
  ∀ i : TableInfo, items.foldlM addItem i =
    match i.columnIndex? c.name with
    | some _ => .error (.duplicateColumn c.name)
    | none => .ok { i with columns := i.columns ++ [c] }

theorem adds_bare (name type : String) : Adds [.column ⟨name, type⟩] { name, type } := by
  intro i
  show (addColumn _ _ >>= _) = _
  rw [addColumn_eq]
  dsimp only
  cases i.columnIndex? name <;> rfl

theorem adds_required (name type : String) :
    Adds [.column ⟨name, type⟩, .columnConstraint (.notNull none)] { name, type, notNull := some .abort } := by
  intro i
  rw [List.foldlM_cons]
  show (addColumn _ _ >>= _) = _
  rw [addColumn_eq]
  dsimp only
  cases i.columnIndex? name with
  | some place => rfl
  | none =>
    rw [except_ok_bind]
    show Except.ok (withLast _ _) = _
    unfold withLast
    dsimp only
    rw [List.length_append, List.length_singleton, Nat.add_sub_cancel, modify_last]
    rfl

theorem adds_column (c : Column) : Adds c.items c.info := by
  unfold Column.items Column.info
  split
  · exact adds_required c.name "INTEGER"
  · exact adds_bare c.name c.type

variable {item : Column → List TableItem} {info : Column → ColumnInfo}

/-- The parts of columns add them, if their names are all different. -/
theorem foldlM_columns (t : Table) (done : List ColumnInfo) {columns : List Column}
    (hcolumns : ∀ c ∈ columns, Adds (item c) (info c))
    (hdone : (t.built done []).columns.Pairwise fun a b => sameName a.name b.name = false) (i : TableInfo) :
    (columns.flatMap item).foldlM addItem (t.built done []) = .ok i ↔
      ((t.built (done ++ columns.map info) []).columns.Pairwise fun a b => sameName a.name b.name = false) ∧
        i = t.built (done ++ columns.map info) [] := by
  induction columns generalizing done with
  | nil =>
    rw [List.map_nil, List.append_nil]
    exact ⟨fun h => ⟨hdone, (Except.ok.inj h).symm⟩, fun h => congrArg Except.ok h.2.symm⟩
  | cons c columns ih =>
    have happend : done ++ info c :: columns.map info = done ++ [info c] ++ columns.map info := List.append_cons ..
    rw [List.flatMap_cons, List.foldlM_append, hcolumns c List.mem_cons_self, List.map_cons, happend]
    cases hfound : (t.built done []).columnIndex? (info c).name with
    | some place =>
      refine ⟨nofun, fun ⟨hall, _⟩ => ?_⟩
      have hsome : (t.built done []).columnIndex? (info c).name = none := by
        refine columnIndex?_eq_none.2 fun b hb => ?_
        have hall : ((t.built done []).columns ++ [info c] ++ columns.map info).Pairwise
            fun a b => sameName a.name b.name = false := hall
        exact (List.pairwise_append.1 (List.pairwise_append.1 hall).1).2.2 b hb _ (List.mem_singleton_self _)
      rw [hsome] at hfound
      cases hfound
    | none =>
      have hnew := columnIndex?_eq_none.1 hfound
      refine ih (done ++ [info c]) (fun c hc => hcolumns c (List.mem_cons_of_mem _ hc)) ?_
      show ((t.built done []).columns ++ [info c]).Pairwise fun a b => sameName a.name b.name = false
      refine List.pairwise_append.2 ⟨hdone, List.pairwise_singleton _ _, fun b hb d hd => ?_⟩
      rw [List.mem_singleton.1 hd]
      exact hnew b hb

/-- The part of a foreign key adds it, if it has its column. -/
theorem addItem_foreignKey (t : Table) {columns : List ColumnInfo} (done : List ForeignKey) {k : ForeignKey}
    (hk : ∃ c ∈ columns, c.name = k.column) :
    addItem (t.built columns done) k.item = .ok (t.built columns (done ++ [k])) := by
  obtain ⟨c, hc, hname⟩ := hk
  have hsome : (t.built columns done).columnIndex? k.column ≠ none := by
    intro hnone
    have := columnIndex?_eq_none.1 hnone c (List.mem_cons_of_mem _ hc)
    rw [hname, sameName_self] at this
    cases this
  obtain ⟨i, hi⟩ := Option.ne_none_iff_exists'.1 hsome
  show addConstraint _ (.foreignKey [k.column] k.clause) = _
  unfold addConstraint
  dsimp only
  rw [if_neg (by simp [ForeignKey.clause]), show List.mapM _ [k.column] = (.ok [i] : Except Sql.Fault _) by
    rw [List.mapM_cons, List.mapM_nil, hi]
    rfl, except_ok_bind]
  have hplace : ((t.built columns done).columns.findIdx? fun c => sameName c.name k.column) = some i := hi
  have hkey : k.info (t.built columns done).columns = {
      columns := [i], parent := k.references, parentColumns := [primaryKey k.references]
      onDelete := (k.onDelete.map DeleteRule.action).getD .noAction } := by
    unfold ForeignKey.info
    rw [hplace]
    rfl
  have hadd : addForeignKey (t.built columns done) [i] k.clause =
      { t.built columns done with
        foreignKeys := (t.built columns done).foreignKeys ++ [k.info (t.built columns done).columns] } := by
    rw [hkey]
    rfl
  rw [hadd]
  unfold Table.built
  rw [List.map_append, List.map_singleton]
  rfl

theorem foldlM_foreignKeys (t : Table) {columns : List ColumnInfo} (done : List ForeignKey) {keys : List ForeignKey}
    (hkeys : ∀ k ∈ keys, ∃ c ∈ columns, c.name = k.column) :
    (keys.map ForeignKey.item).foldlM addItem (t.built columns done) = .ok (t.built columns (done ++ keys)) := by
  induction keys generalizing done with
  | nil =>
    rw [List.append_nil]
    rfl
  | cons k keys ih =>
    rw [List.map_cons, List.foldlM_cons, addItem_foreignKey t done (hkeys k (List.mem_cons_self ..)), except_ok_bind,
      ih (done ++ [k]) fun j hj => hkeys j (List.mem_cons_of_mem _ hj), List.append_assoc, List.singleton_append]

/-- A table is defined with the columns that its parts add, if they have different names. -/
theorem info_definitionWith (hcolumns : ∀ c ∈ t.columns, Adds (item c) (info c))
    (hkeys : ∀ k ∈ t.foreignKeys, ∃ c ∈ t.columns.map info, c.name = k.column) (i : TableInfo) :
    (t.definitionWith item).info = .ok i ↔
      ((t.keyInfo :: t.columns.map info).Pairwise fun a b => sameName a.name b.name = false) ∧
        i = t.built (t.columns.map info) t.foreignKeys := by
  have hkey : t.keyItems.foldlM addItem { name := t.name, definition := t.createText } = .ok (t.built [] []) := rfl
  have hfold : (t.itemsWith item).foldlM addItem { name := t.name, definition := t.createText } =
      (t.columns.flatMap item).foldlM addItem (t.built [] []) >>= fun i =>
        (t.foreignKeys.map ForeignKey.item).foldlM addItem i := by
    unfold Table.itemsWith
    rw [List.foldlM_append, hkey, except_ok_bind, List.foldlM_append]
  -- nothing else is found in the text
  have hinfo : (t.definitionWith item).info = (do
      let i ← (t.itemsWith item).foldlM addItem { name := t.name, definition := t.createText }
      i.checks.forM fun c => checkOnRows i "CHECK constraints" c.condition
      return i) := rfl
  have hall := fun i => foldlM_columns t [] hcolumns (List.pairwise_singleton _ _) i
  rw [hinfo, hfold]
  constructor
  · intro h
    obtain ⟨i, hi, h⟩ := except_bind_eq_ok.1 h
    obtain ⟨j, hj, hi⟩ := except_bind_eq_ok.1 hi
    obtain ⟨hdistinct, rfl⟩ := (hall j).1 hj
    rw [List.nil_append, foldlM_foreignKeys t [] hkeys, List.nil_append] at hi
    cases hi
    exact ⟨hdistinct, (Except.ok.inj h).symm⟩
  · rintro ⟨hdistinct, rfl⟩
    rw [(hall _).2 ⟨hdistinct, rfl⟩, except_ok_bind, List.nil_append, foldlM_foreignKeys t [] hkeys, List.nil_append]
    rfl

/-- A simple table is defined if its columns have different names. -/
theorem info_definition (hkeys : ∀ k ∈ t.foreignKeys, ∃ c ∈ t.columns, c.name = k.column) (info : TableInfo) :
    t.definition.info = .ok info ↔ t.HasDistinctColumns ∧ info = t.info := by
  change (t.definitionWith Column.items).info = _ ↔ _
  refine info_definitionWith (fun c _ => adds_column c) (fun k hk => ?_) info
  obtain ⟨c, hc, hname⟩ := hkeys k hk
  exact ⟨c.info, List.mem_map_of_mem hc, (Column.info_name c).trans hname⟩

/-! ## Statements -/

/-- A table whose text creates it: its names are not reserved, not cut off and not given twice. -/
structure Table.Definable (t : Table) : Prop where
  name : NulFree t.name.toList
  unreserved : isReserved t.name = false
  distinct : t.HasDistinctColumns

instance (t : Table) : Decidable t.Definable :=
  decidable_of_iff (NulFree t.name.toList ∧ isReserved t.name = false ∧ t.HasDistinctColumns)
    ⟨fun ⟨hname, hunreserved, hdistinct⟩ => ⟨hname, hunreserved, hdistinct⟩,
      fun h => ⟨h.name, h.unreserved, h.distinct⟩⟩

/-- A simple table that is yet unknown, and which has the columns of its foreign keys. -/
structure Table.IsNew (t : Table) (c : Content) : Prop where
  simple : t.IsSimple
  columns : NulFree t.name.toList → ∀ c ∈ t.columns, NulFree c.name.toList
  keys : ∀ k ∈ t.foreignKeys, (∃ c ∈ t.columns, c.name = k.column) ∧ NulFree k.references.toList
  unknown : c.find? t.name = none

theorem Table.IsNew.writable {c : Content} (h : t.IsNew c) (hname : NulFree t.name.toList) : t.IsWritable := by
  refine ⟨hname, h.columns hname, fun k hk => ?_⟩
  obtain ⟨⟨c, hc, hcolumn⟩, href⟩ := h.keys k hk
  exact ⟨hcolumn ▸ h.columns hname c hc, href⟩

theorem batch_of_error {text : String} {f : Sql.Fault} (h : readFirst (lexemes text) = .error f) (s : Session) :
    s.batch text = (.error f, s) := by
  unfold Session.batch
  dsimp only
  rw [Session.batchFrom, h]

theorem batchFrom_nil (fuel : Nat) (s : Session) : s.batchFrom fuel [] = (.ok (), s) := by
  cases fuel <;> rfl

/-- A text that is one definition. -/
theorem batch_of_create {text : String} {d : TableText} {parameters : Nat}
    (h : readFirst (lexemes text) = .ok (some ⟨.create d, parameters, []⟩)) (s : Session) :
    s.batch text =
      match s.content.define d with
      | .ok content => (.ok (), { s with content })
      | .error f => (.error f, s) := by
  have hprepare : s.prepareSentence (.create d) [] = (s.content.define d).map Session.Prepared.content := rfl
  unfold Session.batch
  dsimp only
  rw [Session.batchFrom, h]
  dsimp only
  rw [hprepare]
  cases s.content.define d with
  | error f => rfl
  | ok content => exact batchFrom_nil _ _

theorem define_of_unknown {c : Content} {d : TableText} (h : c.find? d.name = none) :
    c.define d = if isReserved d.name then .error (.reservedName d.name) else d.info.map c.add := by
  unfold Content.define
  rw [h]

/-- **The text of a new table creates it**, or else it fails. -/
theorem batch_createText (s : Session) (h : t.IsNew s.content) :
    (t.Definable → s.batch t.createText = (.ok (), { s with content := s.content.add t.info })) ∧
      (¬ t.Definable → ∃ f, s.batch t.createText = (.error f, s)) := by
  by_cases hname : NulFree t.name.toList
  · have hlexemes := Table.lexemes_createText h.simple (h.writable hname)
    have hbatch := batch_of_create (hlexemes ▸ readFirst_tokens h.simple) s
    have hdefine := define_of_unknown (d := t.definition) h.unknown
    have hinfo := info_definition fun k hk => (h.keys k hk).1
    rw [hbatch, hdefine, show t.definition.name = t.name from rfl]
    constructor
    · intro hd
      rw [hd.unreserved, (hinfo t.info).2 ⟨hd.distinct, rfl⟩]
      rfl
    · intro hd
      cases hr : isReserved t.name with
      | true => exact ⟨_, rfl⟩
      | false =>
        cases hi : t.definition.info with
        | error f => exact ⟨f, rfl⟩
        | ok info => exact absurd ⟨hname, hr, ((hinfo info).1 hi).1⟩ hd
  · refine ⟨fun hd => absurd hd.name hname, fun _ => ?_⟩
    obtain ⟨text, hlexemes⟩ := Table.lexemes_createText_of_nul hname
    obtain ⟨f, hf⟩ := readFirst_of_illegal [' '] text
    exact ⟨f, batch_of_error (hlexemes ▸ hf) s⟩

/-! ## Layouts of tables -/

/-- A table whose columns have different names is plain. -/
theorem Table.HasDistinctColumns.isPlain (h : t.HasDistinctColumns) : t.info.IsPlain where
  key := rfl
  keyConflict := rfl
  autoincrement := rfl
  uniques := rfl
  checks := rfl
  keyColumn := ⟨t.key, rfl⟩
  columns c hc := by
    rcases List.mem_cons.1 hc with rfl | hc
    · exact ⟨rfl, rfl⟩
    · obtain ⟨column, -, rfl⟩ := List.mem_map.1 hc
      unfold Column.info
      split <;> exact ⟨rfl, rfl⟩
  distinct := h

/-- A foreign key is that of a reference, which may be empty, or of a junction. -/
def ForeignKey.Leads (k : ForeignKey) (t : Table) : Prop :=
  ∃ c ∈ t.columns, c.name = k.column ∧
    (c.type = "INTEGER" ∧ k.onDelete = some .setNull ∨ c.type = linkType ∧ k.onDelete = some .cascade)

theorem getElem?_info {i : Nat} {c : Column} (hc : t.columns[i]? = some c) : t.info.columns[i + 1]? = some c.info := by
  show (t.columns.map Column.info)[i]? = _
  rw [List.getElem?_map, hc]
  rfl

/-- The place of a column by its name. -/
theorem columnIndex?_info (h : t.HasDistinctColumns) {i : Nat} {c : Column} (hc : t.columns[i]? = some c)
    {name : String} (hn : c.name = name) : t.info.columnIndex? name = some (i + 1) :=
  columnIndex?_of_sameName h (getElem?_info hc) (by rw [Column.info_name, hn, sameName_self])

theorem columnIndex?_key (h : t.HasDistinctColumns) : t.info.columnIndex? t.key = some 0 :=
  columnIndex?_of_sameName h (show t.info.columns[0]? = some t.keyInfo from rfl) (sameName_self _)

theorem column_info {k : ForeignKey} (h : t.HasDistinctColumns) {i : Nat} {c : Column} (hc : t.columns[i]? = some c)
    (hn : c.name = k.column) : (k.info t.info.columns).column = i + 1 := by
  have hplace : (t.info.columns.findIdx? fun c => sameName c.name k.column) = some (i + 1) := columnIndex?_info h hc hn
  unfold ForeignKeyInfo.column ForeignKey.info
  rw [hplace]
  rfl

/-- Foreign keys are links. -/
theorem ForeignKey.Leads.isLink {k : ForeignKey} {p : Table} (hk : k.Leads t) (h : t.HasDistinctColumns)
    (hp : p.name = k.references) : (k.info t.info.columns).IsLink t.info p.info := by
  obtain ⟨c, hc, hname, htype⟩ := hk
  obtain ⟨i, hi⟩ := List.getElem?_of_mem hc
  have hcolumn := column_info h hi hname
  refine ⟨rfl, by rw [hcolumn]; exact Nat.succ_ne_zero i, ⟨c.info, ?_, ?_⟩, hp.symm, ?_, rfl, rfl⟩
  · rw [hcolumn]
    exact getElem?_info hi
  · rcases htype with ⟨htype, hrule⟩ | ⟨htype, hrule⟩ <;> unfold Column.info ForeignKey.info <;> rw [htype, hrule]
    · rw [if_neg (by decide)]
      exact ⟨ofType_integer, .inr ⟨rfl, rfl⟩⟩
    · rw [if_pos rfl]
      exact ⟨ofType_integer, .inl rfl⟩
  · show [primaryKey k.references] = [primaryKey p.name]
    rw [hp]

/-- Foreign keys of the same place have the same column. -/
theorem ForeignKey.Leads.column_inj {j k : ForeignKey} (hj : j.Leads t) (hk : k.Leads t) (h : t.HasDistinctColumns)
    (he : (j.info t.info.columns).column = (k.info t.info.columns).column) : j.column = k.column := by
  obtain ⟨c, hc, hname, -⟩ := hj
  obtain ⟨d, hd, hname', -⟩ := hk
  obtain ⟨i, hi⟩ := List.getElem?_of_mem hc
  obtain ⟨i', hi'⟩ := List.getElem?_of_mem hd
  rw [column_info h hi hname, column_info h hi' hname', Nat.add_right_cancel_iff] at he
  rw [he, hi', Option.some.injEq] at hi
  rw [← hname, ← hname', hi]

/-- Tables whose foreign keys lead to each other. -/
structure Wired (tables : List Table) : Prop where
  distinct : ∀ t ∈ tables, t.HasDistinctColumns
  apart : tables.Pairwise fun t u => sameName t.name u.name = false
  leads : ∀ t ∈ tables, ∀ k ∈ t.foreignKeys, k.Leads t ∧ ∃ p ∈ tables, p.name = k.references
  columns : ∀ t ∈ tables, t.foreignKeys.Pairwise fun j k => j.column ≠ k.column
  leaves : ∀ t ∈ tables, ∀ k ∈ t.foreignKeys, k.onDelete = some .cascade →
    ∀ u ∈ tables, ∀ j ∈ u.foreignKeys, j.references ≠ t.name

/-- **The tables of a schema are a layout.** -/
theorem Wired.layout {tables : List Table} (h : Wired tables) : Layout (tables.map Table.info) where
  plain := List.forall_mem_map.2 fun t ht => (h.distinct t ht).isPlain
  apart := List.Pairwise.map _ (fun _ _ hab => hab) h.apart
  links := List.forall_mem_map.2 fun t ht => List.forall_mem_map.2 fun k hk => by
    obtain ⟨hlead, p, hp, hname⟩ := h.leads t ht k hk
    exact ⟨p.info, List.mem_map_of_mem hp, hlead.isLink (h.distinct t ht) hname⟩
  columns := List.forall_mem_map.2 fun t ht => by
    refine List.pairwise_map.2 ((h.columns t ht).imp_of_mem fun {j k} hj hk hjk he => hjk ?_)
    exact (h.leads t ht j hj).1.column_inj (h.leads t ht k hk).1 (h.distinct t ht) he
  leaves := List.forall_mem_map.2 fun t ht => List.forall_mem_map.2 fun k hk hrule =>
    List.forall_mem_map.2 fun u hu => List.forall_mem_map.2 fun j hj => by
      have hcascade : k.onDelete = some .cascade := by
        obtain ⟨⟨c, -, -, htype⟩, -⟩ := h.leads t ht k hk
        rcases htype with ⟨-, hnull⟩ | ⟨-, hcascade⟩
        · unfold ForeignKey.info at hrule
          rw [hnull] at hrule
          cases hrule
        · exact hcascade
      exact h.leaves t ht k hk hcascade u hu j hj

end GuardedConfig.Schema
