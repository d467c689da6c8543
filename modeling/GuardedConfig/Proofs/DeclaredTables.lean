import GuardedConfig.Proofs.Definition
import GuardedConfig.Proofs.Pieces

/-!
# `Proofs.DeclaredTables` — the text of a table means the table

Whatever the names in a table are, its text says no more and no less than the table does. Names are quoted, so they end
nowhere early, and the text around them is made of words and signs that the reader of definitions expects. This holds as
long as the types are plain: a type word, and `NOT NULL` behind it or nothing.

## Contents

* `Column.IsDeclared`, `Column.declared` — columns with plain types, and what the store makes of them
* `isLine_declared`, `isRead_declared`, `adds_declared` — their lines
* `Table.IsDeclared`, `Table.IsDefinedAs`, `text_defines_table`
-/

namespace GuardedConfig.Schema

open Sql Text

/-! ## Columns -/

/-- A column with a type word, which may have `NOT NULL` behind it. -/
def Column.IsDeclared (c : Column) : Prop :=
  ∃ word, isTypeWord word = true ∧ (c.type = word ∨ c.type = word ++ " NOT NULL")

/-- The word of the type of a column. -/
def Column.typeWord (c : Column) : String := String.ofList (c.type.toList.takeWhile (· != ' '))

/-- A column as the store has it: null is refused if something stands behind the word of its type. -/
def Column.declared (c : Column) : ColumnInfo where
  name := c.name
  type := c.typeWord
  notNull := if c.type = c.typeWord then none else some .abort

/-- The tokens of the line of a column. -/
def Column.declaredTokens (c : Column) : List Lexeme :=
  quoted lineBreak c.name :: keyword c.typeWord ::
    if c.type = c.typeWord then [] else [keyword "NOT", keyword "NULL"]

/-- The parts of a definition that a column gives. -/
def Column.declaredItems (c : Column) : List TableItem :=
  .column ⟨c.name, c.typeWord⟩ :: if c.type = c.typeWord then [] else [.columnConstraint (.notNull none)]

variable {c : Column}

/-- A type word has no blank, so it is what stands before the first one. -/
theorem Column.IsDeclared.typeWord_cases (h : c.IsDeclared) :
    isTypeWord c.typeWord = true ∧ (c.type = c.typeWord ∨ c.type = c.typeWord ++ " NOT NULL") := by
  obtain ⟨word, hword, htype⟩ := h
  have hplain : ∀ d ∈ word.toList, (d != ' ') = true := by
    intro d hd
    rw [bne_iff_ne]
    rintro rfl
    exact absurd (isNameChar_of_isBareWord (isBareWord_of_isTypeWord hword) ' ' hd) (by decide)
  have hstop : ∀ tail ∈ ["", " NOT NULL"], c.type = word ++ tail → c.typeWord = word := by
    intro tail htail heq
    have hhead : ∀ d ∈ tail.toList.head?, (d != ' ') = false := by
      simp only [List.mem_cons, List.not_mem_nil, or_false] at htail
      intro d hd
      rcases htail with rfl | rfl
      · simp at hd
      · obtain rfl : ' ' = d := by simpa using hd
        rfl
    rw [Column.typeWord, heq, String.toList_append, (takeWhile_of_stop hplain hhead).1, String.ofList_toList]
  have hcut : c.typeWord = word := by
    rcases htype with htype | htype
    · exact hstop "" (by decide) (by rw [htype, String.append_empty])
    · exact hstop " NOT NULL" (by decide) htype
  rw [hcut]
  exact ⟨hword, htype⟩

theorem isLine_declared (h : c.IsDeclared) : c.IsLine c.declaredTokens := by
  obtain ⟨hword, htype⟩ := h.typeWord_cases
  have hbare := isBareWord_of_isTypeWord hword
  unfold Column.declaredTokens
  split
  · rename_i heq
    refine ⟨?_, fun hsep => ?_, fun hname => ?_⟩
    · simp [Table.columnLine, quoted, keyword, ← heq]
    · exact ⟨neat_quotedName (by decide) _, .inr (separated_cons (by decide) _), neat_keyword hbare, .inr hsep, trivial⟩
    · refine nulFree_charsOf.2 (List.forall_mem_cons.2 ⟨nulFree_quoted (by decide) hname, ?_⟩)
      exact List.forall_mem_singleton.2 (nulFree_keyword hbare)
  · rename_i hne
    have htype := htype.resolve_left hne
    refine ⟨?_, fun hsep => ?_, fun hname => ?_⟩
    · rw [Table.columnLine, htype]
      simp [quoted, keyword]
    · exact ⟨neat_quotedName (by decide) _, .inr (separated_cons (by decide) _), neat_keyword hbare,
        .inr (separated_cons (by decide) _), neat_keyword (by decide +kernel), .inr (separated_cons (by decide) _),
        neat_keyword (by decide +kernel), .inr hsep, trivial⟩
    · refine nulFree_charsOf.2 (List.forall_mem_cons.2 ⟨nulFree_quoted (by decide) hname, ?_⟩)
      exact List.forall_mem_cons.2 ⟨nulFree_keyword hbare, by decide +kernel⟩

theorem isRead_declared (h : c.IsDeclared) : IsRead c.name c.declaredTokens c.declaredItems where
  head := ⟨_, rfl⟩
  read fuel _ _ hp gap _ hsign ls := by
    have htype := isTypePart_keyword h.typeWord_cases.1
    unfold Column.declaredTokens Column.declaredItems
    split
    · exact readColumns_bare fuel htype hp gap hsign ls
    · exact readColumns_required fuel htype hp gap _ ls

theorem adds_declared (c : Column) : Adds c.declaredItems c.declared := by
  unfold Column.declaredItems Column.declared
  split
  · exact adds_bare c.name c.typeWord
  · exact adds_required c.name c.typeWord

/-! ## Tables -/

/-- A table with plain types and without constraints, whose names are not reserved, not cut off and not given twice. -/
structure Table.IsDeclared (t : Table) : Prop where
  columns : ∀ c ∈ t.columns, c.IsDeclared
  constraints : t.constraints = []
  writable : t.IsWritable
  unreserved : isReserved t.name = false
  distinct : (primaryKey t.name :: t.columnNames).Pairwise fun a b => sameName a b = false
  foreignKeys : ∀ k ∈ t.foreignKeys, k.column ∈ t.columnNames

/-- A foreign key of a table of the store is what a foreign key says. -/
structure ForeignKey.IsDefinedAs (k : ForeignKey) (columns : List ColumnInfo) (i : ForeignKeyInfo) : Prop where
  column : ∃ place c, i.columns = [place] ∧ columns[place]? = some c ∧ c.name = k.column
  parent : i.parent = k.references
  parentColumns : i.parentColumns = [k.references ++ "_id"]
  onDelete : i.onDelete = (k.onDelete.map DeleteRule.action).getD .noAction
  plain : i.onUpdate = .noAction ∧ i.deferred = false

/-- A table of the store is what a table says, and nothing else. -/
structure Table.IsDefinedAs (t : Table) (i : TableInfo) : Prop where
  name : i.name = t.name
  columns : i.columns = { name := t.name ++ "_id", type := "INTEGER" } :: t.columns.map Column.declared
  key : i.key = some 0 ∧ i.autoincrement = true ∧ i.keyConflict = none
  foreignKeys : List.Forall₂ (fun k info => k.IsDefinedAs i.columns info) t.foreignKeys i.foreignKeys
  plain : i.uniques = [] ∧ i.checks = []

namespace Table

variable {t : Table}

theorem IsDeclared.pairwise (h : t.IsDeclared) :
    (t.keyInfo :: t.columns.map Column.declared).Pairwise fun a b => sameName a.name b.name = false := by
  have hnames : (t.keyInfo :: t.columns.map Column.declared).map (·.name) = primaryKey t.name :: t.columnNames := by
    simp [columnNames, keyInfo, key, Column.declared]
  have hdistinct := h.distinct
  rwa [← hnames, List.pairwise_map] at hdistinct

theorem isDefinedAs_built (h : t.IsDeclared) : t.IsDefinedAs (t.built (t.columns.map Column.declared) t.foreignKeys) where
  name := rfl
  columns := rfl
  key := ⟨rfl, rfl, rfl⟩
  plain := ⟨rfl, rfl⟩
  foreignKeys := by
    refine List.forall₂_map_right_iff.2 (List.forall₂_same.2 fun k hk => ⟨?_, rfl, rfl, rfl, rfl, rfl⟩)
    obtain ⟨c, hc, hname⟩ := List.mem_map.1 (h.foreignKeys k hk)
    obtain ⟨i, hi⟩ := List.getElem?_of_mem hc
    let built := t.built (t.columns.map Column.declared) t.foreignKeys
    have hplace : built.columns[i + 1]? = some c.declared := by
      show (t.columns.map Column.declared)[i]? = _
      rw [List.getElem?_map, hi]
      rfl
    have hfound : built.columnIndex? k.column = some (i + 1) :=
      columnIndex?_of_sameName h.pairwise hplace (by rw [← hname]; exact sameName_self _)
    refine ⟨i + 1, c.declared, ?_, hplace, hname⟩
    show [(built.columnIndex? k.column).getD 0] = _
    rw [hfound]
    rfl

/-- **The text of a table means the table**, whatever its names are. -/
theorem text_defines_table (h : t.IsDeclared) :
    ∃ d i, readFirst (lexemes t.createText) = .ok (some ⟨.create d, 0, []⟩) ∧ d.name = t.name ∧ d.info = .ok i ∧
      t.IsDefinedAs i ∧ ∀ s : Session, s.content.find? t.name = none →
        s.batch t.createText = (.ok (), { s with content := s.content.add i }) := by
  have hlines : ∀ c ∈ t.columns, c.IsLine c.declaredTokens := fun c hc => isLine_declared (h.columns c hc)
  have hread : readFirst (lexemes t.createText) = .ok (some ⟨.create (t.definitionWith Column.declaredItems), 0, []⟩) := by
    rw [lexemes_createText_of_lines h.constraints hlines h.writable]
    exact readFirst_tokensWith (charsOf_tokensWith h.constraints hlines) fun c hc => isRead_declared (h.columns c hc)
  have hkeys : ∀ k ∈ t.foreignKeys, ∃ c ∈ t.columns.map Column.declared, c.name = k.column := by
    intro k hk
    obtain ⟨c, hc, hname⟩ := List.mem_map.1 (h.foreignKeys k hk)
    exact ⟨c.declared, List.mem_map_of_mem hc, hname⟩
  have hinfo := (info_definitionWith (fun c _ => adds_declared c) hkeys _).2 ⟨h.pairwise, rfl⟩
  refine ⟨_, _, hread, rfl, hinfo, isDefinedAs_built h, fun s hunknown => ?_⟩
  rw [batch_of_create hread, define_of_unknown (d := t.definitionWith Column.declaredItems) hunknown,
    show (t.definitionWith Column.declaredItems).name = t.name from rfl, h.unreserved, hinfo]
  rfl

/-- A table with names that hold what its text is made of. -/
def odd : Table where
  name := "a\" (\"b"
  columns := [⟨"c, d", "Text"⟩, ⟨") --", "integer NOT NULL"⟩]
  foreignKeys := [⟨") --", "e\"", some .cascade⟩]

theorem text_defines_odd : ∃ d i, readFirst (lexemes odd.createText) = .ok (some ⟨.create d, 0, []⟩) ∧
    d.info = .ok i ∧ odd.IsDefinedAs i := by
  have hodd : odd.IsDeclared := {
    columns := by
      refine List.forall_mem_cons.2 ⟨⟨"Text", by decide +kernel, .inl rfl⟩, List.forall_mem_singleton.2 ?_⟩
      exact ⟨"integer", by decide +kernel, .inr (by decide +kernel)⟩
    constraints := rfl
    writable := ⟨by decide +kernel, by decide +kernel, by decide +kernel⟩
    unreserved := by decide +kernel
    distinct := by decide +kernel
    foreignKeys := by decide +kernel }
  obtain ⟨d, i, hread, -, hinfo, hdefined, -⟩ := text_defines_table hodd
  exact ⟨d, i, hread, hinfo, hdefined⟩

end Table

end GuardedConfig.Schema
