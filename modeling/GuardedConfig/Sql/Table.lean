import GuardedConfig.Sql.Affinity
import GuardedConfig.Sql.Fault
import GuardedConfig.Sql.Syntax

/-!
# `Sql.Table` — tables and their rows

A table has columns, an optional column that holds the identifier of each row, unique keys, checks and foreign
keys. Rows are kept in the order of their identifiers. Names of tables and columns are equal up to the case of
ASCII letters.

## Contents

* `ColumnInfo`, `UniqueInfo`, `CheckInfo`, `ForeignKeyInfo`, `TableInfo`
* `Row`, `Stored`, `Content`
* `Content.find?`, `Content.update`, `Stored.insert`, `Stored.erase`
* `Content.sequence`, `Content.note` — identifiers that have been used
-/

namespace GuardedConfig.Sql

open Text

/-! ## Definitions -/

/-- A column. -/
structure ColumnInfo where
  name : String
  /-- The declared type, and what it makes the column prefer to hold. -/
  type : String := ""
  affinity : Affinity := .ofType type
  collation : Collation := .binary
  /-- What happens when null is given, if null is refused. -/
  notNull : Option Conflict := none
  default : Expr := .literal .null
deriving Repr, Inhabited

/-- Columns whose values together are different in all rows, with the way in which they are compared, and what
happens when they are not, if the definition says so. -/
structure UniqueInfo where
  columns : List (Nat × Collation)
  conflict : Option Conflict := none
  isPrimary : Bool := false
deriving DecidableEq, Repr, Inhabited

/-- A condition on rows, with the text by which it is known. -/
structure CheckInfo where
  condition : Expr
  label : String
deriving Repr, Inhabited

/-- Columns that refer to columns of a parent table. -/
structure ForeignKeyInfo where
  columns : List Nat
  parent : String
  parentColumns : List String
  onDelete : ReferenceAction := .noAction
  onUpdate : ReferenceAction := .noAction
  deferred : Bool := false
deriving DecidableEq, Repr, Inhabited

/-- A table. -/
structure TableInfo where
  name : String
  /-- The text of the definition. -/
  definition : String := ""
  columns : List ColumnInfo := []
  /-- The column that holds the identifier of a row. -/
  key : Option Nat := none
  /-- What happens when an identifier is given twice, if the definition says so. -/
  keyConflict : Option Conflict := none
  autoincrement : Bool := false
  hasPrimaryKey : Bool := false
  uniques : List UniqueInfo := []
  checks : List CheckInfo := []
  foreignKeys : List ForeignKeyInfo := []
deriving Repr, Inhabited

/-- Equality of names. -/
def sameName (a b : String) : Bool := a == b || equalsIgnoringAsciiCase a b

namespace TableInfo

/-- The place of a column. -/
def columnIndex? (t : TableInfo) (name : String) : Option Nat :=
  t.columns.findIdx? fun c => sameName c.name name

/-- The name of a column by its place. -/
def columnName (t : TableInfo) (i : Nat) : String := (t.columns[i]?.map (·.name)).getD ""

end TableInfo

/-! ## Content -/

/-- A row: its identifier and its values. The key column holds the identifier. -/
structure Row where
  id : Int
  values : List Value
deriving DecidableEq, Repr, Inhabited

/-- The value in a column. -/
def Row.value (r : Row) (i : Nat) : Value := r.values.getD i .null

/-- A table with its rows, in the order of their identifiers. -/
structure Stored where
  info : TableInfo
  rows : List Row := []
deriving Repr, Inhabited

/-- The tables, oldest first, and the highest identifiers that tables with automatic identifiers have used. -/
structure Content where
  tables : List Stored := []
  sequences : List (String × Int) := []
deriving Repr, Inhabited

namespace Stored

/-- Whether a table has a name. -/
def hasName (t : Stored) (name : String) : Bool := sameName t.info.name name

/-- Puts a row at its place. -/
def insertRow (r : Row) : List Row → List Row
  | [] => [r]
  | s :: rest => if r.id < s.id then r :: s :: rest else s :: insertRow r rest

/-- The table with one more row. -/
def insert (t : Stored) (r : Row) : Stored := { t with rows := insertRow r t.rows }

/-- The table without a row. -/
def erase (t : Stored) (id : Int) : Stored := { t with rows := t.rows.filter (·.id != id) }

/-- The row with an identifier. -/
def row? (t : Stored) (id : Int) : Option Row := t.rows.find? (·.id == id)

/-- The highest identifier. -/
def lastId? (t : Stored) : Option Int := t.rows.getLast?.map (·.id)

theorem mem_insertRow {r s : Row} {rows : List Row} : s ∈ insertRow r rows ↔ s = r ∨ s ∈ rows := by
  induction rows with
  | nil => simp [insertRow]
  | cons a rest ih =>
    by_cases h : r.id < a.id
    · simp [insertRow, h]
    · simp only [insertRow, h, if_false, List.mem_cons, ih]
      exact or_left_comm

end Stored

namespace Content

/-- The table with a name. -/
def find? (c : Content) (name : String) : Option Stored := c.tables.find? (·.hasName name)

/-- The content with a change of the table with a name. -/
def update (c : Content) (name : String) (f : Stored → Stored) : Content :=
  { c with tables := c.tables.map fun t => if t.hasName name then f t else t }

/-- The content with one more table. -/
def add (c : Content) (info : TableInfo) : Content := { c with tables := c.tables ++ [{ info }] }

/-- The content without a table. -/
def remove (c : Content) (name : String) : Content :=
  { tables := c.tables.filter fun t => !t.hasName name
    sequences := c.sequences.filter fun s => !sameName s.1 name }

/-- The highest identifier that a table with automatic identifiers has used. -/
def sequence (c : Content) (name : String) : Int :=
  ((c.sequences.find? fun s => sameName s.1 name).map (·.2)).getD 0

/-- The content where a table has used an identifier. -/
def note (c : Content) (name : String) (id : Int) : Content :=
  if c.sequences.any fun s => sameName s.1 name then
    { c with sequences := c.sequences.map fun s => if sameName s.1 name then (s.1, max s.2 id) else s }
  else { c with sequences := c.sequences ++ [(name, max 0 id)] }

end Content

end GuardedConfig.Sql
