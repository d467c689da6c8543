import GuardedConfig.Schema.Naming
import GuardedConfig.Text.Trim

/-!
# `Schema.Table` — tables and the statements that create them

A table has an automatic primary key, its columns with their type texts, constraint texts, and foreign keys. The
text of its statement puts them in this order, one on each line.

## Contents

* `DeleteRule`, `Column`, `ForeignKey`, `Table`
* `Table.wrapper`, `Table.junction` — the tables behind `LIST(...)`
* `Table.createText` — the statement that creates a table
* `configRowText` — the statement that inserts the row of a config
-/

namespace GuardedConfig.Schema

open Text

/-- What happens to a referring row when the row it refers to is deleted. -/
inductive DeleteRule where
  | cascade
  | setNull
  | setDefault
  | restrict
  | noAction
deriving DecidableEq, Repr, Inhabited

/-- The words of a rule. -/
def DeleteRule.name : DeleteRule → String
  | cascade => "CASCADE"
  | setNull => "SET NULL"
  | setDefault => "SET DEFAULT"
  | restrict => "RESTRICT"
  | noAction => "NO ACTION"

/-- All rules. -/
def DeleteRule.all : List DeleteRule := [cascade, setNull, setDefault, restrict, noAction]

/-- The rule with these words. -/
def DeleteRule.ofName? (words : String) : Option DeleteRule := all.find? (·.name == words)

/-- A column: its name, and the text of its type and constraints. -/
structure Column where
  name : String
  type : String
deriving DecidableEq, Repr, Inhabited

/-- A column that holds primary keys of another table. -/
structure ForeignKey where
  column : String
  references : String
  onDelete : Option DeleteRule
deriving DecidableEq, Repr, Inhabited

/-- A table, apart from its primary key. -/
structure Table where
  name : String
  columns : List Column := []
  constraints : List String := []
  foreignKeys : List ForeignKey := []
deriving DecidableEq, Repr, Inhabited

namespace Table

/-- The primary key column. -/
def key (t : Table) : String := primaryKey t.name

/-- The names of the columns, in order. -/
def columnNames (t : Table) : List String := t.columns.map (·.name)

/-- Whether a column has exactly this name. -/
def hasColumn (t : Table) (name : String) : Bool := t.columns.any (·.name == name)

/-- The table with one more column. -/
def withColumn (t : Table) (name type : String) : Table :=
  { t with columns := t.columns ++ [⟨name, type⟩] }

/-- The table with one more foreign key. -/
def withForeignKey (t : Table) (k : ForeignKey) : Table :=
  { t with foreignKeys := t.foreignKeys ++ [k] }

/-- The table that holds the values of a built-in type. -/
def wrapper (type : String) : Table := { name := type, columns := [⟨valueColumn, type⟩] }

/-- The table that links the items of a list to the config that owns them. -/
def junction (item owner : String) : Table where
  name := junctionName item owner
  columns := [⟨primaryKey item, "INTEGER NOT NULL"⟩, ⟨primaryKey owner, "INTEGER NOT NULL"⟩]
  foreignKeys :=
    [⟨primaryKey item, item, some .cascade⟩, ⟨primaryKey owner, owner, some .cascade⟩]

/-! ## Statement text -/

/-- The line of the primary key. -/
def keyLine (t : Table) : String := quoteName t.key ++ " INTEGER PRIMARY KEY AUTOINCREMENT"

/-- The line of a column. -/
def columnLine (c : Column) : String := quoteName c.name ++ " " ++ c.type

/-- The line of a foreign key. -/
def foreignKeyLine (k : ForeignKey) : String :=
  "FOREIGN KEY (" ++ quoteName k.column ++ ") REFERENCES " ++ quoteName k.references ++
    " (" ++ quoteName (primaryKey k.references) ++ ")" ++
    match k.onDelete with
    | some rule => " ON DELETE " ++ rule.name
    | none => ""

/-- The lines between the parentheses of the statement. -/
def lines (t : Table) : List String :=
  t.keyLine :: t.columns.map columnLine ++ t.constraints ++ t.foreignKeys.map foreignKeyLine

/-- The statement that creates the table. -/
def createText (t : Table) : String :=
  "CREATE TABLE IF NOT EXISTS " ++ quoteName t.name ++ " (\n    " ++ joinWith ",\n    " t.lines ++ "\n)"

end Table

/-- The statement that inserts the row of a config, unless it is there. -/
def configRowText (config : String) : String :=
  "INSERT OR IGNORE INTO " ++ quoteName config ++ " (" ++ quoteName (primaryKey config) ++ ") VALUES (1)"

end GuardedConfig.Schema
