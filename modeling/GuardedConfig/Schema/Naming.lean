import GuardedConfig.Text.Case

/-!
# `Schema.Naming` — how tables and columns are named

Every table has the primary key `<table>_id`. The members of `field LIST(Item)` in a config are linked by the
junction table `<Item>_<Config>`, and the instantiation of a template is the table `<Template>_<argument>`.

## Contents

* `primaryKey`, `junctionName`, `instanceName`
* `quoteName` — a name inside a statement
* `configRow`, `valueColumn` — the row of a config and the column of a wrapper table
* `Builtin` — the types that may stand inside `LIST(...)` without a struct
* `isTypeWord` — the words that may begin a column type
-/

namespace GuardedConfig.Schema

open Text

/-- The identifier of the single row of every config table. -/
def configRow : Int := 1

/-- The column of the value in the wrapper table of a built-in type. -/
def valueColumn : String := "value"

/-- The primary key column of a table. -/
def primaryKey (table : String) : String := table ++ "_id"

/-- The junction table between an item table and a config. -/
def junctionName (item owner : String) : String := item ++ "_" ++ owner

/-- The table of an instantiation. -/
def instanceName (base suffix : String) : String := base ++ "_" ++ suffix

/-- Writes a quote inside a name twice. -/
def doubleQuotes : List Char → List Char
  | [] => []
  | c :: cs => if c = '"' then '"' :: '"' :: doubleQuotes cs else c :: doubleQuotes cs

/-- A name between quotes. -/
def quoteName (name : String) : String := String.ofList ('"' :: doubleQuotes name.toList ++ ['"'])

/-! ## Types -/

/-- The scalar types that may stand inside `LIST(...)` without a struct. -/
inductive Builtin where
  | integer
  | real
  | text
  | blob
deriving DecidableEq, Repr, Inhabited

namespace Builtin

/-- The written name of a built-in type. -/
def name : Builtin → String
  | integer => "INTEGER"
  | real => "REAL"
  | text => "TEXT"
  | blob => "BLOB"

/-- All built-in types. -/
def all : List Builtin := [integer, real, text, blob]

/-- The built-in type with exactly this name. -/
def ofName? (name : String) : Option Builtin := all.find? (·.name == name)

theorem ofName?_name (b : Builtin) : ofName? b.name = some b := by cases b <;> rfl

end Builtin

/-- Words that may begin a column type; any other word there refers to a struct. -/
def typeWords : List String :=
  ["INTEGER", "INT", "TINYINT", "SMALLINT", "MEDIUMINT", "BIGINT", "UNSIGNED", "INT2", "INT8",
   "REAL", "DOUBLE", "FLOAT", "NUMERIC", "DECIMAL", "BOOLEAN", "BOOL", "DATE", "DATETIME",
   "TIMESTAMP", "TEXT", "CHARACTER", "CHAR", "VARCHAR", "VARYING", "NCHAR", "NATIVE",
   "NVARCHAR", "CLOB", "BLOB", "ANY", "JSON"]

/-- Whether a word may begin a column type, in any case. -/
def isTypeWord (word : String) : Bool := typeWords.any fun w => equalsIgnoringAsciiCase w word

end GuardedConfig.Schema
