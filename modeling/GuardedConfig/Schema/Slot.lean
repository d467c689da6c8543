import GuardedConfig.Schema.Table

/-!
# `Schema.Slot` — where the value of a field is stored

Every field of a config has one slot: a column of the row of the config, a row of another table that the config
row refers to, or rows of an item table that a junction table links to the config.

## Contents

* `Storage` — the three ways of storing a field
* `Slot`, `Slot.path`
-/

namespace GuardedConfig.Schema

/-- How a field is stored. -/
inductive Storage where
  /-- A column of the config row. -/
  | scalar (table column : String)
  /-- A row of `target`, referred to by a column of the config row. -/
  | reference (table column : String) (target : Table)
  /-- Rows of `item`, linked to the config row by the junction table. Items may be given as plain scalars
  where the item table wraps a built-in type. -/
  | list (table : String) (item : Table) (scalarItems : Bool)
deriving DecidableEq, Repr, Inhabited

/-- The word for a way of storing a field. -/
def Storage.name : Storage → String
  | scalar .. => "scalar"
  | reference .. => "reference"
  | list .. => "list"

/-- A field of a config with its storage. -/
structure Slot where
  config : String
  field : String
  storage : Storage
deriving DecidableEq, Repr, Inhabited

/-- The path by which a field is addressed. -/
def Slot.path (s : Slot) : String := s.config ++ "." ++ s.field

end GuardedConfig.Schema
