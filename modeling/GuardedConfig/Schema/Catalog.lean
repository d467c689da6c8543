import GuardedConfig.Declaration
import GuardedConfig.Field.Argument
import GuardedConfig.Field.Body
import GuardedConfig.Schema.Slot

/-!
# `Schema.Catalog` — the names known so far and the tables behind them

Declarations are compiled one after another against a catalog. A name is claimed at most once, whatever it
stands for. Names stay claimed when a later step fails, so a catalog only grows.

## Contents

* `Template`, `Catalog`, and looking names up
* `Compile` — steps that may fail and keep what they have claimed
* `claim`, `recordTable`, `recordTemplate`
-/

namespace GuardedConfig.Schema

open GuardedConfig.Field

/-- A struct with an argument rule. -/
structure Template where
  name : String
  body : String
  rule : ArgumentRule
deriving DecidableEq, Repr, Inhabited

/-- The body of a template for an argument. -/
def Template.instantiate (t : Template) (argument : Argument) : String :=
  substitute t.rule.placeholder argument.literal t.body

/-- The names that have been claimed, and the tables and templates behind them. -/
structure Catalog where
  names : List (String × Resolved) := []
  tables : List (String × Table) := []
  templates : List (String × Template) := []
deriving DecidableEq, Repr, Inhabited

/-- The value that belongs to a key in an association list. -/
def lookup {α : Type} (key : String) : List (String × α) → Option α
  | [] => none
  | (k, v) :: rest => if k = key then some v else lookup key rest

/-- Sets the value of a key in an association list; a new key goes to the end. -/
def assign {α : Type} (key : String) (value : α) : List (String × α) → List (String × α)
  | [] => [(key, value)]
  | (k, v) :: rest => if k = key then (key, value) :: rest else (k, v) :: assign key value rest

@[simp] theorem lookup_assign_self {α : Type} (key : String) (value : α) (l : List (String × α)) :
    lookup key (assign key value l) = some value := by
  induction l with
  | nil => simp [assign, lookup]
  | cons p rest ih =>
    obtain ⟨k, v⟩ := p
    by_cases h : k = key <;> simp [assign, lookup, h, ih]

theorem lookup_assign_of_ne {α : Type} {key other : String} (h : other ≠ key) (value : α)
    (l : List (String × α)) : lookup other (assign key value l) = lookup other l := by
  induction l with
  | nil => simp [assign, lookup, Ne.symm h]
  | cons p rest ih =>
    obtain ⟨k, v⟩ := p
    by_cases hk : k = key
    · simp [assign, lookup, hk, Ne.symm h]
    · simp [assign, lookup, hk, ih]

namespace Catalog

/-- What a name stands for. -/
def resolved (c : Catalog) (name : String) : Option Resolved := lookup name c.names

/-- The table of a name. -/
def table (c : Catalog) (name : String) : Option Table := lookup name c.tables

/-- The template of a name. -/
def template (c : Catalog) (name : String) : Option Template := lookup name c.templates

/-- How many names are claimed. -/
def count (c : Catalog) : Nat := c.names.length

/-- Whether a name stands for a struct, a template or an instantiation. -/
def isStruct (c : Catalog) (name : String) : Bool :=
  match c.resolved name with
  | some .struct | some .instantiation | some .template => true
  | _ => false

end Catalog

/-! ## Steps over a catalog -/

/-- A step that may fail; the catalog keeps what was recorded before a fault. -/
abbrev Compile (α : Type) := ExceptT Fault (StateM Catalog) α

/-- A step that depends on a result without a catalog. -/
def Compile.ofExcept {α : Type} (r : Except Fault α) : Compile α :=
  match r with
  | .ok a => pure a
  | .error e => throw e

/-- Claims a name, unless it is taken. -/
def claim (name : String) (r : Resolved) : Compile Unit := do
  let catalog ← get
  match catalog.resolved name with
  | some existing => throw (.alreadyDeclared name existing)
  | none => set { catalog with names := assign name r catalog.names }

/-- Records the table of a name. -/
def recordTable (name : String) (t : Table) : Compile Unit :=
  modify fun c => { c with tables := assign name t c.tables }

/-- Records the template of a name. -/
def recordTemplate (name : String) (t : Template) : Compile Unit :=
  modify fun c => { c with templates := assign name t c.templates }

end GuardedConfig.Schema
