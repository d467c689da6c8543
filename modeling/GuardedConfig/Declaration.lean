/-!
# `Declaration` — what a source declares

Structs, configs, triggers and slices, in the order of the source within each kind. A struct with an argument
rule is a template: it is instantiated by the fields that refer to it.

## Contents

* `StructDecl`, `ConfigDecl`, `TriggerDecl`, `SliceDecl`
* `Declaration`, `Declarations`
-/

namespace GuardedConfig

/-- `STRUCT name { body };`, or a template with an argument rule `placeholder:type=default`. -/
structure StructDecl where
  name : String
  body : String
  argument : Option String
deriving DecidableEq, Repr, Inhabited

/-- Whether a struct is a template. -/
def StructDecl.isTemplate (d : StructDecl) : Bool := d.argument.isSome

/-- `CONFIG name { body };` -/
structure ConfigDecl where
  name : String
  body : String
deriving DecidableEq, Repr, Inhabited

/-- `TRIGGER name WHEN CHANGE condition { code };` -/
structure TriggerDecl where
  name : String
  condition : String
  code : String
deriving DecidableEq, Repr, Inhabited

/-- `SLICE name { command };` -/
structure SliceDecl where
  name : String
  command : String
deriving DecidableEq, Repr, Inhabited

/-- One declaration of any kind. -/
inductive Declaration where
  | struct (d : StructDecl)
  | config (d : ConfigDecl)
  | trigger (d : TriggerDecl)
  | slice (d : SliceDecl)
deriving DecidableEq, Repr

/-- Declarations grouped by kind, each group in the order of the source. -/
structure Declarations where
  structs : List StructDecl := []
  configs : List ConfigDecl := []
  triggers : List TriggerDecl := []
  slices : List SliceDecl := []
deriving DecidableEq, Repr, Inhabited

namespace Declarations

/-- Adds a declaration at the end of its group. -/
def push (ds : Declarations) : Declaration → Declarations
  | .struct d => { ds with structs := ds.structs ++ [d] }
  | .config d => { ds with configs := ds.configs ++ [d] }
  | .trigger d => { ds with triggers := ds.triggers ++ [d] }
  | .slice d => { ds with slices := ds.slices ++ [d] }

/-- The declarations of one source after those of another. -/
def append (a b : Declarations) : Declarations :=
  ⟨a.structs ++ b.structs, a.configs ++ b.configs, a.triggers ++ b.triggers, a.slices ++ b.slices⟩

/-- How many declarations there are. -/
def count (ds : Declarations) : Nat :=
  ds.structs.length + ds.configs.length + ds.triggers.length + ds.slices.length

/-- Whether there are none. -/
def isEmpty (ds : Declarations) : Bool := ds.count == 0

theorem append_push (a b : Declarations) (d : Declaration) : a.append (b.push d) = (a.append b).push d := by
  cases d <;> simp [append, push]

end Declarations

end GuardedConfig
