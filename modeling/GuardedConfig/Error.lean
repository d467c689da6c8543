import GuardedConfig.Plan.Scalar
import GuardedConfig.Schema.Fault
import GuardedConfig.Sql.Fault
import GuardedConfig.Statement.Reader

/-!
# `Error` — everything that can go wrong

One constructor for each stage, around the fault of that stage. Faults of settings and artifacts carry no
detail beyond what a caller needs to tell them apart.

## Contents

* `Error`, `Error.message`
* `Task` — steps that may fail
-/

namespace GuardedConfig

/-- Why an operation fails. -/
inductive Error where
  /-- The settings cannot be read, or the command line is wrong. -/
  | settings (reason : String)
  | tokenStream (fault : Token.Fault)
  | parse (stop : Statement.Stop)
  | compile (fault : Schema.Fault)
  | binding (fault : Binding.Fault)
  | store (fault : Sql.Fault)
  /-- A trigger refused a change, or could not be evaluated. -/
  | trigger (name reason : String)
  /-- A trigger asked for a field that does not exist. -/
  | fieldLookup (trigger path : String)
  | unknownField (path : String)
  /-- An artifact cannot be read, or a file cannot be written. -/
  | artifact
deriving Repr, Inhabited

namespace Error

/-- The wording of an error. -/
def message : Error → String
  | settings reason => "Config error: " ++ reason
  | tokenStream fault => "Token stream error: " ++ fault.message
  | parse stop => stop.message
  | compile fault => "Compile error: " ++ fault.message
  | binding fault => "Binding error: " ++ fault.message
  | store fault => fault.message
  | trigger name reason => "Trigger '" ++ name ++ "' failed: " ++ reason
  | fieldLookup name path => "Trigger '" ++ name ++ "' failed due to field '" ++ path ++ "' not existing"
  | unknownField path => "Unknown field '" ++ path ++ "'"
  | artifact => "Artifact error"

end Error

/-- A step that may fail and changes a state, which stays changed after a fault. -/
abbrev Task (σ : Type) (α : Type) := ExceptT Error (StateM σ) α

/-- A step given by its result and the state after it. -/
def Task.of {σ α : Type} (f : σ → Except Error α × σ) : Task σ α := ExceptT.mk f

/-- A result that does not depend on the state. -/
def Task.ofExcept {σ α : Type} (r : Except Error α) : Task σ α := ExceptT.mk (pure r)

end GuardedConfig
