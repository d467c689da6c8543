import GuardedConfig.Artifact
import GuardedConfig.Plan
import GuardedConfig.Schema.Compile
import GuardedConfig.Trigger.Read
import GuardedConfig.Trigger.Run

/-!
# `Registry` — the fields of an installed configuration

A registry has one plan for each path, and it is the host of the triggers. A trigger that sets a field runs that
field's triggers in turn. A field that is being written is in use and cannot be set again before that ends, so
the fields that are still free become fewer with each nested write, and writing always comes to an end. Reading
does not use a field.

## Contents

* `Registry`, `installUnit`, `install`, `Registry.register`, `Registry.load`, `Registry.reload`
* `getField`, `setWithin` — what triggers can do
* `bind`, `execute`, `set`, `view`, `get`, `evaluate`
-/

namespace GuardedConfig

open Schema

/-- An installed configuration. -/
structure Registry where
  store : Store
  plans : List (String × Plan) := []
  /-- The paths in the order of their declaration. -/
  paths : List String := []
  configs : List String := []
  triggers : List Trigger := []
  slices : List SliceDecl := []
  metadata : List (String × String) := []
  /-- What triggers have warned of, each with the name of the trigger, oldest first. -/
  warnings : List (String × String) := []
deriving Repr

instance : HasStore Registry := ⟨Registry.store, fun s r => { r with store := s }⟩

/-! ## Installing -/

/-- Runs a statement of a schema. -/
def installStatement : SchemaStatement → Task Store Unit
  | .create t => Store.batch t.createText
  | .configRow config => do
    let _ ← Store.perform (.insert {
      conflict := some .ignore, table := config, columns := some [primaryKey config]
      rows := some [[.int configRow]] }) []

/-- Runs the statements of a unit as a transaction. If one of them fails, all is undone, and only its fault is reported,
whatever comes of undoing. -/
def installUnit (unit : SchemaUnit) : Task Store Unit := do
  Store.begin
  tryCatch (unit.statements.forM installStatement) fun e => do
    tryCatch Store.rollback fun _ => return ()
    throw e
  Store.commit

/-- Creates the tables and config rows of a schema, each unit in a transaction of its own. -/
def install (units : List SchemaUnit) : Task Store Unit := units.forM installUnit

namespace Registry

/-- The slice with a name. -/
def slice? (r : Registry) (name : String) : Option SliceDecl := r.slices.find? (·.name == name)

/-- The registry of a schema on a store where it is installed. -/
def ofSchema (store : Store) (schema : CompiledSchema) : Registry where
  store := store
  plans := schema.slots.foldl (fun plans slot => assign slot.path { slot } plans) []
  paths := schema.slots.map (·.path)
  configs := schema.configs

/-- The paths of the fields of a config. -/
def pathsOf (r : Registry) (config : String) : List String :=
  r.paths.filter fun path => (config ++ ".").toList.isPrefixOf path.toList

/-- Changes the plan of a path. -/
def modifyPlan (r : Registry) (path : String) (f : Plan → Plan) : Registry :=
  match lookup path r.plans with
  | some p => { r with plans := assign path (f p) r.plans }
  | none => r

/-- Attaches a trigger to every field of its config, and gives their number. -/
def register (t : Trigger) : Task Registry Nat := do
  let r ← get
  if !r.configs.contains t.condition then throw (.compile (.unknownCondition t.name t.condition))
  let paths := r.pathsOf t.condition
  let attached := paths.foldl (fun r path => r.modifyPlan path (·.attach t)) r
  set { attached with triggers := r.triggers ++ [t] }
  return paths.length

/-- Compiles triggers and attaches them, until one fails. -/
def registerAll (ds : List TriggerDecl) : Task Registry Unit :=
  ds.forM fun d => do
    let t ← Task.ofExcept (Trigger.compile d)
    let _ ← register t

/-- A schema and triggers that fit it. -/
def prepare (ds : Declarations) : Except Error (CompiledSchema × List Trigger) := do
  let schema ← match Schema.compile ds with
    | .ok schema => .ok schema
    | .error f => .error (.compile f)
  let triggers ← ds.triggers.mapM Trigger.compile
  match triggers.find? fun t => !schema.configs.contains t.condition with
  | some t => .error (.compile (.unknownCondition t.name t.condition))
  | none => .ok (schema, triggers)

/-- Installs the declarations of an artifact on a store, which is returned with what was installed. Nothing is
installed unless all declarations compile. -/
def load (a : Artifact) (store : Store) : Except Error Registry × Store :=
  match prepare a.declarations with
  | .error e => (.error e, store)
  | .ok (schema, triggers) =>
    match (install schema.units).run.run store with
    | (.error e, store) => (.error e, store)
    | (.ok (), store) =>
      let r : Registry :=
        { ofSchema store schema with slices := a.declarations.slices, metadata := a.metadata }
      match ((triggers.forM fun t => do let _ ← register t) : Task Registry Unit).run.run r with
      | (.ok (), r) => (.ok r, store)
      | (.error e, r) => (.error e, r.store)

/-- Loads an artifact on the content of a registry; if that fails, the registry stays, on the content that was
committed: savepoints that are still open then are given up. -/
def reload (a : Artifact) (r : Registry) : Except Error Unit × Registry :=
  match load a (.ofContent r.store.content) with
  | (.ok new, _) => (.ok (), new)
  | (.error e, store) =>
    let content := store.session.committed
    (.error e, { r with store := { r.store with session := { r.store.session with content } } })

/-! ## Fields -/

/-- The plan of a path. -/
def expectPlan (path : String) : Task Registry Plan := do
  match lookup path (← get).plans with
  | some p => return p
  | none => throw (.unknownField path)

/-- The current rows of a field, whether or not it has been bound. -/
def getField (path : String) : Task Registry (List Json) := do
  let p ← expectPlan path
  onStore (Plan.readRows (Plan.readCommand p.slot.storage))

/-- Binds a value to the plan of a path. -/
def bind (path : String) (value : Json) : Task Registry Unit := do
  let (result, p) := (← expectPlan path).bind value
  modify (·.modifyPlan path fun _ => p)
  Task.ofExcept result

/-- The registry as the host of triggers, given how fields are set. -/
def host (setField : String → Json → Task Registry Unit) : Trigger.Host Registry where
  get := fun path r => ((do return Json.arr (← getField path)) : Task Registry Json).run.run r
  set := fun path value r => (setField path value).run.run r
  warn := fun trigger text r => { r with warnings := r.warnings ++ [(trigger, text)] }

/-- Executes the plan of a path, given how its triggers set fields. -/
def executeWith (setField : String → Json → Task Registry Unit) (path : String) : Task Registry Unit := do
  let p ← expectPlan path
  p.execute fun t => Task.of (t.run (host setField))

/-- The paths that are free once a path is in use. -/
def without (free : List String) (path : String) : List String := free.filter (· != path)

theorem length_without_lt {path : String} {free : List String} (h : path ∈ free) :
    (without free path).length < free.length :=
  List.length_filter_lt_length_iff_exists.2 ⟨path, h, by simp⟩

/-- Sets a field while only some are free: it is bound and executed, where its triggers can set only the others. -/
def setWithin (free : List String) (path : String) (value : Json) : Task Registry Unit := do
  let _ ← expectPlan path
  if _h : path ∈ free then
    bind path value
    executeWith (fun path' value' => setWithin (without free path) path' value') path
  else throw (.binding (.inUse path))
termination_by free.length
decreasing_by exact length_without_lt ‹_›

/-- Binds and executes a field. -/
def setField (path : String) (value : Json) : Task Registry Unit := do setWithin (← get).paths path value

/-- Executes the plan of a path. -/
def execute (path : String) : Task Registry Unit := do
  let free := without (← get).paths path
  executeWith (setWithin free) path

/-- The rows that the plan of a path reads, once it has been bound. -/
def view (path : String) : Task Registry (List Json) := do
  let p ← expectPlan path
  onStore p.view

/-- Runs a trigger outside of any plan. -/
def evaluate (t : Trigger) : Task Registry Unit := do
  let free := (← get).paths
  Task.of (t.run (host (setWithin free)))

end Registry

end GuardedConfig
