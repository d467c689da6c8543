import GuardedConfig.Schema.Catalog

/-!
# `Schema.Compile` — from declarations to tables and slots

Structs come first, then configs, each in order, so a struct is declared before what refers to it. A struct
becomes a table, a template waits for the fields that call it, and a config becomes a table with one slot for
each field. The tables that a config needs first (instantiations, wrapper tables) and its junction tables are
created together with it, as one unit.

## Contents

* `SchemaStatement`, `SchemaUnit`, `CompiledSchema`
* `structTable` — the table of a struct or an instantiation
* `instantiate`, `reference`, `listItem` — the table that a field refers to
* `ConfigDraft`, `addField` — the parts of a config, field by field
* `compileStruct`, `compileConfig`, `compileDeclarations`
-/

namespace GuardedConfig.Schema

open GuardedConfig.Field

/-! ## Results -/

/-- A statement that installs a part of the schema. -/
inductive SchemaStatement where
  | create (t : Table)
  | configRow (config : String)
deriving DecidableEq, Repr

/-- The text of a statement. -/
def SchemaStatement.text : SchemaStatement → String
  | create t => t.createText
  | configRow config => configRowText config

/-- Statements that are installed together or not at all. -/
structure SchemaUnit where
  name : String
  statements : List SchemaStatement
deriving DecidableEq, Repr

/-- Compiled declarations: the units in order, the configs, and a slot for each of their fields. -/
structure CompiledSchema where
  units : List SchemaUnit := []
  configs : List String := []
  slots : List Slot := []
deriving DecidableEq, Repr, Inhabited

/-! ## Structs -/

/-- The table of a plain struct or of an instantiation. -/
def structTable (name body : String) : Except Fault Table := do
  let parsed ← parseBody name body
  if parsed.fields.isEmpty then .error (.noFields name)
  else
    match parsed.fields.find? (!·.isSqlTyped) with
    | some field => .error (.structFieldType field.name name field.typeWord)
    | none =>
      .ok { name := name, columns := parsed.fields.map fun f => ⟨f.name, f.type⟩,
            constraints := parsed.constraints }

/-- Compiles a struct to its unit; a template has none. -/
def compileStruct (d : StructDecl) : Compile (Option SchemaUnit) := do
  if (Builtin.ofName? d.name).isSome then throw (.builtinName d.name)
  match d.argument with
  | some text =>
    let rule ← Compile.ofExcept (ArgumentRule.parse text)
    let template : Template := ⟨d.name, d.body, rule⟩
    -- the default instantiation must have a table
    let _ ← Compile.ofExcept (structTable d.name (template.instantiate rule.default))
    claim d.name .template
    recordTemplate d.name template
    return none
  | none =>
    let table ← Compile.ofExcept (structTable d.name d.body)
    claim d.name .struct
    recordTable d.name table
    return some ⟨d.name, [.create table]⟩

/-! ## References -/

/-- A table that a field refers to, and the tables that were made for it on this occasion. -/
structure Target where
  table : Table
  made : List Table := []
deriving DecidableEq, Repr

/-- The table of a template for an argument; without an argument, of its default. The table is made on first
use and shared afterwards. -/
def instantiate (name : String) (raw : Option String) : Compile Target := do
  let catalog ← get
  match catalog.template name with
  | none => throw (.unresolved name)
  | some template =>
    match raw with
    | some raw =>
      let argument ← Compile.ofExcept (coerce template.rule.type raw)
      let instanceOf := instanceName template.name argument.suffix
      match catalog.resolved instanceOf with
      | some .instantiation =>
        match catalog.table instanceOf with
        | some table => return { table }
        | none => make template argument instanceOf true
      | some _ => throw (.collision instanceOf)
      | none => make template argument instanceOf true
    | none =>
      match catalog.resolved template.name, catalog.table template.name with
      | some .template, some table => return { table }
      | _, _ => make template template.rule.default template.name false
where
  /-- Makes the table of an instantiation; one with an argument claims its name. -/
  make (template : Template) (argument : Argument) (name : String) (claims : Bool) : Compile Target := do
    let table ← Compile.ofExcept (structTable name (template.instantiate argument))
    if claims then claim name .instantiation
    recordTable name table
    return { table, made := [table] }

/-- The table of a struct, an instantiation or a template call. -/
def reference (target : TypeRef) : Compile Target := do
  let catalog ← get
  match catalog.resolved target.name, target.argument with
  | some .struct, none | some .instantiation, none =>
    match catalog.table target.name with
    | some table => return { table }
    | none => throw (.unresolved target.name)
  | some .struct, some _ | some .instantiation, some _ => throw (.notParameterized target.name)
  | some .template, argument => instantiate target.name argument
  | _, _ => throw (.unresolved target.name)

/-- The table of the items of a list, and whether items may be plain scalars. -/
def listItem (item : TypeRef) : Compile (Target × Bool) := do
  let catalog ← get
  match Builtin.ofName? item.name, item.argument with
  | some builtin, none =>
    match catalog.table builtin.name with
    | some table => return ({ table }, true)
    | none =>
      let table := Table.wrapper builtin.name
      claim builtin.name .builtin
      recordTable table.name table
      return ({ table, made := [table] }, true)
  | _, _ =>
    if catalog.isStruct item.name then return (← reference item, false)
    else throw (.listItem item.name)

/-! ## Configs -/

/-- The parts of a config that its fields have given so far. -/
structure ConfigDraft where
  table : Table
  prerequisites : List Table := []
  junctions : List Table := []
  slots : List Slot := []
deriving DecidableEq, Repr

/-- A step of a field whose faults name the field. -/
def inField {α : Type} (field config : String) (step : Compile α) : Compile α :=
  tryCatch step fun e => throw (.inField e field config)

namespace ConfigDraft

/-- The draft with a slot for one more field. -/
def withSlot (d : ConfigDraft) (field : String) (storage : Storage) : ConfigDraft :=
  { d with slots := d.slots ++ [⟨d.table.name, field, storage⟩] }

/-- The draft with a list field. -/
def addList (d : ConfigDraft) (field : FieldDef) (item : TypeRef) : Compile ConfigDraft := do
  let config := d.table.name
  let (target, scalarItems) ← inField field.name config (listItem item)
  let junction := Table.junction target.table.name config
  if d.junctions.any (·.name == junction.name) then
    throw (.repeatedList config target.table.name)
  claim junction.name .junction
  let d := { d with
    prerequisites := d.prerequisites ++ target.made
    junctions := d.junctions ++ [junction] }
  return d.withSlot field.name (.list config target.table scalarItems)

/-- The draft with a field that refers to a row of another table. -/
def addReference (d : ConfigDraft) (field : FieldDef) (ref : TypeRef) : Compile ConfigDraft := do
  let config := d.table.name
  let target ← inField field.name config (reference ref)
  let table := (d.table.withColumn field.name "INTEGER").withForeignKey
    ⟨field.name, target.table.name, some .setNull⟩
  let d := { d with table, prerequisites := d.prerequisites ++ target.made }
  return d.withSlot field.name (.reference config field.name target.table)

/-- The draft with a field that is a column. -/
def addScalar (d : ConfigDraft) (field : FieldDef) : ConfigDraft :=
  let config := d.table.name
  { d with table := d.table.withColumn field.name field.type }.withSlot field.name
    (.scalar config field.name)

/-- The draft with one more field. A declared struct wins over a type word of the same name. -/
def addField (d : ConfigDraft) (field : FieldDef) : Compile ConfigDraft := do
  let config := d.table.name
  let catalog ← get
  match ← Compile.ofExcept field.classify with
  | .list item => d.addList field item
  | .named ref =>
    if catalog.isStruct ref.name || !field.isSqlTyped then d.addReference field ref
    else return d.addScalar field
  | .sql =>
    if catalog.isStruct field.typeWord then
      throw (.inField (.constrainedReference field.typeWord) field.name config)
    else if !field.isSqlTyped then
      throw (.inField (.unresolved field.typeWord) field.name config)
    else return d.addScalar field

/-- The draft with more fields, in order. -/
def addFields (d : ConfigDraft) : List FieldDef → Compile ConfigDraft
  | [] => return d
  | field :: fields => do (← d.addField field).addFields fields

/-- The statements that install a config: what it needs, its table, its junctions and its row. -/
def statements (d : ConfigDraft) : List SchemaStatement :=
  d.prerequisites.map .create ++ .create d.table :: d.junctions.map .create ++ [.configRow d.table.name]

end ConfigDraft

/-- Records tables under their own names. -/
def recordTables : List Table → Compile Unit
  | [] => return ()
  | t :: ts => do
    recordTable t.name t
    recordTables ts

/-- Compiles a config to its unit and its slots. -/
def compileConfig (d : ConfigDecl) : Compile (SchemaUnit × List Slot) := do
  let body ← Compile.ofExcept (parseBody d.name d.body)
  claim d.name .config
  let draft ← ConfigDraft.addFields { table := { name := d.name, constraints := body.constraints } } body.fields
  recordTable d.name draft.table
  recordTables draft.junctions
  return (⟨d.name, draft.statements⟩, draft.slots)

/-! ## All declarations -/

/-- The units of structs, in order. -/
def compileStructs : List StructDecl → Compile (List SchemaUnit)
  | [] => return []
  | d :: ds => do
    let unit ← compileStruct d
    let units ← compileStructs ds
    return unit.toList ++ units

/-- The units and slots of configs, in order. -/
def compileConfigs : List ConfigDecl → Compile (List SchemaUnit × List Slot)
  | [] => return ([], [])
  | d :: ds => do
    let (unit, slots) ← compileConfig d
    let (units, more) ← compileConfigs ds
    return (unit :: units, slots ++ more)

/-- Compiles declarations on top of a catalog. -/
def compileDeclarations (ds : Declarations) : Compile CompiledSchema := do
  let structs ← compileStructs ds.structs
  let (configs, slots) ← compileConfigs ds.configs
  return ⟨structs ++ configs, ds.configs.map (·.name), slots⟩

/-- Compiles declarations on top of a catalog, which is returned with everything that was claimed. -/
def Catalog.compile (c : Catalog) (ds : Declarations) : Except Fault CompiledSchema × Catalog :=
  (compileDeclarations ds).run.run c

/-- Compiles declarations on their own. -/
def compile (ds : Declarations) : Except Fault CompiledSchema := (({} : Catalog).compile ds).1

end GuardedConfig.Schema
