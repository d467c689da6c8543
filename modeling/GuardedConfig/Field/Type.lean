import GuardedConfig.Schema.Fault
import GuardedConfig.Schema.Naming
import GuardedConfig.Text.Trim

/-!
# `Field.Type` — the types of fields

The type of a field is all text after its name. It is a list `LIST(item)`, a bare or called name that may refer
to a struct, or the text of a column.

## Contents

* `TypeRef`, `TypeRef.parse?` — `Name` or `Name(argument)`
* `FieldDef`, its `typeWord` and `isSqlTyped`
* `FieldType`, `FieldDef.classify`
-/

namespace GuardedConfig.Field

open Text Schema

/-- `Name` or `Name(argument)`. -/
structure TypeRef where
  name : String
  argument : Option String
deriving DecidableEq, Repr, Inhabited

/-- Reads a reference: a word, then nothing or blanks and an argument between the next parenthesis and the
last character of the text, which closes it. -/
def TypeRef.parse? (text : String) : Option TypeRef :=
  let cs := trimWith isBlank text.toList
  let name := cs.takeWhile isWord
  let rest := (cs.dropWhile isWord).dropWhile isBlank
  if name.isEmpty then none
  else
    match rest with
    | [] => some ⟨String.ofList name, none⟩
    | c :: inner =>
      if c = '(' ∧ inner.getLast? = some ')' then
        some ⟨String.ofList name, some (String.ofList inner.dropLast)⟩
      else none

/-- A field: its name, and all text after it. -/
structure FieldDef where
  name : String
  type : String
deriving DecidableEq, Repr, Inhabited

/-- The kinds of types. -/
inductive FieldType where
  /-- `LIST(item)` -/
  | list (item : TypeRef)
  /-- A bare or called name. -/
  | named (target : TypeRef)
  /-- Any other text. -/
  | sql
deriving DecidableEq, Repr

namespace FieldDef

/-- The first word of the type. -/
def typeWord (f : FieldDef) : String :=
  String.ofList (f.type.toList.takeWhile fun c => isAlphanumeric c || c == '_')

/-- Whether the type begins with the word of a column type. -/
def isSqlTyped (f : FieldDef) : Bool := isTypeWord f.typeWord

/-- The kind of the type; a list must name its item. -/
def classify (f : FieldDef) : Except Fault FieldType :=
  match TypeRef.parse? f.type with
  | none => .ok .sql
  | some ref =>
    if equalsIgnoringAsciiCase ref.name "LIST" then
      match ref.argument.bind TypeRef.parse? with
      | some item => .ok (.list item)
      | none => .error (.invalidType f.type f.name)
    else .ok (.named ref)

end FieldDef

end GuardedConfig.Field
