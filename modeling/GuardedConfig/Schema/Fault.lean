/-!
# `Schema.Fault` — why declarations do not compile

One constructor for each cause. A cause that arises while a field of a config is resolved is wrapped with the
field and the config.

## Contents

* `Resolved` — what a name stands for
* `Fault`, `Fault.message`
-/

namespace GuardedConfig.Schema

/-- What a declared or generated name stands for. -/
inductive Resolved where
  | struct
  | template
  | instantiation
  | builtin
  | junction
  | config
deriving DecidableEq, Repr, Inhabited

/-- The word for what a name stands for. -/
def Resolved.name : Resolved → String
  | struct => "Struct"
  | template => "Template"
  | instantiation => "Instance"
  | builtin => "Builtin"
  | junction => "Junction"
  | config => "Config"

/-- Why declarations do not compile. -/
inductive Fault where
  | invalidArgument (raw declared : String)
  | argumentType (declared : String)
  | malformedRule (rule : String)
  | notAFieldName (name owner : String)
  | noType (field owner : String)
  | reservedField (field owner : String)
  | duplicateField (field owner : String)
  | invalidType (type field : String)
  | alreadyDeclared (name : String) (existing : Resolved)
  | builtinName (name : String)
  | repeatedList (config item : String)
  | constrainedReference (word : String)
  | unresolved (name : String)
  | listItem (name : String)
  | notParameterized (name : String)
  | collision (name : String)
  | noFields (struct : String)
  | structFieldType (field struct word : String)
  | inField (cause : Fault) (field config : String)
  | triggerText (trigger reason : String)
  | unknownCondition (trigger condition : String)
deriving DecidableEq, Repr, Inhabited

/-- The wording of a fault. -/
def Fault.message : Fault → String
  | invalidArgument raw declared => "argument '" ++ raw ++ "' is not a valid " ++ declared
  | argumentType declared => "argument type '" ++ declared ++ "' must be INTEGER, REAL or TEXT"
  | malformedRule rule => "malformed argument rule '" ++ rule ++ "'"
  | notAFieldName name owner => "'" ++ name ++ "' in '" ++ owner ++ "' is not a field name"
  | noType field owner => "field '" ++ field ++ "' of '" ++ owner ++ "' has no type"
  | reservedField field owner =>
    "field '" ++ field ++ "' of '" ++ owner ++ "' is reserved for the identifier"
  | duplicateField field owner => "duplicate field '" ++ field ++ "' in '" ++ owner ++ "'"
  | invalidType type field => "invalid type " ++ type ++ " for field '" ++ field ++ "'"
  | alreadyDeclared name existing => "'" ++ name ++ "' is already declared (" ++ existing.name ++ ")"
  | builtinName name => "'" ++ name ++ "' is a built-in type"
  | repeatedList config item => "'" ++ config ++ "' has more than one LIST(" ++ item ++ ")"
  | constrainedReference word => "constraints are not supported on struct reference '" ++ word ++ "'"
  | unresolved name => "unresolved struct reference '" ++ name ++ "'"
  | listItem name => "invalid type '" ++ name ++
      "' inside LIST, expected a declared struct or one of INTEGER, REAL, TEXT, BLOB"
  | notParameterized name => "'" ++ name ++ "' is not parameterized"
  | collision name => "instantiation '" ++ name ++ "' collides with an existing name"
  | noFields struct => "struct '" ++ struct ++ "' declares no fields"
  | structFieldType field struct word => "field '" ++ field ++ "' of struct '" ++ struct ++
      "' has type '" ++ word ++ "', struct fields must have SQL types"
  | inField cause field config => cause.message ++ " (field '" ++ field ++ "' of '" ++ config ++ "')"
  | triggerText trigger reason => "trigger '" ++ trigger ++ "' does not parse: " ++ reason
  | unknownCondition trigger condition =>
    "trigger '" ++ trigger ++ "' watches '" ++ condition ++ "', which is not a declared config"

end GuardedConfig.Schema
