import GuardedConfig.Token.Basic

/-!
# `Statement.State` — the states between tokens

Statements are read by a finite machine. Its state is the kind of the token read last, or one of a few
states of its own; the kind of the next token selects a transition, which names the next state and the action
to perform. After the end of the source, and after a fault, no token is accepted any more.

## Contents

* `State`, `Action`, `Handling`
* `transition` — the table
* `Statement.Fault` — what can be wrong with a statement
-/

namespace GuardedConfig.Statement

/-- The states of the reader. -/
inductive State where
  | start
  | error
  /-- A tag and its text have been read. -/
  | pushKv
  /-- A body has been read. -/
  | sql
  /-- The body of a template has been read. -/
  | preSql
  /-- A token of this kind has been read. -/
  | after (kind : Token.Kind)
deriving DecidableEq, Repr, Inhabited

/-- The written name of a state. -/
def State.name : State → String
  | start => "start"
  | error => "error"
  | pushKv => "push_kv"
  | sql => "sql"
  | preSql => "pre_sql"
  | after kind => kind.name

/-- The kind of the statement being read. -/
inductive Handling where
  | struct
  | config
  | trigger
  | slice
deriving DecidableEq, Repr, Inhabited

/-- What a token does to the statement being read. -/
inductive Action where
  | nothing
  | pushKv (tag : Token.Kind)
  | declare (handling : Handling)
  | secondIdent
  | argument
  | whenChange
  | condition
  | body
  | emit
  | reject
deriving DecidableEq, Repr, Inhabited

/-- The next state and the action for a token of a kind. -/
def transition (state : State) (kind : Token.Kind) : State × Action :=
  match state, kind with
  | .error, _ => (.error, .reject)
  | .after .eof, _ => (.error, .reject)
  | _, .semi => (.start, .emit)
  | .start, kind => (.after kind, .nothing)
  | .after .struct, .ident => (.after .ident, .declare .struct)
  | .after .config, .ident => (.after .ident, .declare .config)
  | .after .trigger, .ident => (.after .ident, .declare .trigger)
  | .after .slice, .ident => (.after .ident, .declare .slice)
  | .after .ident, .ident => (.after .ident, .secondIdent)
  | .after .ident, .argument => (.after .argument, .argument)
  | .after .ident, .tricond => (.after .tricond, .whenChange)
  | .after .tricond, .ident => (.after .ident, .condition)
  | .after .ident, .command => (.sql, .body)
  | .after .tricond, .command => (.sql, .body)
  | .after .argument, .command => (.preSql, .body)
  | .after tag, .string => if tag.isTag then (.pushKv, .pushKv tag) else (.error, .reject)
  | _, _ => (.error, .reject)

/-- What can be wrong with a statement. -/
inductive Fault where
  | unexpected (kind : Token.Kind)
  | secondIdentifier
  | argumentOutsideStruct
  | conditionOutsideTrigger
  | bodyWithoutIdentifier
  | secondBody (ident : String)
  | secondCondition (ident : String)
  | noBody (ident : String)
  | noCondition (ident : String)
  | unfinished
deriving DecidableEq, Repr

/-- The wording of a fault. -/
def Fault.message : Fault → String
  | unexpected kind => "unexpected " ++ kind.name ++ " token"
  | secondIdentifier => "identifier cannot follow identifier"
  | argumentOutsideStruct => "only STRUCT can have an argument"
  | conditionOutsideTrigger => "'WHEN CHANGE' can only be used with TRIGGER"
  | bodyWithoutIdentifier => "command needs to be preceded by a declared identifier"
  | secondBody ident => "'" ++ ident ++ "' already has a body"
  | secondCondition ident => "trigger '" ++ ident ++ "' already has a condition"
  | noBody ident => "'" ++ ident ++ "' has no body"
  | noCondition ident => "trigger '" ++ ident ++ "' has no WHEN CHANGE condition"
  | unfinished => "token stream ended without EOF"

end GuardedConfig.Statement
