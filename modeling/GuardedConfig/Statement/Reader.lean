import GuardedConfig.Declaration
import GuardedConfig.Json.Basic
import GuardedConfig.Statement.State
import GuardedConfig.Text.Trim

/-!
# `Statement.Reader` — from tokens to declarations

The reader takes one token at a time. It collects the parts of the statement being read in a *draft*: the
identifier (of a trigger together with its condition, as `name|condition`), an argument and a body. The closing
`SEMI` turns the draft into a declaration and empties it. A token that does not fit leaves what has been
collected so far and puts the reader into a state in which every further token is refused.

## Contents

* `Draft`, `Draft.emit` — the statement being read
* `Parsed` — metadata and declarations
* `Reader`, `Reader.perform`, `Reader.feed`, `Reader.finish`
* `read` — a whole token list
-/

namespace GuardedConfig.Statement

open Text

/-! ## The statement being read -/

/-- The parts of the statement being read. -/
structure Draft where
  handling : Option Handling := none
  ident : String := ""
  argument : Option String := none
  body : Option String := none
deriving DecidableEq, Repr, Inhabited

namespace Draft

/-- Adds a condition to the identifier of a trigger, unless it has one. -/
def withCondition (d : Draft) (condition : String) : Except Fault Draft :=
  if d.ident.toList.contains '|' then .error (.secondCondition d.ident)
  else .ok { d with ident := d.ident ++ "|" ++ trim condition }

/-- The declaration that a draft stands for; an empty draft stands for none. -/
def emit (d : Draft) : Except Fault (Option Declaration) :=
  match d.handling with
  | none => .ok none
  | some handling =>
    match d.body with
    | none => .error (.noBody d.ident)
    | some body =>
      match handling with
      | .struct => .ok (some (.struct ⟨d.ident, body, d.argument⟩))
      | .config => .ok (some (.config ⟨d.ident, body⟩))
      | .slice => .ok (some (.slice ⟨d.ident, body⟩))
      | .trigger =>
        match cutAt? ['|'] d.ident.toList with
        | some (name, condition) =>
          .ok (some (.trigger ⟨String.ofList name, String.ofList condition, body⟩))
        | none => .error (.noCondition d.ident)

end Draft

/-! ## The reader -/

/-- What has been read: the metadata by tag, in the order of the tags, and the declarations. -/
structure Parsed where
  metadata : List (String × String) := []
  declarations : Declarations := {}
deriving DecidableEq, Repr, Inhabited

/-- The reader between two tokens. -/
structure Reader where
  state : State := .start
  draft : Draft := {}
  parsed : Parsed := {}
deriving DecidableEq, Repr, Inhabited

/-- A fault together with the state in which it arose. -/
structure Stop where
  state : State
  fault : Fault
deriving DecidableEq, Repr

/-- The wording of a stop. -/
def Stop.message (s : Stop) : String := "Parse error in state " ++ s.state.name ++ "! " ++ s.fault.message

namespace Reader

/-- Performs an action on the draft and on what has been read. A fault changes neither: no token is accepted
after it, so the draft is never used again. -/
def perform (r : Reader) (action : Action) (kind : Token.Kind) (text : String) : Except Fault Reader :=
  let d := r.draft
  match action with
  | .nothing => .ok r
  | .pushKv tag =>
    .ok { r with parsed.metadata := Json.insertMember tag.name text r.parsed.metadata }
  | .declare handling => .ok { r with draft := { d with handling := some handling, ident := text } }
  | .secondIdent =>
    if d.handling != some .struct || d.body.isSome || d.argument.isSome then .error .secondIdentifier
    else .ok { r with draft := { d with body := some (d.ident ++ " " ++ text) } }
  | .argument =>
    if d.handling != some .struct || d.body.isSome then .error .argumentOutsideStruct
    else .ok { r with draft := { d with argument := some text } }
  | .whenChange =>
    if d.handling != some .trigger then .error .conditionOutsideTrigger
    else if text.isEmpty then .ok r
    else (d.withCondition text).map fun d => { r with draft := d }
  | .condition =>
    if d.handling != some .trigger then .error .conditionOutsideTrigger
    else (d.withCondition text).map fun d => { r with draft := d }
  | .body =>
    if d.handling.isNone then .error .bodyWithoutIdentifier
    else if d.body.isSome then .error (.secondBody d.ident)
    else .ok { r with draft := { d with body := some text } }
  | .emit =>
    match d.emit with
    | .ok (some declaration) =>
      .ok { r with draft := {}, parsed.declarations := r.parsed.declarations.push declaration }
    | .ok none => .ok { r with draft := {} }
    | .error e => .error e
  | .reject => .error (.unexpected kind)

/-- Takes one token. The reader that is returned goes on in the error state after a fault. -/
def feed (r : Reader) (token : Token) : Except Stop Unit × Reader :=
  let (state, action) := transition r.state token.kind
  match r.perform action token.kind token.text with
  | .ok next => (.ok (), { next with state })
  | .error fault => (.error ⟨r.state, fault⟩, { r with state := .error })

/-- What has been read, if the source is complete. -/
def finish (r : Reader) : Except Stop Parsed :=
  if r.state = .after .eof then .ok r.parsed else .error ⟨r.state, .unfinished⟩

/-- Takes tokens up to the first fault. -/
def feedAll (r : Reader) : List Token → Except Stop Reader
  | [] => .ok r
  | token :: tokens =>
    match r.feed token with
    | (.ok (), next) => next.feedAll tokens
    | (.error stop, _) => .error stop

end Reader

/-- Reads a whole token list, which must end with `EOF`. -/
def read (tokens : List Token) : Except Stop Parsed :=
  match ({} : Reader).feedAll tokens with
  | .ok r => r.finish
  | .error stop => .error stop

end GuardedConfig.Statement
