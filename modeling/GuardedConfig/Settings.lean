import GuardedConfig.Json.Read
import GuardedConfig.Error
import GuardedConfig.Text.Case

/-!
# `Settings` — where the database is, what is logged, and who lexes

Settings come in three layers: defaults, an optional JSON file, and environment variables that begin with
`CANFIG_`; a later layer replaces what an earlier one says. Values are converted where they are used: numbers
and truth values become text, numbers and a few words become truth values.

## Contents

* `Settings`, `Settings.read`
* `textOf`, `truthOf` — conversions
* `Location`, `Location.ofText` — where a store is kept
-/

namespace GuardedConfig

open Decimal Text

/-- Where a store is kept. -/
inductive Location where
  | memory
  | file (path : String)
deriving DecidableEq, Repr, Inhabited

/-- An empty location and `:memory:` keep the store in memory; anything else is the path of a file. -/
def Location.ofText (text : String) : Location :=
  if text.isEmpty || text == ":memory:" then .memory else .file text

/-- The path of a store that is kept in a file. -/
def Location.path? : Location → Option String
  | memory => none
  | file path => some path

/-- Settings. -/
structure Settings where
  database : String := ":memory:"
  log : String := "info"
  lexer : Option String := none
  freshDatabase : Bool := false
deriving DecidableEq, Repr, Inhabited

/-- Where the store of some settings is kept. -/
def Settings.location (s : Settings) : Location := .ofText s.database

namespace Settings

/-! ## Conversions -/

/-- Reals in settings are always positional. -/
def realPlaces : Places := ⟨-400, 400, "", 1, false⟩

/-- A real as text; whole reals have no point. -/
def realText (x : Binary64) : String :=
  let text := (realPlaces.writeSigned (shortest .up) x).toList
  String.ofList (if text.drop (text.length - 2) = ['.', '0'] then text.take (text.length - 2) else text)

/-- A value as text; arrays, objects and null are none. Whole numbers beyond 64 bits with sign are reals. -/
def textOf : Json → Option String
  | .str s => some s
  | .bool b => some (if b then "true" else "false")
  | .int n => some (if n ≤ maxInt then Json.intText n else realText (.ofInt n))
  | .real x => some (realText x)
  | _ => none

/-- The words for true. -/
def trueWords : List String := ["1", "true", "on", "yes"]

/-- The words for false. -/
def falseWords : List String := ["0", "false", "off", "no"]

/-- A value as a truth value: numbers other than zero are true. -/
def truthOf : Json → Option Bool
  | .bool b => some b
  | .int n => some (n != 0)
  | .real x => some (!x.isZero)
  | .str s =>
    if trueWords.any (equalsIgnoringAsciiCase · s) then some true
    else if falseWords.any (equalsIgnoringAsciiCase · s) then some false
    else none
  | _ => none

/-! ## Layers -/

/-- The values of all layers so far, by key. -/
abbrev Layer := List (String × Json)

/-- The layer that every other one is put upon. -/
def defaults : Layer :=
  [("database", .str ":memory:"), ("fresh_database", .bool false), ("log", .str "info")]

/-- Puts a value over an earlier one. An object does not replace a value as a whole, and without members it
changes nothing. -/
def put (layer : Layer) (key : String) (value : Json) : Layer :=
  match value with
  | .obj [] => if layer.any (·.1 == key) then layer else Json.insertMember key value layer
  | _ => Json.insertMember key value layer

/-- Puts the members of one layer over another. -/
def putAll (layer : Layer) (members : List (String × Json)) : Layer :=
  members.foldl (fun layer (key, value) => put layer key value) layer

/-- The settings in an environment: the variables whose names begin with `CANFIG_`, in any case. -/
def ofEnvironment (env : List (String × String)) : List (String × Json) :=
  env.filterMap fun (name, value) =>
    (dropMark? "canfig_".toList (name.toList.map Char.toLower)).map fun key =>
      (String.ofList key, .str value)

/-- The settings that all layers together give. -/
def ofLayer (layer : Layer) : Option Settings := do
  let database ← textOf (← layer.lookup "database")
  let log ← textOf (← layer.lookup "log")
  let lexer ← match layer.lookup "lexer" with
    | none | some .null => some none
    | some v => (textOf v).map some
  let freshDatabase ← truthOf (← layer.lookup "fresh_database")
  some { database, log, lexer, freshDatabase }

/-- The settings from the text of a file, if there is one, and the environment. -/
def read (file : Option String) (env : List (String × String)) : Except Error Settings :=
  let members : Option (List (String × Json)) :=
    match file with
    | none => some []
    | some text =>
      match Json.ofText? text with
      | some (.obj members) => some members
      | _ => none
  match members.bind fun members => ofLayer (putAll (putAll defaults members) (ofEnvironment env)) with
  | some settings => .ok settings
  | none => .error (.settings "invalid settings")

end Settings

end GuardedConfig
