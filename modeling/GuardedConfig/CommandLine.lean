import GuardedConfig.Directory
import GuardedConfig.Log
import GuardedConfig.Registry
import GuardedConfig.Settings
import GuardedConfig.Token.Stream

/-!
# `CommandLine` — installing the configuration of a source

The command takes the path of a source. Its artifact and the tokens that the lexer writes stand beside it, under
the same stem. The artifact is taken if it belongs to the source, otherwise it is compiled from the tokens and
stored; then the store is opened and the artifact is loaded. What is logged depends on the settings.

## Contents

* `World` — the directory, and the lines that are logged
* `artifactPath`, `tokenPath` — the files that belong to a source
* `lex`, `obtain`, `load`, `runWith` — the steps
* `Outcome`, `paths`, `run` — the command
-/

namespace GuardedConfig.CommandLine

/-- What the command works on: the directory, and the lines it has logged. -/
structure World where
  directory : Directory
  lines : List String := []
deriving Repr, Inhabited

/-- Programs that can be started: their exit status by name. -/
abbrev Programs := String → Option Nat

/-! ## Files -/

/-- The path of a source without its extension. -/
def stem (source : String) : String := withExtension source ""

/-- The artifact of a source. -/
def artifactPath (source : String) : String := withExtension (stem source) "candy"

/-- The tokens of a source. -/
def tokenPath (source : String) : String := withExtension (stem source) "cando"

/-! ## Steps -/

/-- Logs a line. -/
def log (line : String) : Task World Unit := modify fun w => { w with lines := w.lines ++ [line] }

/-- The text of a file. -/
def readText (path : String) : Task World String := do
  match (← get).directory.text? path with
  | some text => return text
  | none => throw .artifact

/-- Changes the directory. -/
def modifyDirectory (f : Directory → Directory) : Task World Unit :=
  modify fun w => { w with directory := f w.directory }

/-- Starts the lexer. -/
def startLexer (programs : Programs) (lexer : String) : Task World Unit :=
  match programs lexer with
  | none => throw .artifact
  | some 0 => return ()
  | some status => throw (.tokenStream (.lexerExited lexer ("exit status: " ++ toString status)))

/-- Why a path cannot be read that leads to no file: it leads to a directory, or to nothing. -/
def missingFile (path : String) : String :=
  let name := (splitLast path.toList).2
  if name = ['.'] ∨ name = ['.', '.'] then "Is a directory (os error 21)"
  else "No such file or directory (os error 2)"

/-- The tokens of a source. A lexer writes them, and then their file is removed again. -/
def lex (programs : Programs) (settings : Settings) (source : String) : Task World (List Token) := do
  let path := tokenPath source
  if let some lexer := settings.lexer then startLexer programs lexer
  let some text := (← get).directory.text? path | throw (.tokenStream (.unreadable path (missingFile path)))
  if settings.lexer.isSome then modifyDirectory (·.remove path)
  match Token.readStream text with
  | .ok tokens => return tokens
  | .error f => throw (.tokenStream f)

/-- The artifact of a source, from its file or from its tokens. -/
def obtain (programs : Programs) (settings : Settings) (path source : String) : Task World Artifact := do
  let artifact := artifactPath path
  let file := (← get).directory.text? artifact
  if let some a := Artifact.stored? file source then return a
  let tokens ← lex programs settings path
  let (result, file) := Artifact.obtain file source (.ok tokens)
  if let some text := file then modifyDirectory (·.write artifact (.text text))
  Task.ofExcept result

/-! ## The store -/

/-- Loads an artifact on the store of the settings. A store in a file is created when it is opened, and keeps what
is installed on it also if loading fails. -/
def load (settings : Settings) (a : Artifact) : Task World Registry := do
  match settings.location with
  | .memory => Task.ofExcept (Registry.load a {}).1
  | .file path =>
    if (fileName? path).isNone then throw (.store (.cannotOpen path))
    let before ← match (← get).directory.content? path with
      | some (.database c) => pure c
      | some (.text s) => do
        let (schema, _) ← Task.ofExcept (Registry.prepare a.declarations)
        if !s.isEmpty && !schema.units.isEmpty then throw (.store .notDatabase)
        pure {}
      | none => pure {}
    let (result, store) := Registry.load a (.ofContent before)
    modifyDirectory (·.write path (.database store.session.committed))
    Task.ofExcept result

/-- Removes the file of the store, if a fresh one is wanted. -/
def refresh (settings : Settings) : Task World Unit := do
  if let .file path := settings.location then
    if settings.freshDatabase && (← get).directory.exists? path then
      modifyDirectory (·.remove path)
      log ("removed existing database database=" ++ path)

/-- The line about an installed configuration. -/
def summaryLine (database : String) (r : Registry) : String :=
  "configuration installed database=" ++ database ++ " configs=" ++ toString r.configs.length ++
    " fields=" ++ toString r.paths.length ++ " triggers=" ++ toString r.triggers.length ++
    " slices=" ++ toString r.slices.length

/-- Installs the configuration of the source that the arguments name. -/
def runWith (programs : Programs) (settings : Settings) (args : List String) : Task World Unit := do
  let path :: _ := args | throw (.settings "usage: canfig <source.canfig>")
  let source ← readText path
  let artifact ← obtain programs settings path source
  refresh settings
  let r ← load settings artifact
  for (tag, text) in r.metadata do
    log ("metadata tag=" ++ tag ++ " value=" ++ text)
  log (summaryLine settings.database r)

/-! ## The command -/

/-- What is left of a run: the exit status, the lines, the error, and the directory. -/
structure Outcome where
  status : Nat
  info : List String := []
  error : Option String := none
  directory : Directory
deriving Repr, Inhabited

/-- The wording of an error on the command line. -/
def errorText : Error → String
  | .store f => "Store error: " ++ f.message
  | e => e.message

/-- The name of the command, under which it logs. -/
def target : String := "canfig"

/-- The settings in a directory. -/
def settingsPath : String := "canfig.json"

/-- The files that the command may read or write: the settings, what belongs to the source, and the store. -/
def paths (env : List (String × String)) (d : Directory) (args : List String) : List String :=
  let source := match args with
    | path :: _ => [path, artifactPath path, tokenPath path]
    | [] => []
  let store := match Settings.read (d.text? settingsPath) env with
    | .ok settings => settings.location.path?.toList
    | .error _ => []
  settingsPath :: source ++ store

/-- Runs the command in a directory. -/
def run (programs : Programs) (env : List (String × String)) (d : Directory) (args : List String) : Outcome :=
  match Settings.read (d.text? settingsPath) env with
  | .error _ => { status := 1, error := some "could not read settings", directory := d }
  | .ok settings =>
    let filter := Log.Filter.ofText settings.log
    let (result, w) := (runWith programs settings args).run.run { directory := d }
    let info := if filter.logs target .info then w.lines else []
    match result with
    | .ok () => { status := 0, info, directory := w.directory }
    | .error e =>
      { status := 1, info, directory := w.directory
        error := if filter.logs target .error then some (errorText e) else none }

end GuardedConfig.CommandLine
