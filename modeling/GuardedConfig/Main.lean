import GuardedConfig.CommandLine

/-!
# `Main` — the command on the files of the current directory

The command runs on the directory as a value; here its files are read before and written afterwards. Programs
cannot be started, so a lexer has to have written the tokens before.

## Contents

* `environment`, `readFiles`, `writeFiles`
* `main`
-/

namespace GuardedConfig.CommandLine

/-- The variables that settings come from. -/
def variableNames : List String := ["CANFIG_DATABASE", "CANFIG_FRESH_DATABASE", "CANFIG_LEXER", "CANFIG_LOG"]

/-- The variables that are set. -/
def environment : IO (List (String × String)) := do
  let values ← variableNames.mapM fun name => do return (← IO.getEnv name).map (name, ·)
  return values.filterMap id

/-- The files at some paths; those that cannot be read are not there. -/
def readFiles (paths : List String) : IO Directory :=
  paths.foldlM (fun (d : Directory) (path : String) => do
    try return d.write path (.ofText (← IO.FS.readFile path))
    catch _ => return d) []

/-- Writes the files that are new or changed, and removes those that are gone. -/
def writeFiles (before after : Directory) : IO Unit := do
  for (name, _) in before do
    if !after.exists? name then IO.FS.removeFile name
  for (name, content) in after do
    if (before.content? name).map (·.toText) != some content.toText then
      IO.FS.writeFile name content.toText

end GuardedConfig.CommandLine

open GuardedConfig CommandLine in
/-- Installs the configuration of the source that the arguments name; the exit status tells whether it could. -/
def main (args : List String) : IO UInt32 := do
  let env ← environment
  let settings ← readFiles [settingsPath]
  let before ← readFiles (paths env settings args)
  let outcome := run (fun _ => none) env before args
  writeFiles before outcome.directory
  for line in outcome.info do
    IO.println ("INFO " ++ target ++ ": " ++ line)
  if let some error := outcome.error then
    IO.eprintln ("ERROR " ++ target ++ ": " ++ error)
  return outcome.status.toUInt32
