import GuardedConfig.Digest.Blake3
import GuardedConfig.Error
import GuardedConfig.Json.Read
import GuardedConfig.Statement.Reader

/-!
# `Artifact` — compiled sources

An artifact holds the declarations and the metadata of a source together with the fingerprint of its text. It is
stored as JSON text. A stored artifact stands for a source as long as the fingerprints agree; otherwise the
source is compiled again.

Reading is strict about the fields of each record and about their types, and lenient about everything else:
unknown members are skipped, and a record may be given as the array of its fields.

## Contents

* `Artifact`, `Artifact.compile`, `Artifact.isFresh`
* `Artifact.toJson`, `Artifact.text` — writing
* `Artifact.ofText?` — reading
* `Artifact.stored?`, `Artifact.obtain` — the stored artifact, or a new one
-/

namespace GuardedConfig

open Json

/-- Declarations and metadata with the fingerprint of the source that they come from. -/
structure Artifact where
  fingerprint : String
  metadata : List (String × String) := []
  declarations : Declarations := {}
deriving DecidableEq, Repr, Inhabited

namespace Artifact

/-- The digest of a source text. -/
def fingerprintOf (source : String) : String := Digest.hexDigest source

/-- Whether an artifact belongs to a source. -/
def isFresh (a : Artifact) (source : String) : Bool := a.fingerprint == fingerprintOf source

/-- Compiles the tokens of a source. -/
def compile (source : String) (tokens : List Token) : Except Error Artifact :=
  match Statement.read tokens with
  | .ok parsed => .ok ⟨fingerprintOf source, parsed.metadata, parsed.declarations⟩
  | .error stop => .error (.parse stop)

/-! ## Writing -/

/-- A struct as JSON; the members of records keep the order of the fields. -/
def structJson (d : StructDecl) : Json :=
  .obj [("name", .str d.name), ("body", .str d.body), ("argument", (d.argument.map .str).getD .null)]

@[inherit_doc structJson] def configJson (d : ConfigDecl) : Json :=
  .obj [("name", .str d.name), ("body", .str d.body)]

@[inherit_doc structJson] def triggerJson (d : TriggerDecl) : Json :=
  .obj [("name", .str d.name), ("condition", .str d.condition), ("code", .str d.code)]

@[inherit_doc structJson] def sliceJson (d : SliceDecl) : Json :=
  .obj [("name", .str d.name), ("command", .str d.command)]

/-- Declarations as JSON. -/
def declarationsJson (ds : Declarations) : Json :=
  .obj [("structs", .arr (ds.structs.map structJson)), ("configs", .arr (ds.configs.map configJson)),
    ("triggers", .arr (ds.triggers.map triggerJson)), ("slices", .arr (ds.slices.map sliceJson))]

/-- An artifact as JSON. -/
def toJson (a : Artifact) : Json :=
  .obj [("fingerprint", .str a.fingerprint),
    ("metadata", .obj (a.metadata.map fun (tag, value) => (tag, .str value))),
    ("declarations", declarationsJson a.declarations)]

/-- The text in which an artifact is stored. -/
def text (a : Artifact) : String := a.toJson.indented

/-! ## Reading -/

/-- The text that a document is. -/
def textOf? : Document → Option String
  | .string s => s
  | _ => none

/-- The items of a document that is an array. -/
def itemsOf? {α : Type} (item : Document → Option α) : Document → Option (List α)
  | .array ds => ds.mapM item
  | _ => none

/-- The values of one field of an object: none is missing, and two are too many. -/
def fieldOf? (name : String) (members : List (Option String × Document)) : Option (Option Document) :=
  match members.filter fun (key, _) => key == some name with
  | [] => some none
  | [(_, d)] => some (some d)
  | _ => none

/-- The fields of a record, in order; as an array they have to be complete. -/
def fieldsOf? (names : List String) : Document → Option (List (Option Document))
  | .object members => if members.all (·.1.isSome) then names.mapM (fieldOf? · members) else none
  | .array items => if items.length = names.length then some (items.map some) else none
  | _ => none

/-- The struct that a document is; the argument may be missing. -/
def structOf? (d : Document) : Option StructDecl := do
  match ← fieldsOf? ["name", "body", "argument"] d with
  | [some name, some body, argument] =>
    let argument ← match argument with
      | none | some .null => some none
      | some d => (textOf? d).map some
    some ⟨← textOf? name, ← textOf? body, argument⟩
  | _ => none

/-- The config that a document is. -/
def configOf? (d : Document) : Option ConfigDecl := do
  match ← fieldsOf? ["name", "body"] d with
  | [some name, some body] => some ⟨← textOf? name, ← textOf? body⟩
  | _ => none

/-- The trigger that a document is. -/
def triggerOf? (d : Document) : Option TriggerDecl := do
  match ← fieldsOf? ["name", "condition", "code"] d with
  | [some name, some condition, some code] => some ⟨← textOf? name, ← textOf? condition, ← textOf? code⟩
  | _ => none

/-- The slice that a document is. -/
def sliceOf? (d : Document) : Option SliceDecl := do
  match ← fieldsOf? ["name", "command"] d with
  | [some name, some command] => some ⟨← textOf? name, ← textOf? command⟩
  | _ => none

/-- The declarations that a document is. -/
def declarationsOf? (d : Document) : Option Declarations := do
  match ← fieldsOf? ["structs", "configs", "triggers", "slices"] d with
  | [some structs, some configs, some triggers, some slices] =>
    some ⟨← itemsOf? structOf? structs, ← itemsOf? configOf? configs, ← itemsOf? triggerOf? triggers,
      ← itemsOf? sliceOf? slices⟩
  | _ => none

/-- The metadata that a document is: texts by tag, where of one tag the last text stays. -/
def metadataOf? : Document → Option (List (String × String))
  | .object ms => do
    let pairs ← ms.mapM fun (key, d) => do some (← key, ← textOf? d)
    some (members pairs)
  | _ => none

/-- The artifact that a text is. -/
def ofText? (text : String) : Option Artifact := do
  match ← fieldsOf? ["fingerprint", "metadata", "declarations"] (← Document.ofText? text) with
  | [some fingerprint, some metadata, some declarations] =>
    some ⟨← textOf? fingerprint, ← metadataOf? metadata, ← declarationsOf? declarations⟩
  | _ => none

/-! ## The stored artifact -/

/-- The artifact in a file, if there is one and it belongs to the source. -/
def stored? (file : Option String) (source : String) : Option Artifact :=
  (file.bind ofText?).filter (·.isFresh source)

/-- The artifact of a source and the content of its file afterwards. The tokens are needed only if no artifact
is stored; a new artifact replaces the content of the file. -/
def obtain (file : Option String) (source : String) (tokens : Except Error (List Token)) :
    Except Error Artifact × Option String :=
  match stored? file source with
  | some a => (.ok a, file)
  | none =>
    match tokens.bind (compile source) with
    | .ok a => (.ok a, some a.text)
    | .error e => (.error e, file)

end Artifact

end GuardedConfig
