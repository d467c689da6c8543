import GuardedConfig.Sql.Image
import GuardedConfig.Text.Trim

/-!
# `Directory` — the files that a command sees

A directory holds files by name. A file has text, or it holds the content of a store. Paths lead to files of the
directory only; the extension of a path is what follows the last point of its last component.

## Contents

* `FileContent`, its `ofText` and `toText`
* `Directory`, and reading, writing and removing files
* `withExtension` — a path with another extension
-/

namespace GuardedConfig

open Text

/-- What a file holds. -/
inductive FileContent where
  | text (s : String)
  | database (c : Sql.Content)
deriving Repr, Inhabited

/-- What a file with a text holds. -/
def FileContent.ofText (s : String) : FileContent :=
  match Sql.Content.ofImage? s with
  | some c => database c
  | none => text s

/-- The text of a file. -/
def FileContent.toText : FileContent → String
  | text s => s
  | database c => c.image

/-- The files of a directory, ordered by name. -/
abbrev Directory := List (String × FileContent)

/-! ## Paths -/

/-- The components of a path, without those that stay where they are. -/
def components (path : String) : List String :=
  ((splitChar '/' path.toList).map String.ofList).filter fun c => c != "" && c != "."

/-- The name of the file of the directory that a path leads to. -/
def fileName? (path : String) : Option String :=
  if path.toList.head? = some '/' then none
  else
    match components path with
    | [name] => if name == ".." then none else some name
    | _ => none

/-- A path split before its last component. -/
def splitLast (path : List Char) : List Char × List Char :=
  let last := (path.reverse.takeWhile (· != '/')).reverse
  (path.take (path.length - last.length), last)

/-- The stem of a file name: what stands before its last point, if anything does. -/
def stemOf (name : List Char) : List Char :=
  match name.reverse.dropWhile (· != '.') with
  | _ :: c :: before => (c :: before).reverse
  | _ => name

/-- A path with another extension instead of its own; an empty one leaves the stem. Points alone have no extension. Where
the stem is a point, it is left with the point behind it. -/
def withExtension (path extension : String) : String :=
  let (directory, name) := splitLast path.toList
  if name = [] ∨ name = ['.'] ∨ name = ['.', '.'] then path
  else if stemOf name = ['.'] then String.ofList (directory ++ ['.', '.'])
  else String.ofList (directory ++ stemOf name) ++ (if extension.isEmpty then "" else "." ++ extension)

namespace Directory

/-! ## Files -/

/-- What the file at a path holds. -/
def content? (d : Directory) (path : String) : Option FileContent := do d.lookup (← fileName? path)

/-- The text of the file at a path. -/
def text? (d : Directory) (path : String) : Option String :=
  match d.content? path with
  | some (.text s) => some s
  | _ => none

/-- Whether there is a file at a path. -/
def exists? (d : Directory) (path : String) : Bool := (d.content? path).isSome

/-- The directory with a file at a path. -/
def write (d : Directory) (path : String) (c : FileContent) : Directory :=
  match fileName? path with
  | some name => Json.insertMember name c d
  | none => d

/-- The directory without the file at a path. -/
def remove (d : Directory) (path : String) : Directory :=
  match fileName? path with
  | some name => d.filter (·.1 != name)
  | none => d

/-- The names of all files. -/
def names (d : Directory) : List String := d.map (·.1)

end Directory

end GuardedConfig
