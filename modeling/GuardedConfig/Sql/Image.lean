import GuardedConfig.Json.Print
import GuardedConfig.Json.Read
import GuardedConfig.Sql.Definition
import GuardedConfig.Sql.ReadStatement

/-!
# `Sql.Image` — a content as a text

A content is written as one line that says what follows, and one line of JSON: the definition of each table as it
was given, its rows in order, and the identifiers that have been used. Reading the definition again gives the
table, so nothing that hangs on it is written. Nulls, whole numbers and texts stand for themselves; a
double-precision number is an object with its bit pattern, and bytes are an array.

## Contents

* `valueImage`, `valueOf?`, `rowImage`, `rowOf?`, `tableImage`, `tableOf?`
* `Content.image`, `Content.ofImage?` — a content and its text
-/

namespace GuardedConfig.Sql

open Decimal

/-! ## Values and rows -/

/-- A value as JSON. -/
def valueImage : Value → Json
  | .null => .null
  | .integer n => .int n
  | .real x => .obj [("bits", .int x.bits.toNat)]
  | .text s => .str s
  | .blob bytes => .arr (bytes.map fun b => .int b.toNat)

/-- A byte of an image. -/
def byteOf? : Json → Option UInt8
  | .int n => if 0 ≤ n ∧ n < 256 then some (UInt8.ofNat n.toNat) else none
  | _ => none

/-- The value that a part of an image is. -/
def valueOf? : Json → Option Value
  | .null => some .null
  | .int n => some (.integer n)
  | .obj [("bits", .int n)] => if 0 ≤ n then some (.real ⟨UInt64.ofNat n.toNat⟩) else none
  | .str s => some (.text s)
  | .arr items => (items.mapM byteOf?).map .blob
  | _ => none

theorem mapM_byteOf? (bytes : List UInt8) :
    (bytes.map fun b => Json.int b.toNat).mapM byteOf? = some bytes := by
  induction bytes with
  | nil => rfl
  | cons b rest ih =>
    have hb : byteOf? (.int b.toNat) = some b := by
      have := b.toNat_lt
      have hn : (0 : Int) ≤ b.toNat ∧ (b.toNat : Int) < 256 := by omega
      simp [byteOf?, hn]
    simp [List.mapM_cons, hb, ih]

/-- The part of an image that a value is gives the value again. -/
@[simp] theorem valueOf?_valueImage (v : Value) : valueOf? (valueImage v) = some v := by
  cases v with
  | null => rfl
  | integer n => rfl
  | real x => simp [valueImage, valueOf?]
  | text s => rfl
  | blob bytes => simp only [valueImage, valueOf?, mapM_byteOf?, Option.map_some]

/-- A row as JSON: its identifier before its values. -/
def rowImage (r : Row) : Json := .arr (.int r.id :: r.values.map valueImage)

/-- The row that a part of an image is. -/
def rowOf? : Json → Option Row
  | .arr (.int id :: values) => (values.mapM valueOf?).map (⟨id, ·⟩)
  | _ => none

/-- The part of an image that a row is gives the row again. -/
@[simp] theorem rowOf?_rowImage (r : Row) : rowOf? (rowImage r) = some r := by
  have h : (r.values.map valueImage).mapM valueOf? = some r.values := by
    induction r.values with
    | nil => rfl
    | cons v rest ih => simp [List.mapM_cons, ih]
  simp [rowImage, rowOf?, h]

/-! ## Tables -/

/-- A table as JSON. -/
def tableImage (t : Stored) : Json :=
  .obj [("definition", .str t.info.definition), ("rows", .arr (t.rows.map rowImage))]

/-- The table that a text defines. -/
def infoOf? (definition : String) : Option TableInfo :=
  match readFirst (lexemes definition) with
  | .ok (some { sentence := .create d, .. }) => d.info.toOption
  | _ => none

/-- The table that a part of an image is. -/
def tableOf? : Json → Option Stored
  | .obj [("definition", .str definition), ("rows", .arr rows)] => do
    some { info := ← infoOf? definition, rows := ← rows.mapM rowOf? }
  | _ => none

/-- A used identifier that a part of an image is. -/
def sequenceOf? : Json → Option (String × Int)
  | .arr [.str name, .int id] => some (name, id)
  | _ => none

/-! ## Contents -/

namespace Content

/-- The first line of an image. -/
def imageHeader : String := "stored configuration, version 1\n"

/-- A content as JSON. -/
def toJson (c : Content) : Json :=
  .obj [("sequences", .arr (c.sequences.map fun (name, id) => .arr [.str name, .int id])),
    ("tables", .arr (c.tables.map tableImage))]

/-- The content that a JSON value is. -/
def ofJson? : Json → Option Content
  | .obj [("sequences", .arr sequences), ("tables", .arr tables)] => do
    some { tables := ← tables.mapM tableOf?, sequences := ← sequences.mapM sequenceOf? }
  | _ => none

/-- The text of a content. -/
def image (c : Content) : String := imageHeader ++ c.toJson.compact ++ "\n"

/-- The content whose text this is. -/
def ofImage? (text : String) : Option Content := do
  let body ← Text.dropMark? imageHeader.toList text.toList
  ofJson? (← Json.ofText? (String.ofList body))

end Content

end GuardedConfig.Sql
