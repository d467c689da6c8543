import GuardedConfig.Sql.Eval

/-!
# `Sql.Reference` — rows that refer to rows

A foreign key pairs columns of a child table with a key of its parent table. A row without nulls in these columns
refers to the parent row with equal values; it is an orphan if there is none.

## Contents

* `parentKey`, `parentOf` — the parent of a foreign key, and the pairs of columns
* `refersTo` — whether a row refers to a parent row
* `isOrphan`, `orphans` — rows without their parent
* `referrers` — the foreign keys that refer to a table
-/

namespace GuardedConfig.Sql

/-! ## Parents -/

/-- The columns of a foreign key paired with the columns of the key that they refer to: the identifier of the
rows, or a unique key of the same columns under their own collations. -/
def parentKey (parent : TableInfo) (k : ForeignKeyInfo) : Option (List (Nat × Nat)) :=
  let named := fun (j : Nat) => k.parentColumns.findIdx? (sameName (parent.columnName j))
  match k.columns, parent.key.filter fun j => k.parentColumns.isEmpty || (named j).isSome with
  | [i], some j => some [(i, j)]
  | columns, _ =>
    (parent.uniques.filter (·.columns.length = columns.length)).findSome? fun u =>
      if k.parentColumns.isEmpty then
        if u.isPrimary then some (columns.zip (u.columns.map (·.1))) else none
      else
        u.columns.mapM fun (j, collation) => do
          guard ((parent.columns[j]?.map (·.collation)) == some collation)
          return (← columns[← named j]?, j)

/-- The parent table of a foreign key with the pairs of columns. -/
def parentOf (c : Content) (child : TableInfo) (k : ForeignKeyInfo) : Except Fault (Stored × List (Nat × Nat)) :=
  match c.find? k.parent with
  | none => .error (.noTable ("main." ++ k.parent))
  | some parent =>
    match parentKey parent.info k with
    | some pairs => .ok (parent, pairs)
    | none => .error (.keyMismatch child.name k.parent)

/-- The foreign keys that refer to a table, the newest one first, each with its table. -/
def referrers (c : Content) (table : String) : List (Stored × ForeignKeyInfo) :=
  (c.tables.flatMap fun t =>
    (t.info.foreignKeys.filter fun k => sameName k.parent table).map fun k => (t, k)).reverse

/-! ## Rows -/

/-- Whether a row has a value in every column of a foreign key. -/
def hasReference (k : ForeignKeyInfo) (row : Row) : Bool := k.columns.all fun i => row.value i != .null

/-- Whether a row looks up a parent row: its values, as the parent would hold them, are equal. -/
def findsParent (parent : TableInfo) (pairs : List (Nat × Nat)) (row p : Row) : Bool :=
  pairs.all fun (i, j) =>
    match parent.columns[j]? with
    | some column =>
      compareUnder none column.collation (p.value j) (column.affinity.store (row.value i)) == some .eq
    | none => false

/-- Whether the values of a parent row are those that a row refers to. -/
def refersTo (parent child : TableInfo) (pairs : List (Nat × Nat)) (row p : Row) : Bool :=
  pairs.all fun (i, j) =>
    match parent.columns[j]?, child.columns[i]? with
    | some a, some b =>
      compareUnder (Affinity.common (some a.affinity) (some b.affinity)) a.collation (p.value j) (row.value i) ==
        some .eq
    | _, _ => false

/-- Whether a row refers to a row that is not there. -/
def isOrphan (c : Content) (child : TableInfo) (k : ForeignKeyInfo) (row : Row) : Bool :=
  hasReference k row &&
    match parentOf c child k with
    | .ok (parent, pairs) => !parent.rows.any (findsParent parent.info pairs row)
    | .error _ => true

/-- The number of missing parents, over the foreign keys that are checked at once or over those that are checked
at the end of a transaction. -/
def orphans (c : Content) (deferred : Bool) : Nat :=
  (c.tables.flatMap fun t =>
    (t.info.foreignKeys.filter (·.deferred == deferred)).flatMap fun k =>
      t.rows.filter (isOrphan c t.info k)).length

end GuardedConfig.Sql
