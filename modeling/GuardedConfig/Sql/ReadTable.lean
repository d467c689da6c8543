import GuardedConfig.Sql.ReadExpr

/-!
# `Sql.ReadTable` — reading table definitions

A definition lists columns with their types and constraints, then constraints of the table, then options. Its
parts are checked one by one while they are read, so a part that cannot be goes before a syntax fault behind it:
the reader gives the parts that it could read together with the fault that stopped it. A part is checked only
when the token behind it is known, so a fault at that token goes before one of the part: the reader then leaves
the part out.

## Contents

* `TableText` — what is known about a definition
* `readColumnConstraint`, `readTableConstraint`
* `readTable` — a definition after the words `CREATE TABLE`
-/

namespace GuardedConfig.Sql

open Text

/-- A table definition: its parts in order, and the fault that stopped the reading, if any did. -/
structure TableText where
  ifNotExists : Bool
  name : String
  /-- The name as it was written. -/
  written : String := name
  /-- The whole text. -/
  text : String := ""
  items : List TableItem := []
  options : List TableOption := []
  stop : Option Fault := none
deriving Repr, Inhabited

/-! ## Pieces -/

/-- The clause `ON CONFLICT`, if it is next. -/
def readConflict : Reading (Option Conflict) := do
  if ← skipWord "ON" then
    expectWord "CONFLICT"
    if ← skipWord "ROLLBACK" then return some .rollback
    if ← skipWord "ABORT" then return some .abort
    if ← skipWord "FAIL" then return some .fail
    if ← skipWord "IGNORE" then return some .ignore
    if ← skipWord "REPLACE" then return some .replace
    unexpected
  return none

/-- An action of a foreign key. -/
def readAction : Reading ReferenceAction := do
  if ← skipWord "CASCADE" then return .cascade
  if ← skipWord "RESTRICT" then return .restrict
  if ← skipWord "SET" then
    if ← skipWord "NULL" then return .setNull
    expectWord "DEFAULT"
    return .setDefault
  expectWord "NO"
  expectWord "ACTION"
  return .noAction

/-- The actions of a foreign key. One on insertion says nothing. -/
def readActions (fuel : Nat) (r : References) : Reading References := do
  match fuel with
  | 0 => return r
  | fuel + 1 =>
    if ← skipWord "ON" then
      if ← skipWord "DELETE" then readActions fuel { r with onDelete := ← readAction }
      else if ← skipWord "UPDATE" then readActions fuel { r with onUpdate := ← readAction }
      else
        expectWord "INSERT"
        let _ ← readAction
        readActions fuel r
    else if ← skipWord "MATCH" then
      let _ ← expectName
      readActions fuel r
    else return r

/-- Whether a foreign key is checked at the end of a transaction; none if nothing is said about it. -/
def readDeferrable : Reading (Option Bool) := do
  let negated ← skipWords ["NOT", "DEFERRABLE"]
  if negated || (← skipWord "DEFERRABLE") then
    if ← skipWord "INITIALLY" then
      if ← skipWord "DEFERRED" then return some !negated
      expectWord "IMMEDIATE"
    return some false
  return none

/-- What a foreign key refers to, after the word `REFERENCES`. -/
def readReferences : Reading References := do
  let table ← expectName
  let columns ← if ((← peek?).map (·.isSign "(")).getD false then expectNameList else pure []
  readActions (← get).rest.length { table, columns }

/-- The text by which a check is known: what stands between its parentheses, or the name of the constraint. A
text that begins with a quote ends at the closing one. -/
def checkLabel (name : Option String) (tokens : List Lexeme) (gap : List Char) : String :=
  match name with
  | some name => name
  | none =>
    let text := (tokens.flatMap fun l => l.gap ++ l.text) ++ gap
    let text := trimWith isSpace text
    match nextLexeme text, text with
    | (.quotedName name _, _), _ :: _ => name
    | (.string s, _), _ :: _ => s
    | _, _ => String.ofList text

/-- A check after the word `CHECK`. -/
def readCheck (name : Option String) : Reading (Expr × String) := do
  expectSign "("
  let (e, tokens) ← withTokens expectExpr
  let gap := ((← peek?).map (·.gap)).getD []
  expectSign ")"
  return (e, checkLabel name tokens gap)

/-- A literal. -/
def readLiteral : Reading Value := do
  let some l ← peek? | unexpected
  let v ← match l.kind with
    | .number v => pure v
    | .string s => pure (.text s)
    | .blob bytes => pure (.blob bytes)
    | .word =>
      if l.isWord "NULL" then pure .null
      else if isMoment l then pure (.text l.written)
      else unexpected
    | _ => unexpected
  advance
  return v

/-- The value of a default: a literal with an optional sign, a name, which stands for its text, or an expression
in parentheses. -/
def readDefault : Reading Expr := do
  if ← skipSign "(" then
    let e ← expectExpr
    expectSign ")"
    return e
  if ← skipSign "+" then return .literal (← readLiteral)
  if ← skipSign "-" then
    let number ← peek?
    return negateExpr number (.literal (← readLiteral))
  let some l ← peek? | unexpected
  match l.kind, l.name? with
  | .quotedName name _, _ =>
    advance
    return .literal (.text name)
  | .word, some name =>
    if joinWords.any l.isWord && !l.isWord "INDEXED" then unexpected
    advance
    if l.isWord "TRUE" then return .int 1
    if l.isWord "FALSE" then return .int 0
    return .literal (.text name)
  | _, _ => return .literal (← readLiteral)

/-- The order of a key column, which has no effect but on the primary key. -/
def readOrder : Reading Bool := do
  if ← skipWord "DESC" then return true
  let _ ← skipWord "ASC"
  return false

/-- The columns of a key, each with an optional collation, at most `fuel` of them. -/
def readKeyColumns (fuel : Nat) : Reading (List (Expr × Option String)) := do
  match fuel with
  | 0 => unexpected
  | fuel + 1 =>
    let e ← expectExpr
    let _ ← readOrder
    let column := match e with
      | .collate e name => (e, some name)
      | e => (e, none)
    if ← skipSign "," then return column :: (← readKeyColumns fuel)
    return [column]

/-! ## Constraints -/

/-- A constraint after the type of a column; none if there is no further one. -/
def readColumnConstraint (name : Option String) : Reading (Option ColumnConstraint) := do
  if ← skipWord "DEFAULT" then return some (.default (← readDefault))
  if ← skipWord "NULL" then
    let _ ← readConflict
    return some .null
  if ((← get).rest.drop 1).head?.any (·.isWord "DEFERRABLE") then
    if let some deferred ← readDeferrable then return some (.defer deferred)
  if ← skipWord "NOT" then
    expectWord "NULL"
    return some (.notNull (← readConflict))
  if ← skipWord "PRIMARY" then
    expectWord "KEY"
    let descending ← readOrder
    let conflict ← readConflict
    return some (.primaryKey descending conflict (← skipWord "AUTOINCREMENT"))
  if ← skipWord "UNIQUE" then return some (.unique (← readConflict))
  if ← skipWord "CHECK" then
    let (e, label) ← readCheck name
    return some (.check e label)
  if ← skipWord "REFERENCES" then return some (.references (← readReferences))
  if ← skipWord "COLLATE" then return some (.collate (← expectPlainName))
  let generated ← skipWords ["GENERATED", "ALWAYS"]
  if ← skipWord "AS" then
    expectSign "("
    let e ← expectExpr
    expectSign ")"
    if !(← skipWord "STORED") then
      let _ ← skipWord "VIRTUAL"
    return some (.generated e)
  if generated then unexpected
  match ← readDeferrable with
  | some deferred => return some (.defer deferred)
  | none => return none

/-- A constraint of a table; none if there is no further one. -/
def readTableConstraint (name : Option String) : Reading (Option TableConstraint) := do
  if ← skipWord "PRIMARY" then
    expectWord "KEY"
    expectSign "("
    let columns ← readKeyColumns (← get).rest.length
    let autoincrement ← skipWord "AUTOINCREMENT"
    expectSign ")"
    return some (.primaryKey columns autoincrement (← readConflict))
  if ← skipWord "UNIQUE" then
    expectSign "("
    let columns ← readKeyColumns (← get).rest.length
    expectSign ")"
    return some (.unique columns (← readConflict))
  if ← skipWord "CHECK" then
    let (e, label) ← readCheck name
    let _ ← readConflict
    return some (.check e label)
  if ← skipWord "FOREIGN" then
    expectWord "KEY"
    let columns ← expectNameList
    expectWord "REFERENCES"
    let r ← readReferences
    let deferred ← readDeferrable
    return some (.foreignKey columns { r with deferred := deferred.getD false })
  return none

/-! ## Definitions -/

/-- The parts of a definition that were read, last one first, the number of tokens behind the last one, and the
fault that stopped the reading. -/
structure Parts where
  items : List TableItem := []
  options : List TableOption := []
  left : Nat := 0
  stop : Option Fault := none

namespace Parts

/-- Adds a part that ends before a place. -/
def add (p : Parts) (item : TableItem) (c : Cursor) : Parts :=
  { p with items := item :: p.items, left := c.rest.length }

/-- Adds an option that ends before a place. -/
def addOption (p : Parts) (option : TableOption) (c : Cursor) : Parts :=
  { p with options := option :: p.options, left := c.rest.length }

/-- Stops at a place with a fault. -/
def fail (p : Parts) (f : Fault) : Parts := { p with stop := some f }

/-- Stops at a token that does not fit. A part that ends right there is left out. -/
def failAt (p : Parts) (c : Cursor) : Parts :=
  let p := p.fail (faultAt c.rest)
  if c.rest.length ≠ p.left then p
  else if p.options.isEmpty then { p with items := p.items.drop 1 }
  else { p with options := p.options.drop 1 }

end Parts

/-- A step that reads the name of a constraint, if it is next. -/
def readConstraintName : Reading (Option String) := do
  if ← skipWord "CONSTRAINT" then return some (← expectName)
  return none

/-- The constraints of a column, at most `fuel` of them. A name holds until the end of the column. -/
def readColumnConstraints (fuel : Nat) (name : Option String) (p : Parts) (c : Cursor) : Parts × Cursor :=
  match fuel with
  | 0 => (p, c)
  | fuel + 1 =>
    match readConstraintName.run c with
    | .error f => (p.fail f, c)
    | .ok (some name, c) => readColumnConstraints fuel (some name) p c
    | .ok (none, c) =>
      match (readColumnConstraint name).run c with
      | .ok (none, c) => (p, c)
      | .ok (some constraint, c) => readColumnConstraints fuel name (p.add (.columnConstraint constraint) c) c
      | .error f => (p.fail f, c)

/-- Whether a token begins a constraint of a table. -/
def beginsConstraint (l : Lexeme) : Bool :=
  ["CONSTRAINT", "PRIMARY", "UNIQUE", "CHECK", "FOREIGN"].any l.isWord

/-- The constraints of a table, at most `fuel` of them. Commas between them are optional; a name holds up to the
next comma. -/
def readTableConstraints (fuel : Nat) (name : Option String) (p : Parts) (c : Cursor) : Parts × Cursor :=
  match fuel with
  | 0 => (p, c)
  | fuel + 1 =>
    match readConstraintName.run c with
    | .error f => (p.fail f, c)
    | .ok (some name, c) => readTableConstraints fuel (some name) p c
    | .ok (none, c) =>
      match (readTableConstraint name).run c with
      | .ok (some constraint, c) => readTableConstraints fuel name (p.add (.constraint constraint) c) c
      | .error f => (p.fail f, c)
      | .ok (none, c) =>
        match c.rest with
        | comma :: rest =>
          if comma.isSign "," then
            let after := { c with rest := rest }
            if (rest.head?.map beginsConstraint).getD false then readTableConstraints fuel none p after
            else (p.failAt after, after)
          else (p, c)
        | [] => (p, c)

/-- The columns of a definition, and the constraints behind the last one; at most `fuel` columns. -/
def readColumns (fuel : Nat) (p : Parts) (c : Cursor) : Parts × Cursor :=
  match fuel with
  | 0 => (p, c)
  | fuel + 1 =>
    let column : Reading ColumnDef := do
      let name ← expectName
      return ⟨name, ← readTypeName⟩
    match column.run c with
    | .error f => (p.fail f, c)
    | .ok (column, c) =>
      let (p, c) := readColumnConstraints (c.rest.length + 1) none (p.add (.column column) c) c
      if p.stop.isSome then (p, c)
      else
        match c.rest with
        | comma :: rest =>
          if comma.isSign "," then
            let after := { c with rest := rest }
            if (rest.head?.map beginsConstraint).getD false then
              readTableConstraints (rest.length + 1) none p after
            else if rest.isEmpty then (p.failAt after, after)
            else readColumns fuel p after
          else (p, c)
        | [] => (p, c)

/-- An option behind a definition. -/
def readOption : Reading TableOption := do
  let without ← skipWord "WITHOUT"
  let (_, tokens) ← withTokens expectName
  let name := textOf tokens
  match without, name.toLower with
  | true, "rowid" => return .withoutRowid
  | false, "strict" => return .strict
  | _, _ => return .unknown name

/-- Whether a statement ends at a place: at a semicolon, or at the end of the text. -/
def endsAt (c : Cursor) : Bool := c.rest.head?.all (·.isSign ";")

/-- The options behind a definition up to the end of the statement, at most `fuel` of them. They are divided by
commas; one before the first is no fault. -/
def readOptions (fuel : Nat) (p : Parts) (c : Cursor) : Parts × Cursor :=
  match fuel with
  | 0 => (p, c)
  | fuel + 1 =>
    if endsAt c then (p, { c with rest := c.rest.drop 1 })
    else
      let divided := c.rest.head?.any (·.isSign ",")
      if !divided && !p.options.isEmpty then (p.failAt c, c)
      else
        match readOption.run (if divided then { c with rest := c.rest.drop 1 } else c) with
        | .ok (option, c) => readOptions fuel (p.addOption option c) c
        | .error f => (p.fail f, c)

/-- A definition after the words `CREATE TABLE`. -/
def readTable : Reading TableText := do
  let ifNotExists ← skipWord "IF"
  if ifNotExists then
    expectWord "NOT"
    expectWord "EXISTS"
  let (name, tokens) ← withTokens expectName
  expectSign "("
  let start ← get
  let (p, c) := readColumns start.rest.length {} start
  let (p, c) :=
    if p.stop.isSome then (p, c)
    else
      match (expectSign ")").run c with
      | .error _ => (p.failAt c, c)
      | .ok (_, c) => readOptions (c.rest.length + 1) p c
  set c
  return {
    ifNotExists, name, written := textOf tokens
    items := p.items.reverse, options := p.options.reverse, stop := p.stop }

end GuardedConfig.Sql
