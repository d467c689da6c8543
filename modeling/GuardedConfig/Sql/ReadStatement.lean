import GuardedConfig.Sql.ReadTable

/-!
# `Sql.ReadStatement` — reading statements

A text holds statements with semicolons between them. The first statement is read on its own; what follows its
semicolon is left.

## Contents

* `readSelect`, `readInsert`, `readUpdate`, `readDelete`
* `Sentence` — a statement, or a table definition
* `readFirst` — the first statement of a list of tokens
-/

namespace GuardedConfig.Sql

/-! ## Queries -/

/-- A name that may follow an expression or a table without the word `AS`. -/
def readTitle : Reading (Option String) := do
  if ← skipWord "AS" then return some (← expectName)
  match (← peek?).bind (·.plainName?) with
  | some name =>
    advance
    return some name
  | none => return none

/-- A column of a result. -/
def readResultColumn : Reading ResultColumn := do
  if ← skipSign "*" then return .star
  match (← get).rest with
  | source :: dot :: star :: rest =>
    if dot.isSign "." && star.isSign "*" then
      if let some name := source.name? then
        modify fun c => { c with rest }
        return .sourceStar name
  | _ => pure ()
  let (e, tokens) ← withTokens expectExpr
  return .value e (← readTitle) (textOf tokens)

/-- The columns of a result, at most `fuel` of them. -/
def readResultColumns (fuel : Nat) : Reading (List ResultColumn) := do
  match fuel with
  | 0 => unexpected
  | fuel + 1 =>
    let column ← readResultColumn
    if ← skipSign "," then return column :: (← readResultColumns fuel)
    return [column]

/-- The word that joins a further table, if there is one. -/
def skipJoin : Reading Bool := do
  if ← skipSign "," then return true
  if ← skipWord "JOIN" then return true
  if ← skipWords ["INNER", "JOIN"] then return true
  skipWords ["CROSS", "JOIN"]

/-- The tables of a query, at most `fuel` of them. -/
def readSources (fuel : Nat) : Reading (List Source) := do
  match fuel with
  | 0 => unexpected
  | fuel + 1 =>
    let table ← expectName
    let shortName ← readTitle
    let on ← if ← skipWord "ON" then some <$> expectExpr else pure none
    let source : Source := { table, shortName, on }
    if ← skipJoin then return source :: (← readSources fuel)
    return [source]

/-- A condition after the word `WHERE`, if there is one. -/
def readWhere : Reading (Option Expr) := do
  if ← skipWord "WHERE" then return some (← expectExpr)
  return none

/-- The terms of an order, at most `fuel` of them; each with whether it is descending. -/
def readTerms (fuel : Nat) : Reading (List (Expr × Bool)) := do
  match fuel with
  | 0 => unexpected
  | fuel + 1 =>
    let e ← expectExpr
    let descending ← readOrder
    if ← skipSign "," then return (e, descending) :: (← readTerms fuel)
    return [(e, descending)]

/-- A query after the word `SELECT`. -/
def readSelect : Reading Select := do
  let distinct ← skipWord "DISTINCT"
  if !distinct then
    let _ ← skipWord "ALL"
  let fuel := (← get).rest.length + 1
  let columns ← readResultColumns fuel
  let sources ← if ← skipWord "FROM" then readSources fuel else pure []
  let condition ← readWhere
  let order ←
    if ← skipWord "ORDER" then do
      expectWord "BY"
      readTerms fuel
    else pure []
  let limit ← if ← skipWord "LIMIT" then some <$> expectExpr else pure none
  return { distinct, columns, sources, condition, order, limit }

/-! ## Changes -/

/-- What happens when a row violates a constraint, after the word `OR`. -/
def readOr : Reading (Option Conflict) := do
  if ← skipWord "OR" then
    if ← skipWord "ROLLBACK" then return some .rollback
    if ← skipWord "ABORT" then return some .abort
    if ← skipWord "FAIL" then return some .fail
    if ← skipWord "IGNORE" then return some .ignore
    if ← skipWord "REPLACE" then return some .replace
    unexpected
  return none

/-- The rows of an insertion, at most `fuel` of them. -/
def readRows (fuel : Nat) : Reading (List (List Expr)) := do
  match fuel with
  | 0 => unexpected
  | fuel + 1 =>
    expectSign "("
    let row ← expectExprs
    expectSign ")"
    if ← skipSign "," then return row :: (← readRows fuel)
    return [row]

/-- An insertion after its first word and its way of resolving conflicts. -/
def readInsert (conflict : Option Conflict) : Reading Insert := do
  expectWord "INTO"
  let table ← expectName
  let columns ← if ((← peek?).map (·.isSign "(")).getD false then some <$> expectNameList else pure none
  if ← skipWord "DEFAULT" then
    expectWord "VALUES"
    return { conflict, table, columns }
  expectWord "VALUES"
  return { conflict, table, columns, rows := some (← readRows ((← get).rest.length + 1)) }

/-- The assignments of an update, at most `fuel` of them. -/
def readAssignments (fuel : Nat) : Reading (List (String × Expr)) := do
  match fuel with
  | 0 => unexpected
  | fuel + 1 =>
    let column ← expectName
    expectSign "="
    let e ← expectExpr
    if ← skipSign "," then return (column, e) :: (← readAssignments fuel)
    return [(column, e)]

/-- An update after the word `UPDATE`. -/
def readUpdate : Reading Update := do
  let conflict ← readOr
  let table ← expectName
  expectWord "SET"
  let assignments ← readAssignments ((← get).rest.length + 1)
  return { conflict, table, assignments, condition := ← readWhere }

/-- A deletion after the word `DELETE`. -/
def readDelete : Reading Delete := do
  expectWord "FROM"
  let table ← expectName
  return { table, condition := ← readWhere }

/-! ## Statements -/

/-- A statement, or a table definition. -/
inductive Sentence where
  | run (s : Statement)
  | create (t : TableText)
deriving Repr, Inhabited

/-- The name of a savepoint. -/
def readSavepointName : Reading String := do
  let _ ← skipWord "SAVEPOINT"
  expectName

/-- The end of a statement: a semicolon, or the end of the text. -/
def expectEnd : Reading Unit := do
  if (← get).rest.isEmpty then return ()
  expectSign ";"

/-- A statement up to its end. -/
def readSentence : Reading Sentence := do
  let ended := fun (s : Statement) => do
    expectEnd
    return Sentence.run s
  if ← skipWord "SELECT" then ended (.select (← readSelect))
  else if ← skipWord "INSERT" then ended (.insert (← readInsert (← readOr)))
  else if ← skipWord "REPLACE" then ended (.insert (← readInsert (some .replace)))
  else if ← skipWord "UPDATE" then ended (.update (← readUpdate))
  else if ← skipWord "DELETE" then ended (.delete (← readDelete))
  else if ← skipWords ["CREATE", "TABLE"] then
    let (d, tokens) ← withTokens readTable
    return .create { d with text := "CREATE TABLE " ++ textOf tokens }
  else if ← skipWord "DROP" then
    expectWord "TABLE"
    let ifExists ← skipWord "IF"
    if ifExists then expectWord "EXISTS"
    ended (.dropTable ifExists (← expectName))
  else if ← skipWord "SAVEPOINT" then ended (.savepoint (← expectName))
  else if ← skipWord "RELEASE" then ended (.release (← readSavepointName))
  else if ← skipWord "ROLLBACK" then
    expectWord "TO"
    ended (.rollbackTo (← readSavepointName))
  else unexpected

/-- A statement with the number of its parameters and the tokens after it. -/
structure First where
  sentence : Sentence
  parameters : Nat
  rest : List Lexeme
deriving Repr, Inhabited

/-- The first statement of a list of tokens; empty statements are skipped, and none is left at the end. -/
def readFirst (tokens : List Lexeme) : Except Fault (Option First) :=
  match tokens.dropWhile (·.isSign ";") with
  | [] => .ok none
  | tokens =>
    match readSentence.run { rest := tokens } with
    | .ok (sentence, c) => .ok (some ⟨sentence, c.highest, c.rest⟩)
    | .error f => .error f

end GuardedConfig.Sql
