import GuardedConfig.Sql.Syntax
import GuardedConfig.Text.Trim

/-!
# `Sql.Print` — the text of a statement

Table names are quoted, source names are not. Operands that are themselves compound stand in parentheses. A
parameter is a bare question mark, so parameters are numbered by their place in the text.

## Contents

* `literalText`, `Expr.text` — expressions
* `Select.text`, `Insert.text`, `Update.text`, `Delete.text`
-/

namespace GuardedConfig.Sql

open Schema Text

/-- A string literal: a quote inside is written twice. -/
def stringLiteral (s : String) : String :=
  "'" ++ String.ofList (s.toList.flatMap fun c => if c = '\'' then [c, c] else [c]) ++ "'"

/-- Two hexadecimal digits for a byte. -/
def byteText (b : UInt8) : String :=
  let hex := fun (d : Nat) => if d < 10 then Char.ofNat (48 + d) else Char.ofNat (87 + d)
  String.ofList [hex (b.toNat / 16), hex (b.toNat % 16)]

/-- The text of a literal. -/
def literalText : Value → String
  | .null => "NULL"
  | .integer n => intText n
  | .real x => realText x
  | .text s => stringLiteral s
  | .blob bytes => "x'" ++ joinWith "" (bytes.map byteText) ++ "'"

/-- The sign of an operator with one operand. -/
def UnaryOp.text : UnaryOp → String
  | negate => "-"
  | plus => "+"
  | bitNot => "~"
  | not => "NOT "

/-- The sign of an operator with two operands. -/
def BinaryOp.text : BinaryOp → String
  | add => "+" | sub => "-" | mul => "*" | div => "/" | rem => "%" | concat => "||"
  | bitAnd => "&" | bitOr => "|" | shiftLeft => "<<" | shiftRight => ">>"
  | eq => "=" | ne => "<>" | lt => "<" | le => "<=" | gt => ">" | ge => ">=" | is => "IS" | isNot => "IS NOT"
  | and => "AND" | or => "OR"

/-- A column name with its qualifier. -/
def columnText (qualifier : Option String) (name : String) (quoted : Bool) : String :=
  let column := if quoted then quoteName name else name
  match qualifier with
  | some q => q ++ "." ++ column
  | none => column

namespace Expr

/-- Whether an expression is written without operators. -/
def isAtom : Expr → Bool
  | literal _ | parameter _ | column .. | call .. | cast .. | first .. => true
  | _ => false

/-- The text of an operand, in parentheses if it is compound. -/
def operand (atom : Bool) (text : String) : String := if atom then text else "(" ++ text ++ ")"

/-- A branch of a case distinction. -/
def branchText (condition result : String) : String := " WHEN " ++ condition ++ " THEN " ++ result

mutual

/-- The text of an expression. -/
def text : Expr → String
  | literal v => literalText v
  | parameter _ => "?"
  | column q n quoted => columnText q n quoted
  | unary op e => op.text ++ operand e.isAtom (text e)
  | binary op l r => operand l.isAtom (text l) ++ " " ++ op.text ++ " " ++ operand r.isAtom (text r)
  | collate e c => operand e.isAtom (text e) ++ " COLLATE " ++ c
  | cast e type => "CAST(" ++ text e ++ " AS " ++ type ++ ")"
  | call f args star => f ++ "(" ++ (if star then "*" else joinWith ", " (texts args)) ++ ")"
  | between negated e lo hi =>
    operand e.isAtom (text e) ++ (if negated then " NOT BETWEEN " else " BETWEEN ") ++
      operand lo.isAtom (text lo) ++ " AND " ++ operand hi.isAtom (text hi)
  | isNull negated e => operand e.isAtom (text e) ++ (if negated then " IS NOT NULL" else " IS NULL")
  | inList negated e items =>
    operand e.isAtom (text e) ++ (if negated then " NOT IN (" else " IN (") ++ joinWith ", " (texts items) ++ ")"
  | choose conditions results otherwise =>
    "CASE" ++ joinWith "" (List.zipWith branchText (texts conditions) (texts results)) ++ " ELSE " ++
      text otherwise ++ " END"
  | first c table condition =>
    "(SELECT " ++ text c ++ " FROM " ++ quoteName table ++ " WHERE " ++ text condition ++ ")"
  | inSelect negated e c table condition =>
    operand e.isAtom (text e) ++ (if negated then " NOT IN (SELECT " else " IN (SELECT ") ++ text c ++ " FROM " ++
      quoteName table ++ " WHERE " ++ text condition ++ ")"

/-- The texts of a list of expressions. -/
def texts : List Expr → List String
  | [] => []
  | e :: es => text e :: texts es

end

end Expr

/-- The text of a clause that may be missing. -/
def clause (word : String) : Option Expr → String
  | some e => word ++ e.text
  | none => ""

/-- The text of a result column. -/
def ResultColumn.printed : ResultColumn → String
  | star => "*"
  | sourceStar s => s ++ ".*"
  | value e title _ => e.text ++ (match title with | some a => " AS " ++ a | none => "")

/-- The text of a source. -/
def Source.text (s : Source) : String :=
  quoteName s.table ++ (match s.shortName with | some a => " AS " ++ a | none => "") ++ clause " ON " s.on

/-- The text of a query. -/
def Select.text (s : Select) : String :=
  let order := s.order.map fun (e, descending) => e.text ++ if descending then " DESC" else ""
  "SELECT " ++ (if s.distinct then "DISTINCT " else "") ++ joinWith ", " (s.columns.map (·.printed)) ++
    (if s.sources.isEmpty then "" else " FROM " ++ joinWith " JOIN " (s.sources.map (·.text))) ++
    clause " WHERE " s.condition ++
    (if order.isEmpty then "" else " ORDER BY " ++ joinWith ", " order) ++ clause " LIMIT " s.limit

/-- The word of a conflict clause. -/
def Conflict.word : Conflict → String
  | rollback => "ROLLBACK"
  | abort => "ABORT"
  | fail => "FAIL"
  | ignore => "IGNORE"
  | replace => "REPLACE"

/-- The conflict clause after a verb. -/
def orClause : Option Conflict → String
  | some c => " OR " ++ c.word
  | none => ""

/-- The text of an insertion. -/
def Insert.text (i : Insert) : String :=
  let columns := match i.columns with
    | some names => " (" ++ joinWith ", " (names.map quoteName) ++ ")"
    | none => ""
  let rows := match i.rows with
    | some rows => " VALUES " ++
      joinWith ", " (rows.map fun row => "(" ++ joinWith ", " (row.map Expr.text) ++ ")")
    | none => " DEFAULT VALUES"
  "INSERT" ++ orClause i.conflict ++ " INTO " ++ quoteName i.table ++ columns ++ rows

/-- The text of a change. -/
def Update.text (u : Update) : String :=
  "UPDATE" ++ orClause u.conflict ++ " " ++ quoteName u.table ++ " SET " ++
    joinWith ", " (u.assignments.map fun (name, e) => quoteName name ++ " = " ++ e.text) ++
    clause " WHERE " u.condition

/-- The text of a deletion. -/
def Delete.text (d : Delete) : String := "DELETE FROM " ++ quoteName d.table ++ clause " WHERE " d.condition

/-- The text of a statement. -/
def Statement.text : Statement → String
  | select s => s.text
  | insert i => i.text
  | update u => u.text
  | delete d => d.text
  | dropTable ifExists name => "DROP TABLE " ++ (if ifExists then "IF EXISTS " else "") ++ quoteName name
  | savepoint name => "SAVEPOINT " ++ quoteName name
  | release name => "RELEASE " ++ quoteName name
  | rollbackTo name => "ROLLBACK TO " ++ quoteName name

end GuardedConfig.Sql
