/-!
# `Sql.Fault` — why a statement fails

Faults of the text, of names and of constraints, with the wording by which the store reports them.

## Contents

* `Fault`, `Fault.message`
-/

namespace GuardedConfig.Sql

/-- Why a statement fails. -/
inductive Fault where
  -- the text
  | syntaxNear (token : String)
  | incomplete
  | unrecognized (token : String)
  | multipleStatements
  | nothing
  | unsupported (what : String)
  -- names
  | noTable (name : String)
  | noColumn (name : String)
  | noTableColumn (table column : String)
  | noFunction (name : String)
  | unknownFunction (name : String)
  | noCollation (name : String)
  | noSavepoint (name : String)
  | ambiguousColumn (name : String)
  | duplicateColumn (name : String)
  | tableExists (name : String)
  | reservedName (name : String)
  -- shapes
  | functionArguments (name : String)
  | aggregateMisuse (name : String)
  | valueCount (table : String) (columns values : Nat)
  | listCount (values columns : Nat)
  | rowLengths
  | parameterCount (got needed : Nat)
  | returnedRows
  | orderPosition (index : Nat) (columns : Nat)
  | noTables
  | forbidden (what wherever : String)
  -- table definitions
  | secondPrimaryKey (table : String)
  | autoincrementType
  | autoincrementWithoutRowid
  | noPrimaryKey (table : String)
  | defaultNotConstant (column : String)
  | expressionInKey
  | conflictingClauses
  | unknownKeyColumn (column : String)
  | keyColumnCount (column table : String)
  | keyColumnsDiffer
  | unknownOption (name : String)
  -- constraints
  | notNull (table column : String)
  | unique (columns : String)
  | check (label : String)
  | foreignKey
  | keyMismatch (child parent : String)
  | datatypeMismatch
  | integerOverflow
  | full
  | tooDeep
  -- files
  | cannotOpen (path : String)
  | notDatabase
deriving DecidableEq, Repr, Inhabited

namespace Fault

/-- The wording of a fault. -/
def message : Fault → String
  | syntaxNear token => "near \"" ++ token ++ "\": syntax error"
  | incomplete => "incomplete input"
  | unrecognized token => "unrecognized token: \"" ++ token ++ "\""
  | multipleStatements => "Multiple statements provided"
  | nothing => "not an error"
  | unsupported what => "unsupported: " ++ what
  | noTable name => "no such table: " ++ name
  | noColumn name => "no such column: " ++ name
  | noTableColumn table column => "table " ++ table ++ " has no column named " ++ column
  | noFunction name => "no such function: " ++ name
  | unknownFunction name => "unknown function: " ++ name ++ "()"
  | noCollation name => "no such collation sequence: " ++ name
  | noSavepoint name => "no such savepoint: " ++ name
  | ambiguousColumn name => "ambiguous column name: " ++ name
  | duplicateColumn name => "duplicate column name: " ++ name
  | tableExists name => "table " ++ name ++ " already exists"
  | reservedName name => "object name reserved for internal use: " ++ name
  | functionArguments name => "wrong number of arguments to function " ++ name ++ "()"
  | aggregateMisuse name => "misuse of aggregate function " ++ name ++ "()"
  | valueCount table columns values =>
    "table " ++ table ++ " has " ++ toString columns ++ " columns but " ++ toString values ++
      " values were supplied"
  | listCount values columns => toString values ++ " values for " ++ toString columns ++ " columns"
  | rowLengths => "all VALUES must have the same number of terms"
  | parameterCount got needed =>
    "Wrong number of parameters passed to query. Got " ++ toString got ++ ", needed " ++ toString needed
  | returnedRows => "Execute returned results - did you mean to call query?"
  | orderPosition index columns =>
    (if index % 100 / 10 = 1 then toString index ++ "th"
      else toString index ++ (match index % 10 with | 1 => "st" | 2 => "nd" | 3 => "rd" | _ => "th")) ++
      " ORDER BY term out of range - should be between 1 and " ++ toString columns
  | noTables => "no tables specified"
  | forbidden what wherever => what ++ " prohibited in " ++ wherever
  | secondPrimaryKey table => "table \"" ++ table ++ "\" has more than one primary key"
  | autoincrementType => "AUTOINCREMENT is only allowed on an INTEGER PRIMARY KEY"
  | autoincrementWithoutRowid => "AUTOINCREMENT not allowed on WITHOUT ROWID tables"
  | noPrimaryKey table => "PRIMARY KEY missing on table " ++ table
  | defaultNotConstant column => "default value of column [" ++ column ++ "] is not constant"
  | expressionInKey => "expressions prohibited in PRIMARY KEY and UNIQUE constraints"
  | conflictingClauses => "conflicting ON CONFLICT clauses specified"
  | unknownKeyColumn column => "unknown column \"" ++ column ++ "\" in foreign key definition"
  | keyColumnCount column table =>
    "foreign key on " ++ column ++ " should reference only one column of table " ++ table
  | keyColumnsDiffer =>
    "number of columns in foreign key does not match the number of columns in the referenced table"
  | unknownOption name => "unknown table option: " ++ name
  | notNull table column => "NOT NULL constraint failed: " ++ table ++ "." ++ column
  | unique columns => "UNIQUE constraint failed: " ++ columns
  | check label => "CHECK constraint failed: " ++ label
  | foreignKey => "FOREIGN KEY constraint failed"
  | keyMismatch child parent => "foreign key mismatch - \"" ++ child ++ "\" referencing \"" ++ parent ++ "\""
  | datatypeMismatch => "datatype mismatch"
  | integerOverflow => "integer overflow"
  | full => "database or disk is full"
  | tooDeep => "too many levels of trigger recursion"
  | cannotOpen path => "unable to open database file: " ++ path
  | notDatabase => "file is not a database"

end Fault

end GuardedConfig.Sql
