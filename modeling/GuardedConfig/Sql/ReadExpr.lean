import GuardedConfig.Sql.Cursor
import GuardedConfig.Sql.Syntax

/-!
# `Sql.ReadExpr` — reading expressions

Operators bind in levels, from `OR` at level one to signs at level twelve, and associate to the left. The
comparisons with words (`LIKE`, `IN`, `BETWEEN`, `IS NULL` and their negations) share the level of equality.

## Contents

* `Level` constants of the operators, `binaryOp?`
* `readExpr`, `readOperand`, `readOperators`
* `expectExpr` — an expression at the cursor
* `readTypeName` — the type of a column or a cast
-/

namespace GuardedConfig.Sql

open Decimal

/-! ## Levels -/

/-- The levels of the operators that are named elsewhere. -/
def equalityLevel : Nat := 4
@[inherit_doc equalityLevel] def relationLevel : Nat := 5
@[inherit_doc equalityLevel] def notLevel : Nat := 3
@[inherit_doc equalityLevel] def collateLevel : Nat := 11
@[inherit_doc equalityLevel] def signLevel : Nat := 12

/-- The operator that a token is between two operands, with its level. -/
def binaryOp? (l : Lexeme) : Option (BinaryOp × Nat) :=
  match l.kind with
  | .sign =>
    match l.written with
    | "=" | "==" => some (.eq, 4)
    | "<>" | "!=" => some (.ne, 4)
    | "<" => some (.lt, 5)
    | "<=" => some (.le, 5)
    | ">" => some (.gt, 5)
    | ">=" => some (.ge, 5)
    | "&" => some (.bitAnd, 7)
    | "|" => some (.bitOr, 7)
    | "<<" => some (.shiftLeft, 7)
    | ">>" => some (.shiftRight, 7)
    | "+" => some (.add, 8)
    | "-" => some (.sub, 8)
    | "*" => some (.mul, 9)
    | "/" => some (.div, 9)
    | "%" => some (.rem, 9)
    | "||" => some (.concat, 10)
    | _ => none
  | .word => if l.isWord "OR" then some (.or, 1) else if l.isWord "AND" then some (.and, 2) else none
  | _ => none

/-- The operator that is the negation of a call or a comparison. -/
def negateIf (negated : Bool) (e : Expr) : Expr := if negated then .unary .not e else e

/-- A number with the sign before it. The smallest whole number has no positive counterpart. -/
def negateExpr (l : Option Lexeme) (e : Expr) : Expr :=
  match l.map (·.written), e with
  | some "9223372036854775808", .literal (.real _) => .literal (.integer minInt)
  | _, .literal (.real x) => .literal (.real x.neg)
  | _, e => .unary .negate e

/-- Whether a token is a word for the present moment. The store has no clock: the word stands for itself. -/
def isMoment (l : Lexeme) : Bool := ["CURRENT_DATE", "CURRENT_TIME", "CURRENT_TIMESTAMP"].any l.isWord

/-! ## Types -/

/-- Whether a token may be part of a type name. -/
def isTypePart (l : Lexeme) : Bool :=
  match l.kind with
  | .word => (l.plainName?).isSome && !l.isWord "GENERATED"
  | .quotedName .. | .string _ => true
  | _ => false

/-- The words of a type, at most `fuel` of them. -/
def readTypeWords (fuel : Nat) : Reading Unit := do
  match fuel with
  | 0 => return ()
  | fuel + 1 =>
    if ((← peek?).map isTypePart).getD false then
      advance
      readTypeWords fuel

/-- A number with an optional sign. -/
def readSignedNumber : Reading Unit := do
  if !(← skipSign "-") then
    let _ ← skipSign "+"
  let some l ← peek? | unexpected
  match l.kind with
  | .number _ => advance
  | _ => unexpected

/-- A type: words, and one or two numbers in parentheses. It may be absent. -/
def readTypeName : Reading String := do
  let (_, tokens) ← withTokens do
    let before := (← get).rest.length
    readTypeWords before
    if (← get).rest.length < before then
      if ← skipSign "(" then
        readSignedNumber
        if ← skipSign "," then readSignedNumber
        expectSign ")"
  return textOf tokens

/-! ## Expressions -/

mutual

/-- An expression whose operators all have at least this level. -/
def readExpr (fuel level : Nat) : Reading Expr := do
  match fuel with
  | 0 => unexpected
  | fuel + 1 =>
    let e ← readOperand fuel
    readOperators fuel level e

/-- An expression without operators between operands. -/
def readOperand (fuel : Nat) : Reading Expr := do
  match fuel with
  | 0 => unexpected
  | fuel + 1 =>
    let some l ← peek? | unexpected
    match l.kind with
    | .number v =>
      advance
      return .literal v
    | .string s =>
      advance
      return .literal (.text s)
    | .blob bytes =>
      advance
      return .literal (.blob bytes)
    | .parameter =>
      advance
      return .parameter (← numberParameter l)
    | .quotedName name double =>
      advance
      readQualified name double
    | .sign =>
      match l.written with
      | "-" =>
        advance
        let number ← peek?
        return negateExpr number (← readExpr fuel signLevel)
      | "+" =>
        advance
        return .unary .plus (← readExpr fuel signLevel)
      | "~" =>
        advance
        return .unary .bitNot (← readExpr fuel signLevel)
      | "(" =>
        advance
        if ← skipWord "SELECT" then
          let (column, table, condition) ← readSubquery fuel
          expectSign ")"
          return .first column table condition
        let e ← readExpr fuel 1
        expectSign ")"
        return e
      | _ => unexpected
    | .word =>
      if l.isWord "NOT" then
        advance
        return .unary .not (← readExpr fuel equalityLevel)
      else if l.isWord "NULL" then
        advance
        return .literal .null
      else if isMoment l then
        advance
        return .literal (.text l.written)
      else if l.isWord "CASE" then
        advance
        readCase fuel
      else if l.isWord "EXISTS" then
        advance
        expectSign "("
        expectWord "SELECT"
        let (_, table, condition) ← readSubquery fuel
        expectSign ")"
        return .isNull true (.first (.int 1) table condition)
      else
        match l.name? with
        | none => unexpected
        | some name =>
          advance
          if ← skipSign "(" then
            if l.isWord "CAST" then
              let e ← readExpr fuel 1
              expectWord "AS"
              let type ← readTypeName
              expectSign ")"
              return .cast e type
            else if ← skipSign "*" then
              expectSign ")"
              return .call name [] true
            else if ← skipSign ")" then return .call name [] false
            else
              let arguments ← readExprs fuel
              expectSign ")"
              return .call name arguments false
          else readQualified name false
    | .illegal => unexpected

/-- A column name, after its first part. -/
def readQualified (name : String) (quoted : Bool) : Reading Expr := do
  if ← skipSign "." then
    let some l ← peek? | unexpected
    let column ← expectName
    let quoted := match l.kind with
      | .quotedName _ double => double
      | _ => false
    return .column (some name) column quoted
  return .column none name quoted

/-- A case distinction after the word `CASE`; with a base, each condition is an equality. -/
def readCase (fuel : Nat) : Reading Expr := do
  match fuel with
  | 0 => unexpected
  | fuel + 1 =>
    let base ← if ((← peek?).map (·.isWord "WHEN")).getD false then pure none else some <$> readExpr fuel 1
    let (conditions, results) ← readCases fuel base
    let otherwise ← if ← skipWord "ELSE" then readExpr fuel 1 else pure (.literal .null)
    expectWord "END"
    return .choose conditions results otherwise

/-- The conditions and results of a case distinction; there is at least one. -/
def readCases (fuel : Nat) (base : Option Expr) : Reading (List Expr × List Expr) := do
  match fuel with
  | 0 => unexpected
  | fuel + 1 =>
    expectWord "WHEN"
    let c ← readExpr fuel 1
    expectWord "THEN"
    let r ← readExpr fuel 1
    let c := match base with
      | some b => .equals b c
      | none => c
    if ((← peek?).map (·.isWord "WHEN")).getD false then
      let (cs, rs) ← readCases fuel base
      return (c :: cs, r :: rs)
    return ([c], [r])

/-- Expressions with commas between them. -/
def readExprs (fuel : Nat) : Reading (List Expr) := do
  match fuel with
  | 0 => unexpected
  | fuel + 1 =>
    let e ← readExpr fuel 1
    if ← skipSign "," then return e :: (← readExprs fuel)
    return [e]

/-- A subquery after the word `SELECT`: one column of one table. -/
def readSubquery (fuel : Nat) : Reading (Expr × String × Expr) := do
  match fuel with
  | 0 => unexpected
  | fuel + 1 =>
    let column ← readExpr fuel 1
    expectWord "FROM"
    let table ← expectName
    let condition ← if ← skipWord "WHERE" then readExpr fuel 1 else pure (.int 1)
    return (column, table, condition)

/-- The operators behind an operand, as long as they have at least this level. -/
def readOperators (fuel level : Nat) (left : Expr) : Reading Expr := do
  match fuel with
  | 0 => unexpected
  | fuel + 1 =>
    let some l ← peek? | return left
    match binaryOp? l with
    | some (op, opLevel) =>
      if opLevel < level then return left
      advance
      let right ← readExpr fuel (opLevel + 1)
      readOperators fuel level (.binary op left right)
    | none =>
      if l.isWord "COLLATE" then
        if collateLevel < level then return left
        advance
        let name ← expectPlainName
        readOperators fuel level (.collate left name)
      else if equalityLevel < level then return left
      else if l.isWord "IS" then
        advance
        let negated ← skipWord "NOT"
        let distinct ← skipWords ["DISTINCT", "FROM"]
        let right ← readExpr fuel relationLevel
        readOperators fuel level (.binary (if negated == distinct then .is else .isNot) left right)
      else if l.isWord "ISNULL" then
        advance
        readOperators fuel level (.isNull false left)
      else if l.isWord "NOTNULL" then
        advance
        readOperators fuel level (.isNull true left)
      else
        let negated := l.isWord "NOT"
        let rest := (← get).rest
        let follower := if negated then (rest.drop 1).head? else some l
        let isOne := fun (ws : List String) => follower.any fun l => ws.any l.isWord
        if negated && isOne ["NULL"] then
          advance
          advance
          readOperators fuel level (.isNull true left)
        else if isOne ["BETWEEN", "IN", "LIKE", "GLOB", "REGEXP", "MATCH"] then
          if negated then advance
          let e ← readComparison fuel negated left
          readOperators fuel level e
        else if negated then
          advance
          unexpected
        else return left

/-- A comparison with a word, from that word on. A word that compares with a pattern calls the function of its
name. -/
def readComparison (fuel : Nat) (negated : Bool) (left : Expr) : Reading Expr := do
  match fuel with
  | 0 => unexpected
  | fuel + 1 =>
    if ← skipWord "BETWEEN" then
      let low ← readExpr fuel equalityLevel
      expectWord "AND"
      let high ← readExpr fuel relationLevel
      return .between negated left low high
    else if ← skipWord "IN" then
      expectSign "("
      if ← skipWord "SELECT" then
        let (column, table, condition) ← readSubquery fuel
        expectSign ")"
        return .inSelect negated left column table condition
      else if ← skipSign ")" then return .inList negated left []
      else
        let items ← readExprs fuel
        expectSign ")"
        return .inList negated left items
    else
      let some l ← peek? | unexpected
      advance
      let pattern ← readExpr fuel relationLevel
      let escape ← if ← skipWord "ESCAPE" then List.singleton <$> readExpr fuel relationLevel else pure []
      return negateIf negated (.call l.written ([pattern, left] ++ escape) false)

end

/-- An expression at the cursor. -/
def expectExpr : Reading Expr := do readExpr (4 * (← get).rest.length + 4) 1

/-- Expressions with commas between them. -/
def expectExprs : Reading (List Expr) := do readExprs (4 * (← get).rest.length + 4)

end GuardedConfig.Sql
