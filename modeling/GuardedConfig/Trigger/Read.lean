import GuardedConfig.Declaration
import GuardedConfig.Error
import GuardedConfig.Trigger.Lexeme

/-!
# `Trigger.Read` — from the text of a body to its program

The grammar is decided first: a text that it refuses is no program, whatever its numbers and calls are. The
first fault in a text that the grammar accepts, in reading order, is a number beyond the range or a call with
the wrong number of arguments. While reading, such a fault takes the place of the part that has it.

## Contents

* `Checked` — a part of a program, or its first fault
* `readExpr`, `readOperand`, `readPostfix`, `readArguments`
* `readStmt`, `readBlock`
* `readProgram`, `Trigger.compile`
-/

namespace GuardedConfig

namespace Trigger

open Decimal

/-- A part of a program that the grammar accepts, or the first fault in it. -/
abbrev Checked (α : Type) := Except Fault α

/-- What a step of reading gives: a part and the tokens after it, or nothing if the grammar refuses the text. -/
abbrev Step (α : Type) := Option (Checked α × List Lexeme)

/-- Whether a word is a name. -/
def isName (word : String) : Bool := !keywords.contains word

/-- The value of a number: a whole number of 64 bits if it is one, otherwise a finite double-precision number. -/
def numberValue (text : String) : Checked Json :=
  match readInt? text.toList with
  | some n => .ok (.int n)
  | none =>
    match readReal? text.toList with
    | some x => if x.isFinite then .ok (.real x) else .error (.number text)
    | none => .error (.number text)

/-- A call, if it has a possible number of arguments. -/
def checkedCall (c : Capability) (arguments : List Expr) : Checked Expr :=
  if c.least ≤ arguments.length ∧ arguments.length ≤ c.most then .ok (.call c arguments)
  else .error (.arguments c arguments.length)

/-- The word that a token is as an operand, but for calls. -/
def wordExpr (word : String) : Option Expr :=
  match word with
  | "true" => some (.literal (.bool true))
  | "false" => some (.literal (.bool false))
  | "null" => some (.literal .null)
  | _ => if isName word then some (.var word) else none

/-! ## Expressions -/

mutual

/-- An operand, or two operands with a comparison between them. -/
def readExpr (fuel : Nat) (ts : List Lexeme) : Step Expr :=
  match fuel with
  | 0 => none
  | fuel + 1 =>
    match readOperand fuel ts with
    | some (left, .comparison op :: rest) =>
      match readOperand fuel rest with
      | some (right, rest) => some ((fun a b => .compare a op b) <$> left <*> right, rest)
      | none => none
    | other => other

/-- Any number of negations before a primary expression with its indices and members. -/
def readOperand (fuel : Nat) (ts : List Lexeme) : Step Expr :=
  match fuel with
  | 0 => none
  | fuel + 1 =>
    match ts with
    | .sign .bang :: rest => (readOperand fuel rest).map fun (e, rest) => (.not <$> e, rest)
    | .string s :: rest => readPostfix fuel (.ok (.literal (.str s))) rest
    | .number text :: rest => readPostfix fuel (.literal <$> numberValue text) rest
    | .sign .openParen :: rest =>
      match readExpr fuel rest with
      | some (e, .sign .closeParen :: rest) => readPostfix fuel e rest
      | _ => none
    | .word w :: rest =>
      match Capability.ofName? w, rest with
      | some c, .sign .openParen :: rest =>
        match readArguments fuel rest with
        | some (arguments, rest) => readPostfix fuel (arguments >>= checkedCall c) rest
        | none => none
      | _, _ =>
        match wordExpr w with
        | some e => readPostfix fuel (.ok e) rest
        | none => none
    | _ => none

/-- The indices and members behind an expression. -/
def readPostfix (fuel : Nat) (e : Checked Expr) (ts : List Lexeme) : Step Expr :=
  match fuel with
  | 0 => none
  | fuel + 1 =>
    match ts with
    | .sign .openBracket :: rest =>
      match readExpr fuel rest with
      | some (i, .sign .closeBracket :: rest) => readPostfix fuel (.index <$> e <*> i) rest
      | _ => none
    | .sign .dot :: .word name :: rest =>
      if isName name then readPostfix fuel ((.member · name) <$> e) rest else none
    | .sign .dot :: _ => none
    | _ => some (e, ts)

/-- The arguments of a call after its opening parenthesis. -/
def readArguments (fuel : Nat) (ts : List Lexeme) : Step (List Expr) :=
  match fuel with
  | 0 => none
  | fuel + 1 =>
    match ts with
    | .sign .closeParen :: rest => some (.ok [], rest)
    | _ =>
      match readExpr fuel ts with
      | some (e, rest) =>
        match readMoreArguments fuel rest with
        | some (es, rest) => some (.cons <$> e <*> es, rest)
        | none => none
      | none => none

/-- Further arguments, each after a comma, up to the closing parenthesis. -/
def readMoreArguments (fuel : Nat) (ts : List Lexeme) : Step (List Expr) :=
  match fuel with
  | 0 => none
  | fuel + 1 =>
    match ts with
    | .sign .closeParen :: rest => some (.ok [], rest)
    | .sign .comma :: rest =>
      match readExpr fuel rest with
      | some (e, rest) =>
        match readMoreArguments fuel rest with
        | some (es, rest) => some (.cons <$> e <*> es, rest)
        | none => none
      | none => none
    | _ => none

end

/-! ## Statements -/

mutual

/-- One statement. -/
def readStmt (fuel : Nat) (ts : List Lexeme) : Step Stmt :=
  match fuel with
  | 0 => none
  | fuel + 1 =>
    match ts with
    | .word "let" :: .word name :: .sign .assign :: rest =>
      if isName name then
        match readExpr fuel rest with
        | some (e, .sign .semicolon :: rest) => some (.bind name <$> e, rest)
        | _ => none
      else none
    | .word "if" :: rest => readBranch fuel rest
    | .word "return" :: .sign .semicolon :: rest => some (.ok (.done none), rest)
    | .word "return" :: rest =>
      match readExpr fuel rest with
      | some (e, .sign .semicolon :: rest) => some ((fun e => .done (some e)) <$> e, rest)
      | _ => none
    | _ =>
      match readExpr fuel ts with
      | some (e, .sign .semicolon :: rest) => some (.eval <$> e, rest)
      | _ => none

/-- A branch after the word `if`. -/
def readBranch (fuel : Nat) (ts : List Lexeme) : Step Stmt :=
  match fuel with
  | 0 => none
  | fuel + 1 =>
    match readExpr fuel ts with
    | some (condition, rest) =>
      match readBlock fuel rest with
      | some (yes, .word "else" :: .word "if" :: rest) =>
        match readBranch fuel rest with
        | some (no, rest) => some (.branch <$> condition <*> yes <*> ((fun s => [s]) <$> no), rest)
        | none => none
      | some (yes, .word "else" :: rest) =>
        match readBlock fuel rest with
        | some (no, rest) => some (.branch <$> condition <*> yes <*> no, rest)
        | none => none
      | some (yes, rest) => some ((.branch · · []) <$> condition <*> yes, rest)
      | none => none
    | none => none

/-- Statements between braces. -/
def readBlock (fuel : Nat) (ts : List Lexeme) : Step (List Stmt) :=
  match fuel with
  | 0 => none
  | fuel + 1 =>
    match ts with
    | .sign .openBrace :: rest =>
      match readStmts fuel rest with
      | some (body, .sign .closeBrace :: rest) => some (body, rest)
      | _ => none
    | _ => none

/-- Statements up to a closing brace or the end. -/
def readStmts (fuel : Nat) (ts : List Lexeme) : Step (List Stmt) :=
  match fuel with
  | 0 => none
  | fuel + 1 =>
    match ts with
    | [] | .sign .closeBrace :: _ => some (.ok [], ts)
    | _ =>
      match readStmt fuel ts with
      | some (s, rest) =>
        match readStmts fuel rest with
        | some (more, rest) => some (.cons <$> s <*> more, rest)
        | none => none
      | none => none

end

/-! ## Programs -/

/-- Enough fuel for a list of tokens: between two tokens at most four steps are nested. -/
def fuelFor (ts : List Lexeme) : Nat := 4 * ts.length + 4

/-- The program of a text. -/
def readProgram (text : String) : Except Fault (List Stmt) :=
  match lexemes text with
  | none => .error .grammar
  | some ts =>
    match readStmts (fuelFor ts) ts with
    | some (program, []) => program
    | _ => .error .grammar

/-- The trigger that a declaration describes. -/
def compile (d : TriggerDecl) : Except Error Trigger :=
  match readProgram d.code with
  | .ok program => .ok ⟨d.name, d.condition, program⟩
  | .error fault => .error (.compile (.triggerText d.name fault.message))

end Trigger

end GuardedConfig
