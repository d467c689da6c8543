import GuardedConfig.Sql.Fault
import GuardedConfig.Sql.Value

/-!
# `Sql.Lexeme` — the tokens of statement text

Text is cut into names, literals, parameters and signs. Every token keeps the blanks and comments before it, so
a part of a statement can be given back as it was written. Text that is no token ends the list.

## Contents

* `LexemeKind`, `Lexeme`
* `nextLexeme` — the token at the front of a text
* `lexemes` — all tokens of a text
* `keywords`, `Lexeme.word?`, `Lexeme.name?`
-/

namespace GuardedConfig.Sql

open Text Decimal

/-- The kinds of tokens. -/
inductive LexemeKind where
  /-- A bare word: a keyword or a name. -/
  | word
  /-- A name in quotes, without them. -/
  | quotedName (name : String) (doubleQuoted : Bool)
  | string (s : String)
  | number (v : Value)
  | blob (bytes : List UInt8)
  | parameter
  | sign
  | illegal
deriving DecidableEq, Repr, Inhabited

/-- A token with its text and what stands before it. -/
structure Lexeme where
  kind : LexemeKind
  gap : List Char
  text : List Char
deriving DecidableEq, Repr, Inhabited

/-- The text of a token. -/
def Lexeme.written (l : Lexeme) : String := String.ofList l.text

/-! ## Characters -/

/-- A character of a bare name. -/
def isNameChar (c : Char) : Bool :=
  isAsciiLetter c || isAsciiDigit c || c == '_' || c == '$' || 128 ≤ c.toNat

/-- A character that begins a bare name. -/
def isNameStart (c : Char) : Bool := isAsciiLetter c || c == '_' || 128 ≤ c.toNat

/-- A hexadecimal digit in either case. -/
def hexValue? (c : Char) : Option Nat := hexDigit? c.toLower

/-! ## Blanks and comments -/

/-- What is being skipped: blanks, a comment up to the end of its line, or one up to its closing sign. -/
inductive Gap where
  | blank | line | block
deriving DecidableEq, Repr, Inhabited

/-- The text after blanks and comments, where `gap` is what is being skipped. A comment may end with the text. -/
def skipGap (gap : Gap) : List Char → List Char
  | [] => []
  | c :: rest =>
    match gap, c, rest with
    | .line, c, rest => skipGap (if c = '\n' then .blank else .line) rest
    | .block, '*', '/' :: more => skipGap .blank more
    | .block, _, rest => skipGap .block rest
    | .blank, '-', '-' :: more => skipGap .line more
    | .blank, '/', '*' :: d :: more => skipGap .block (d :: more)
    | .blank, c, rest => if isSpace c || c == '\ufeff' then skipGap .blank rest else c :: rest

/-- The text after blanks and comments. -/
def skipBlanks (cs : List Char) : List Char := skipGap .blank cs

/-! ## Tokens -/

/-- The text between quotes, where a quote is written twice, and what follows; none if it is not closed. -/
def takeQuoted (quote : Char) : List Char → Option (List Char × List Char)
  | [] => none
  | c :: rest =>
    if c = quote then
      match rest with
      | d :: more => if d = quote then (takeQuoted quote more).map fun (s, r) => (quote :: s, r) else some ([], rest)
      | [] => some ([], [])
    else (takeQuoted quote rest).map fun (s, r) => (c :: s, r)

/-- The digits of a number, its point and its exponent at the front of a text. -/
def takeNumberText (cs : List Char) : Value × List Char :=
  let (whole, rest) := takeDigits cs
  let (fraction, rest, pointed) := match rest with
    | '.' :: more =>
      let (ds, after) := takeDigits more
      (ds, after, true)
    | _ => ([], rest, false)
  match takeExponent? rest with
  | some (e, after) => (.real (Numeral.toBinary64 ⟨false, whole, fraction, e⟩), after)
  | none =>
    if pointed then (.real (Numeral.toBinary64 ⟨false, whole, fraction, 0⟩), rest)
    else
      let n := natOf whole
      (if (n : Int) ≤ maxInt then .integer n else .real (.ofInt n), rest)

/-- The value of hexadecimal digits as a number of 64 bits with a sign. -/
def hexNumber (ds : List Char) : Value :=
  let n := ds.foldl (fun n c => 16 * n + (hexValue? c).getD 0) 0
  .integer (if n ≤ maxInt then n else n - wordLimit)

/-- The bytes of pairs of hexadecimal digits. -/
def hexBytes : List Char → Option (List UInt8)
  | [] => some []
  | a :: b :: rest => do
    let a ← hexValue? a
    let b ← hexValue? b
    let more ← hexBytes rest
    some (UInt8.ofNat (16 * a + b) :: more)
  | [_] => none

/-- The signs with two characters. -/
def doubleSigns : List (List Char) :=
  [['=', '='], ['<', '='], ['<', '>'], ['<', '<'], ['>', '='], ['>', '>'], ['!', '='], ['|', '|'], ['-', '>']]

/-- The signs with one character. -/
def singleSigns : List Char :=
  ['=', '<', '>', '|', ',', '&', '~', '+', '-', '*', '/', '%', '(', ')', ';', '.']

/-- The kind of the token at the front of a text that begins with none of the blanks, and what follows it. -/
def nextLexeme (cs : List Char) : LexemeKind × List Char :=
  match cs with
  | [] => (.illegal, [])
  | c :: rest =>
    if c = '\'' then
      match takeQuoted '\'' rest with
      | some (s, after) => (.string (String.ofList s), after)
      | none => (.illegal, [])
    else if c = '"' ∨ c = Char.ofNat 96 then
      match takeQuoted c rest with
      | some (s, after) => (.quotedName (String.ofList s) (c = '"'), after)
      | none => (.illegal, [])
    else if c = '[' then
      match cutAt? [']'] rest with
      | some (s, after) => (.quotedName (String.ofList s) false, after)
      | none => (.illegal, [])
    else if isAsciiDigit c || (c == '.' && (rest.head?.map isAsciiDigit).getD false) then
      let hex := rest.head? == some 'x' || rest.head? == some 'X'
      let (v, after) :=
        if c == '0' && hex && ((rest.drop 1).head?.bind hexValue?).isSome then
          let ds := (rest.drop 1).takeWhile fun d => (hexValue? d).isSome
          (hexNumber ds, (rest.drop 1).dropWhile fun d => (hexValue? d).isSome)
        else takeNumberText cs
      if (after.head?.map isNameChar).getD false then (.illegal, after.dropWhile isNameChar)
      else (.number v, after)
    else if c = '?' then (.parameter, rest.dropWhile isAsciiDigit)
    else if c = ':' ∨ c = '@' ∨ c = '$' ∨ c = '#' then
      if (rest.head?.map isNameChar).getD false then (.parameter, rest.dropWhile isNameChar) else (.illegal, rest)
    else if (c = 'x' ∨ c = 'X') ∧ rest.head? = some '\'' then
      let body := rest.drop 1
      let ds := body.takeWhile fun d => (hexValue? d).isSome
      match body.dropWhile (fun d => (hexValue? d).isSome), hexBytes ds with
      | '\'' :: after, some bytes => (.blob bytes, after)
      | after, _ => (.illegal, (after.dropWhile (· != '\'')).drop 1)
    else if isNameStart c then (.word, rest.dropWhile isNameChar)
    else
      match rest with
      | d :: more =>
        if doubleSigns.contains [c, d] then (.sign, more)
        else if singleSigns.contains c then (.sign, rest)
        else (.illegal, rest)
      | [] => if singleSigns.contains c then (.sign, rest) else (.illegal, rest)

/-- The tokens of a text, at most `fuel` of them; the length of the text is enough. Text that is no token ends
the list. -/
def lexemesFrom (fuel : Nat) (cs : List Char) : List Lexeme :=
  match fuel with
  | 0 => []
  | fuel + 1 =>
    let start := skipBlanks cs
    let gap := cs.take (cs.length - start.length)
    match start with
    | [] => []
    | _ :: _ =>
      let (kind, rest) := nextLexeme start
      let lexeme : Lexeme := ⟨kind, gap, start.take (start.length - rest.length)⟩
      if kind = .illegal then [lexeme] else lexeme :: lexemesFrom fuel rest

/-- The tokens of a text; a NUL ends the text. -/
def lexemes (text : String) : List Lexeme :=
  let cs := text.toList.takeWhile (·.toNat != 0)
  lexemesFrom (cs.length + 1) cs

/-! ## Words -/

/-- Words that can never be names. -/
def reservedWords : List String :=
  ["ADD", "ALL", "ALTER", "AND", "AS", "AUTOINCREMENT", "BETWEEN", "CASE", "CHECK", "COLLATE", "COMMIT",
   "CONSTRAINT", "CREATE", "DEFAULT", "DEFERRABLE", "DELETE", "DISTINCT", "DROP", "ELSE", "ESCAPE", "EXCEPT",
   "EXISTS", "FOREIGN", "FROM", "GROUP", "HAVING", "IN", "INDEX", "INSERT", "INTERSECT", "INTO", "IS", "ISNULL",
   "JOIN", "LIMIT", "NOT", "NOTHING", "NOTNULL", "NULL", "ON", "OR", "ORDER", "PRIMARY", "REFERENCES",
   "RETURNING", "SELECT", "SET", "TABLE", "THEN", "TO", "TRANSACTION", "UNION", "UNIQUE", "UPDATE", "USING",
   "VALUES", "WHEN", "WHERE"]

/-- Words that are names except where a type or a title is expected. -/
def joinWords : List String :=
  ["CROSS", "FULL", "INDEXED", "INNER", "LEFT", "NATURAL", "OUTER", "RIGHT"]

namespace Lexeme

/-- The upper case of a bare word. -/
def word? (l : Lexeme) : Option String :=
  match l.kind with
  | .word => some (String.ofList (l.text.map Char.toUpper))
  | _ => none

/-- The name that a token can be where any name may stand. -/
def name? (l : Lexeme) : Option String :=
  match l.kind with
  | .quotedName name _ => some name
  | .string s => some s
  | .word => if reservedWords.contains ((l.word?).getD "") then none else some l.written
  | _ => none

/-- The name that a token can be where no joining word may stand. -/
def plainName? (l : Lexeme) : Option String :=
  if joinWords.contains ((l.word?).getD "") then none else l.name?

/-- Whether a token is this sign. -/
def isSign (l : Lexeme) (s : String) : Bool := l.kind == .sign && l.written == s

/-- Whether a token is this keyword. -/
def isWord (l : Lexeme) (w : String) : Bool := l.word? == some w

end Lexeme

end GuardedConfig.Sql
