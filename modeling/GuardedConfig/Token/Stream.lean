import GuardedConfig.Text.Trim
import GuardedConfig.Token.Basic

/-!
# `Token.Stream` — the flat text form of a token list

A token is written as `KIND` or `KIND(text)`, and `[_!]` stands between tokens. The text of a token is all that
is between its first `(` and its last `)`, so it may hold parentheses and line breaks. Blanks around a token
are skipped, and so are empty pieces.

## Contents

* `delimiter` — the text between tokens
* `Token.ofPiece`, `readStream` — reading
* `Token.written`, `writeStream` — writing
-/

namespace GuardedConfig.Token

open Text

/-- The text between two tokens. -/
def delimiter : List Char := ['[', '_', '!', ']']

/-! ## Reading -/

/-- The token that a piece without surrounding blanks denotes. -/
def ofPiece (piece : List Char) : Except Fault Token :=
  match cutAt? ['('] piece with
  | some (before, after) =>
    if piece.getLast? = some ')' then
      match Kind.ofName (trim (String.ofList before)) with
      | .ok kind => make kind (some (String.ofList after.dropLast))
      | .error e => .error e
    else bare piece
  | none => bare piece
where
  /-- A token without a text. -/
  bare (piece : List Char) : Except Fault Token :=
    match Kind.ofName (String.ofList piece) with
    | .ok kind => make kind none
    | .error e => .error e

/-- The tokens of pieces, up to the first fault. -/
def ofPieces : List (List Char) → Except Fault (List Token)
  | [] => .ok []
  | piece :: pieces =>
    match trimWith isBlank piece with
    | [] => ofPieces pieces
    | trimmed =>
      match ofPiece trimmed with
      | .ok token => (ofPieces pieces).map (token :: ·)
      | .error e => .error e

/-- Reads a token stream. -/
def readStream (text : String) : Except Fault (List Token) := ofPieces (splitText delimiter text.toList)

/-! ## Writing -/

/-- The written form of a token. -/
def written (t : Token) : String :=
  match t.payload with
  | some text => t.kind.name ++ "(" ++ text ++ ")"
  | none => t.kind.name

/-- Writes a token stream. -/
def writeStream (tokens : List Token) : String :=
  joinWith (String.ofList delimiter) (tokens.map written)

end GuardedConfig.Token
