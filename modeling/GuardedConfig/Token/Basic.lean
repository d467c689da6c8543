/-!
# `Token.Basic` — the tokens of a configuration source

A source arrives as a list of tokens: tags, punctuation, the words that open statements, and carriers of text.
Four kinds are meaningless without their text, and a token of such a kind always has one.

## Contents

* `Token.Kind`, its `name`, `isTag` and `needsPayload`
* `Token` — a kind and its text
* `Token.Fault` — what can be wrong with a token stream
* `Token.Kind.ofName`, `Token.make` — checked construction
-/

namespace GuardedConfig

namespace Token

/-- The kinds of tokens. -/
inductive Kind where
  | version | minSup | author | description | log | doc | help
  | semi | lparen | rparen | lcbrace | rcbrace
  | struct | config | trigger | slice | list | tricond
  | string | ident | command | argument | pyArg | eof
deriving DecidableEq, Repr, Inhabited

namespace Kind

/-- All kinds, in the order of their declaration. -/
def all : List Kind :=
  [version, minSup, author, description, log, doc, help, semi, lparen, rparen, lcbrace, rcbrace, struct,
   config, trigger, slice, list, tricond, string, ident, command, argument, pyArg, eof]

theorem mem_all (k : Kind) : k ∈ all := by cases k <;> decide

/-- The written name of a kind. -/
def name : Kind → String
  | version => "VERSION"
  | minSup => "MIN_SUP"
  | author => "AUTHOR"
  | description => "DESCRIPTION"
  | log => "LOG"
  | doc => "DOC"
  | help => "HELP"
  | semi => "SEMI"
  | lparen => "LPAREN"
  | rparen => "RPAREN"
  | lcbrace => "LCBRACE"
  | rcbrace => "RCBRACE"
  | struct => "STRUCT"
  | config => "CONFIG"
  | trigger => "TRIGGER"
  | slice => "SLICE"
  | list => "LIST"
  | tricond => "TRICOND"
  | string => "STRING"
  | ident => "IDENT"
  | command => "COMMAND"
  | argument => "ARGUMENT"
  | pyArg => "PYARG"
  | eof => "EOF"

/-- Tags are followed by a text that becomes metadata. -/
def isTag : Kind → Bool
  | version | minSup | author | description | log | doc | help => true
  | _ => false

/-- The kinds that carry a text and are not allowed without one. -/
def needsPayload : Kind → Bool
  | string | ident | command | argument => true
  | _ => false

end Kind

/-- What can be wrong with a token stream: a word that names no kind, a token without its text, a lexer that
did not succeed, or a token file that cannot be read. -/
inductive Fault where
  | unknownKind (word : String)
  | missingPayload (kind : Kind)
  | lexerExited (lexer status : String)
  | unreadable (path reason : String)
deriving DecidableEq, Repr

/-- The wording of a fault. -/
def Fault.message : Fault → String
  | unknownKind word => "unknown token kind '" ++ word ++ "'"
  | missingPayload kind => "token " ++ kind.name ++ " requires a string value"
  | lexerExited lexer status => "lexer '" ++ lexer ++ "' exited with " ++ status
  | unreadable path reason => "cannot read '" ++ path ++ "': " ++ reason

end Token

/-- A token: a kind, and a text where there is one. -/
structure Token where
  kind : Token.Kind
  payload : Option String
  payload_of_needs : kind.needsPayload = true → payload.isSome = true
deriving DecidableEq

namespace Token

/-- The kind with a written name. -/
def Kind.ofName (word : String) : Except Fault Kind :=
  match Kind.all.find? (fun k => k.name == word) with
  | some k => .ok k
  | none => .error (.unknownKind word)

/-- The token of a kind with an optional text. -/
def make (kind : Kind) (payload : Option String) : Except Fault Token :=
  if h : kind.needsPayload = true → payload.isSome = true then .ok ⟨kind, payload, h⟩
  else .error (.missingPayload kind)

/-- The token of a kind with a text. -/
def withText (kind : Kind) (text : String) : Token := ⟨kind, some text, fun _ => rfl⟩

/-- The text of a token, empty if it has none. -/
def text (t : Token) : String := t.payload.getD ""

theorem Kind.ofName_name (k : Kind) : Kind.ofName k.name = .ok k := by cases k <;> rfl

theorem make_kind_payload (t : Token) : make t.kind t.payload = .ok t := by
  rw [make, dif_pos t.payload_of_needs]

end Token

end GuardedConfig
