import GuardedConfig.Field.Type

/-!
# `Field.Body` — the bodies of structs and configs

A body is a list of entries with commas, semicolons or line breaks between them; inside parentheses and quotes
these do not separate. An entry that begins with a constraint word is a table constraint, any other is a field:
its name and its type. Blanks inside an entry are collapsed.

## Contents

* `splitEntries` — the entries of a body
* `isConstraintWord`, `isFieldName`
* `Body`, `parseBody`
-/

namespace GuardedConfig.Field

open Text Schema

/-! ## Entries -/

/-- Cuts a body at separators that stand outside quotes and parentheses. `current` holds the entry read so far,
last character first, `depth` the open parentheses, and `quote` the quote that is open. -/
def cutEntries (current : List Char) (depth : Nat) (quote : Option Char) : List Char → List (List Char)
  | [] => [current.reverse]
  | c :: cs =>
    match quote with
    | some q => cutEntries (c :: current) depth (if c = q then none else some q) cs
    | none =>
      if c = '\'' ∨ c = '"' then cutEntries (c :: current) depth (some c) cs
      else if c = '(' then cutEntries (c :: current) (depth + 1) none cs
      else if c = ')' then cutEntries (c :: current) (depth - 1) none cs
      else if depth = 0 ∧ (c = ',' ∨ c = '\n' ∨ c = ';') then current.reverse :: cutEntries [] 0 none cs
      else cutEntries (c :: current) depth none cs

/-- The entries of a body, blanks collapsed, without the empty ones. -/
def splitEntries (body : String) : List String :=
  ((cutEntries [] 0 none body.toList).map fun e => collapseBlanks (String.ofList e)).filter (!·.isEmpty)

/-! ## Names -/

/-- Words that begin a table constraint. -/
def constraintWords : List String := ["CONSTRAINT", "UNIQUE", "CHECK", "PRIMARY", "FOREIGN"]

/-- Whether a word begins a table constraint, in any case. -/
def isConstraintWord (word : String) : Bool :=
  constraintWords.any fun w => equalsIgnoringAsciiCase w word

/-- A field name: an ASCII letter or underscore, then characters of a word. -/
def isFieldName (name : String) : Bool :=
  match name.toList with
  | [] => false
  | c :: cs => (isAsciiLetter c || c == '_') && cs.all isWord

/-! ## Bodies -/

/-- The fields and the table constraints of a body, each in order. -/
structure Body where
  fields : List FieldDef := []
  constraints : List String := []
deriving DecidableEq, Repr, Inhabited

/-- The name at the front of an entry and the text after it. -/
def cutName (entry : String) : String × String :=
  let stop := fun c => isBlank c || c == '('
  let cs := entry.toList
  (String.ofList (cs.takeWhile (!stop ·)), trim (String.ofList (cs.dropWhile (!stop ·))))

/-- Adds one entry to a body. -/
def addEntry (owner : String) (body : Body) (entry : String) : Except Fault Body :=
  let (name, type) := cutName entry
  if isConstraintWord name then .ok { body with constraints := body.constraints ++ [entry] }
  else if !isFieldName name then .error (.notAFieldName name owner)
  else if type.isEmpty then .error (.noType name owner)
  else if name == primaryKey owner then .error (.reservedField name owner)
  else if body.fields.any (·.name == name) then .error (.duplicateField name owner)
  else .ok { body with fields := body.fields ++ [⟨name, type⟩] }

/-- Reads the body that is declared for `owner`, up to the first fault. -/
def parseBody (owner body : String) : Except Fault Body :=
  (splitEntries body).foldlM (addEntry owner) {}

end GuardedConfig.Field
