import GuardedConfig.Sql.Definition
import GuardedConfig.Sql.Query
import GuardedConfig.Sql.ReadStatement

/-!
# `Sql.Session` — statements one after another

A session has the content, the savepoints that are open with the content at their beginning, the identifier that
was assigned last and the number of rows that the last statement changed. A statement that fails is undone, and
usually nothing else is. References that are checked at the end of a transaction are checked when the outermost
savepoint is released, or at once if none is open; a release that fails changes nothing.

## Contents

* `Session`, `Session.inTransaction`
* `savepoint`, `release`, `rollbackTo`
* `change` — inserting, changing and deleting
* `perform`, `execute`, `query`, `batch`
-/

namespace GuardedConfig.Sql

/-- The state between two statements. -/
structure Session where
  content : Content := {}
  /-- The open savepoints, newest first, each with the content at its beginning. -/
  saved : List (String × Content) := []
  lastRowId : Int := 0
  changes : Nat := 0
deriving Repr, Inhabited

namespace Session

/-- Whether a savepoint is open. -/
def inTransaction (s : Session) : Bool := !s.saved.isEmpty

/-- The content before the outermost savepoint. -/
def committed (s : Session) : Content := (s.saved.getLast?.map (·.2)).getD s.content

/-! ## Savepoints -/

/-- Opens a savepoint. -/
def savepoint (s : Session) (name : String) : Session := { s with saved := (name, s.content) :: s.saved }

/-- The savepoints from the newest one with a name on. -/
def savedFrom (s : Session) (name : String) : List (String × Content) :=
  s.saved.dropWhile fun p => !sameName p.1 name

/-- Closes the newest savepoint with a name and all newer ones, keeping the content. -/
def release (s : Session) (name : String) : Except Fault Unit × Session :=
  match s.savedFrom name with
  | [] => (.error (.noSavepoint name), s)
  | [(_, before)] =>
    if orphans before true < orphans s.content true then (.error .foreignKey, s)
    else (.ok (), { s with saved := [] })
  | _ :: older => (.ok (), { s with saved := older })

/-- Goes back to the beginning of the newest savepoint with a name, which stays open. -/
def rollbackTo (s : Session) (name : String) : Except Fault Unit × Session :=
  match s.savedFrom name with
  | [] => (.error (.noSavepoint name), s)
  | (n, before) :: older => (.ok (), { s with content := before, saved := (n, before) :: older })

/-! ## Changes -/

/-- Checks the references after a statement: those that are checked at once, and without a savepoint all. -/
def checkReferences (s : Session) (p : Progress) : Option Stop :=
  if !p.unsettled then none
  else if orphans s.content false < orphans p.content false then some ⟨.foreignKey, .abort⟩
  else if !s.inTransaction && orphans s.content true < orphans p.content true then some ⟨.foreignKey, .abort⟩
  else none

/-- Ends a statement that ran: it is kept, or it stops. -/
def finish (s : Session) (r : Except Stop Unit) (p : Progress) : Except Fault Unit × Session :=
  let stop := match r with
    | .ok () => s.checkReferences p
    | .error ⟨f, .fail⟩ => (s.checkReferences p).or (some ⟨f, .fail⟩)
    | .error stop => some stop
  let kept := { s with content := p.content, lastRowId := p.lastRowId, changes := p.count }
  match stop with
  | none => (.ok (), kept)
  | some ⟨f, .fail⟩ => (.error f, kept)
  | some ⟨f, .rollback⟩ =>
    (.error f, { content := s.committed, saved := [], lastRowId := p.lastRowId, changes := 0 })
  | some ⟨f, _⟩ => (.error f, { s with lastRowId := p.lastRowId, changes := 0 })

/-- Runs a prepared change. -/
def change (s : Session) (op : Change Unit) : Except Fault Unit × Session :=
  let (r, p) := op.run.run { content := s.content, lastRowId := s.lastRowId }
  s.finish r p

/-! ## Statements -/

/-- A statement that is ready to run: it has rows, or it changes the session. -/
inductive Prepared where
  | rows (r : Result)
  | change (op : Change Unit)
  | drop (op : Change Unit)
  | content (c : Content)
  | savepoint (name : String)
  | release (name : String)
  | rollbackTo (name : String)

/-- Prepares a statement. -/
def prepare (s : Session) (statement : Statement) (params : List Value) : Except Fault Prepared :=
  match statement with
  | .select q => (q.run s.content params).map .rows
  | .insert i => (i.prepare s.content params).map .change
  | .update u => (u.prepare s.content params).map .change
  | .delete d => (d.prepare s.content params).map .change
  | .dropTable ifExists name => (prepareDrop ifExists name s.content).map .drop
  | .savepoint name => .ok (.savepoint name)
  | .release name => .ok (.release name)
  | .rollbackTo name => .ok (.rollbackTo name)

/-- Prepares a statement or a definition. -/
def prepareSentence (s : Session) (sentence : Sentence) (params : List Value) : Except Fault Prepared :=
  match sentence with
  | .run statement => s.prepare statement params
  | .create d => (s.content.define d).map .content

/-- Runs a statement. Only insertions, updates and deletions count the rows that they change. -/
def run (s : Session) : Prepared → Except Fault Result × Session
  | .rows r => (.ok r, s)
  | .change op => done (s.change op)
  | .drop op =>
    let (r, t) := s.change op
    done (r, { t with changes := s.changes })
  | .content c => done (.ok (), { s with content := c })
  | .savepoint name => done (.ok (), s.savepoint name)
  | .release name => done (s.release name)
  | .rollbackTo name => done (s.rollbackTo name)
where
  /-- The end of a statement without rows. -/
  done : Except Fault Unit × Session → Except Fault Result × Session
    | (r, s) => (r.map fun _ => default, s)

/-- Runs a statement with parameters. -/
def perform (s : Session) (statement : Statement) (params : List Value) : Except Fault Result × Session :=
  match s.prepare statement params with
  | .ok p => s.run p
  | .error f => (.error f, s)

/-! ## Texts -/

/-- The only statement of a text, ready to run with parameters. -/
def prepareText (s : Session) (text : String) (params : List Value) : Except Fault Prepared := do
  match ← readFirst (lexemes text) with
  | none => throw .nothing
  | some first =>
    let p ← s.prepareSentence first.sentence params
    if let some _ ← readFirst first.rest then throw .multipleStatements
    if params.length != first.parameters then
      throw (.parameterCount (min params.length (first.parameters + 1)) first.parameters)
    return p

/-- Runs the only statement of a text, which must not have rows, and gives the number of changed rows. -/
def execute (s : Session) (text : String) (params : List Value) : Except Fault Nat × Session :=
  match s.prepareText text params with
  | .error f => (.error f, s)
  | .ok p =>
    match s.run p with
    | (.ok r, s) => (if r.rows.isEmpty then .ok s.changes else .error .returnedRows, s)
    | (.error f, s) => (.error f, s)

/-- The rows of the only statement of a text. -/
def query (s : Session) (text : String) (params : List Value) : Except Fault Result × Session :=
  match s.prepareText text params with
  | .error f => (.error f, s)
  | .ok p => s.run p

/-- Runs all statements of a text, at most `fuel` of them, until one fails. -/
def batchFrom (fuel : Nat) (s : Session) (tokens : List Lexeme) : Except Fault Unit × Session :=
  match fuel with
  | 0 => (.ok (), s)
  | fuel + 1 =>
    match readFirst tokens with
    | .error f => (.error f, s)
    | .ok none => (.ok (), s)
    | .ok (some first) =>
      match s.prepareSentence first.sentence [] with
      | .error f => (.error f, s)
      | .ok p =>
        match s.run p with
        | (.ok _, s) => batchFrom fuel s first.rest
        | (.error f, s) => (.error f, s)

/-- Runs all statements of a text until one fails. -/
def batch (s : Session) (text : String) : Except Fault Unit × Session :=
  let tokens := lexemes text
  batchFrom (tokens.length + 1) s tokens

end Session

end GuardedConfig.Sql
