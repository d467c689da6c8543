import GuardedConfig.Proofs.CalmTexts
import GuardedConfig.Proofs.Commit
import Mathlib.Data.List.Nodup

/-!
# `Proofs.Nesting` — nested transactions as a stack of copies

Whoever begins a transaction holds it until it is ended, and it knows its savepoint by name. The name comes from the
count of open transactions, and as long as transactions are ended from the inside out, the newest one that is held has
the newest savepoint. So a store does what a plain store does that copies its content when a transaction begins, throws
the copy away when it is committed, and goes back to it when it is undone.

One thing interferes. A statement that fails under the conflict rule `ROLLBACK` ends all savepoints at once and goes
back to the outermost one. The transactions are still held and counted, but there is nothing left to commit or to undo.

## Contents

* `Transaction`, `Operation`, `Caller` — a store and the transactions that are held
* `Copies` — the plain store
* `Caller.Mirrors`, `Caller.Mirrors.step`, `Caller.Mirrors.run` — both do the same
* `nesting_copies`, `failure_ends_savepoints`
-/

namespace GuardedConfig

open Sql

/-! ## Transactions that are held -/

/-- A transaction that is held. -/
structure Transaction where
  savepoint : String
deriving DecidableEq, Repr

namespace Transaction

/-- Begins a transaction inside those that are open. -/
def start : Task Store Transaction := do
  Store.begin
  return ⟨Store.savepointName (← get).depth⟩

/-- Ends a transaction with a step on its savepoint. -/
def finish (t : Transaction) (close : String → Task Store Unit) : Task Store Unit := do
  modify fun s => { s with depth := s.depth - 1 }
  close t.savepoint

/-- Ends a transaction and keeps what it did. -/
def commit (t : Transaction) : Task Store Unit := t.finish fun name => Store.onSession (·.release name)

/-- Ends a transaction and undoes what it did. -/
def rollback (t : Transaction) : Task Store Unit := t.finish fun name => do
  Store.onSession (·.rollbackTo name)
  Store.onSession (·.release name)

/-- Lets go of a transaction, which undoes what it did as far as possible. -/
def drop (t : Transaction) : Task Store Unit := tryCatch t.rollback fun _ => pure ()

variable {t : Transaction} {s : Store}

/-- The newest transaction is ended like one that is not held by anyone. -/
theorem finish_eq (h : t.savepoint = Store.savepointName s.depth) (close : String → Task Store Unit) :
    outcome (t.finish close) s = outcome (Store.finish close) s := by
  unfold finish Store.finish
  rw [h, outcome_bind_ok (outcome_get s)]

theorem commit_eq (h : t.savepoint = Store.savepointName s.depth) : outcome t.commit s = outcome Store.commit s :=
  finish_eq h _

theorem rollback_eq (h : t.savepoint = Store.savepointName s.depth) :
    outcome t.rollback s = outcome Store.rollback s :=
  finish_eq h _

theorem drop_eq (h : t.savepoint = Store.savepointName s.depth) :
    (outcome t.drop s).2 = (outcome Store.rollback s).2 := by
  unfold drop
  rw [outcome_tryCatch, rollback_eq h]
  rcases outcome Store.rollback s with ⟨_ | _, _⟩ <;> rfl

end Transaction

/-- What can be done with a store. -/
inductive Operation where
  | begin
  | commit
  | rollback
  | drop
  | perform (statement : Statement) (params : List Value)
  | execute (text : String) (params : List Value)
  | query (text : String) (params : List Value)
  | batch (text : String)

/-- Whether an operation leaves the beginning and the end of transactions to the other operations. -/
def Operation.IsCalm : Operation → Prop
  | perform statement _ => statement.isControl = false
  | execute text _ | query text _ | batch text => ∀ sentence ∈ sentences text, sentence.isControl = false
  | _ => True

instance : DecidablePred Operation.IsCalm
  | .perform statement _ => inferInstanceAs (Decidable (statement.isControl = false))
  | .execute text _ | .query text _ | .batch text =>
    inferInstanceAs (Decidable (∀ sentence ∈ sentences text, sentence.isControl = false))
  | .begin | .commit | .rollback | .drop => .isTrue ⟨⟩

/-- A store and the transactions that are held, newest first. -/
structure Caller where
  store : Store
  held : List Transaction := []

namespace Caller

/-- A store without transactions. -/
def on (content : Content) : Caller := { store := .ofContent content }

/-- Ends the newest transaction that is held. -/
def endNewest (c : Caller) (close : Transaction → Task Store Unit) : Caller :=
  match c.held with
  | [] => c
  | t :: older => ⟨(outcome (close t) c.store).2, older⟩

/-- Does one operation; transactions are ended from the inside out. -/
def step (c : Caller) : Operation → Caller
  | .begin =>
    match outcome Transaction.start c.store with
    | (.ok t, store) => ⟨store, t :: c.held⟩
    | (.error _, store) => { c with store }
  | .commit => c.endNewest Transaction.commit
  | .rollback => c.endNewest Transaction.rollback
  | .drop => c.endNewest Transaction.drop
  | .perform statement params => { c with store := (outcome (Store.perform statement params) c.store).2 }
  | .execute text params => { c with store := (outcome (Store.execute text params) c.store).2 }
  | .query text params => { c with store := (outcome (Store.query text params) c.store).2 }
  | .batch text => { c with store := (outcome (Store.batch text) c.store).2 }

/-- Does operations one after the other. -/
def run (c : Caller) (ops : List Operation) : Caller := ops.foldl step c

/-- `RELEASE` does not fail on the savepoint that an operation commits, if that savepoint is open. -/
def Releases (c : Caller) : Operation → Prop
  | .commit => ∀ t ∈ c.held.head?, c.store.session.savedFrom t.savepoint ≠ [] →
      (c.store.session.release t.savepoint).1.isOk = true
  | _ => True

/-- `RELEASE` does not fail on an open savepoint in any of the operations. -/
def AlwaysReleases : Caller → List Operation → Prop
  | _, [] => True
  | c, op :: ops => c.Releases op ∧ (c.step op).AlwaysReleases ops

instance (c : Caller) : DecidablePred c.Releases
  | .commit => inferInstanceAs (Decidable (∀ t ∈ c.held.head?, c.store.session.savedFrom t.savepoint ≠ [] →
      (c.store.session.release t.savepoint).1.isOk = true))
  | .begin | .rollback | .drop | .perform .. | .execute .. | .query .. | .batch .. => .isTrue ⟨⟩

instance decidableAlwaysReleases : ∀ (ops : List Operation) (c : Caller), Decidable (c.AlwaysReleases ops)
  | [], _ => .isTrue ⟨⟩
  | op :: ops, c =>
    have := decidableAlwaysReleases ops (c.step op)
    inferInstanceAs (Decidable (c.Releases op ∧ (c.step op).AlwaysReleases ops))

end Caller

/-! ## The newest savepoint -/

namespace Store

variable {s t : Store}

/-- Once all savepoints have been ended, committing a transaction changes nothing and fails. -/
theorem commit_outcome_of_ended (h : t.session.saved = []) :
    outcome commit t = (.error (.store (.noSavepoint (savepointName t.depth))), { t with depth := t.depth - 1 }) := by
  have hrelease : t.session.release (savepointName t.depth) = (.error (.noSavepoint (savepointName t.depth)), t.session) := by
    simp [Session.release, Session.savedFrom, h]
  show outcome (onSession (·.release (savepointName t.depth))) { t with depth := t.depth - 1 } = _
  rw [onSession_outcome, hrelease]
  rfl

/-- If the outermost savepoint can be released, what was done inside it is settled. -/
theorem settled_of_release (h : SameStack t s.begun) (hs : s.session.saved = [])
    (hrelease : t.session.savedFrom (savepointName t.depth) ≠ [] →
      (t.session.release (savepointName t.depth)).1.isOk = true) :
    Settled s.session.content t.session.content := by
  obtain ⟨⟨content, saved, lastRowId, changes⟩, depth⟩ := t
  obtain ⟨rfl, rfl⟩ := h
  have hsaved : ({ content, saved := s.begun.session.saved, lastRowId, changes } : Session).savedFrom
      (savepointName (s.depth + 1)) = [(savepointName (s.depth + 1), s.session.content)] := by
    simp [Session.savedFrom, begun, Session.savepoint, hs]
  by_contra hunsettled
  have horphans : orphans s.session.content true < orphans content true := Nat.not_le.1 hunsettled
  have hok := hrelease fun hnil => List.cons_ne_nil _ _ (hsaved.symm.trans hnil)
  change (Session.release _ (savepointName (s.depth + 1))).1.isOk = true at hok
  unfold Session.release at hok
  rw [hsaved] at hok
  dsimp only at hok
  rw [if_pos horphans] at hok
  cases hok

end Store

/-! ## The plain store -/

/-- A store without savepoints: what is being worked on, a copy of the content for each open transaction, newest first,
and how many older transactions are open that have lost their copies. -/
structure Copies where
  working : Session
  copies : List Content := []
  lost : Nat := 0

namespace Copies

/-- A plain store without transactions. -/
def on (content : Content) : Copies := { working := { content } }

/-- How many transactions are open. -/
def depth (r : Copies) : Nat := r.lost + r.copies.length

/-- Ends the newest transaction: its copy is thrown away, or it becomes the content again. -/
def endNewest (r : Copies) (kept : Bool) : Copies :=
  match r.copies with
  | [] => { r with lost := r.lost - 1 }
  | copy :: older => { r with working := if kept then r.working else { r.working with content := copy }, copies := older }

/-- Runs statements. All that matters about the open transactions is whether there is one. Statements that fail in a way
that ends all of them go back to the oldest copy, and no copy is left. -/
def statements {α : Type} (r : Copies) (step : Session → Except Fault α × Session) : Copies :=
  match r.copies.getLast? with
  | none => { r with working := (step r.working).2 }
  | some oldest =>
    let (_, after) := step { r.working with saved := [("", oldest)] }
    if after.inTransaction then { r with working := after.unsaved }
    else { working := { after with content := oldest }, copies := [], lost := r.depth }

/-- Does one operation. -/
def step (r : Copies) : Operation → Copies
  | .begin => { r with copies := r.working.content :: r.copies }
  | .commit => r.endNewest true
  | .rollback | .drop => r.endNewest false
  | .perform statement params => r.statements (·.perform statement params)
  | .execute text params => r.statements (·.execute text params)
  | .query text params => r.statements (·.query text params)
  | .batch text => r.statements (·.batch text)

/-- Does operations one after the other. -/
def run (r : Copies) (ops : List Operation) : Copies := ops.foldl step r

/-- The savepoints that hold the copies, where some older transactions have none. -/
def savepoints (lost : Nat) : List Content → List (String × Content)
  | [] => []
  | copy :: older => (Store.savepointName (lost + older.length + 1), copy) :: savepoints lost older

/-- The transactions that are held when some are open. -/
def held : Nat → List Transaction
  | 0 => []
  | depth + 1 => ⟨Store.savepointName (depth + 1)⟩ :: held depth

/-- The store inside which the newest transaction was begun. -/
def under (r : Copies) (copy : Content) (older : List Content) : Store where
  session := { r.working with content := copy, saved := savepoints r.lost older }
  depth := r.lost + older.length

end Copies

/-- A store does what the plain store does, and each transaction that has a copy has its savepoint. -/
structure Caller.Mirrors (c : Caller) (r : Copies) : Prop where
  working : c.store.session.unsaved = r.working
  saved : c.store.session.saved = Copies.savepoints r.lost r.copies
  depth : c.store.depth = r.depth
  held : c.held = Copies.held r.depth

namespace Caller.Mirrors

variable {c : Caller} {r : Copies}

theorem on (content : Content) : (Caller.on content).Mirrors (Copies.on content) := ⟨rfl, rfl, rfl, rfl⟩

theorem content (h : c.Mirrors r) : c.store.content = r.working.content := by
  rw [← h.working]
  rfl

/-- The savepoint of the newest transaction, if it has a copy, is the newest savepoint. -/
theorem sameStack (h : c.Mirrors r) {copy : Content} {older : List Content} (hcopies : r.copies = copy :: older) :
    Store.SameStack c.store (r.under copy older).begun where
  saved := by
    rw [h.saved, hcopies]
    rfl
  depth := by
    rw [h.depth, Copies.depth, hcopies]
    rfl

/-! ### Transactions -/

theorem begin (h : c.Mirrors r) : (c.step .begin).Mirrors (r.step .begin) := by
  have hcontent := h.content
  refine ⟨h.working, ?_, ?_, ?_⟩
  · show (Store.savepointName (c.store.depth + 1), c.store.content) :: c.store.session.saved = _
    rw [h.depth, h.saved, hcontent]
    rfl
  · show c.store.depth + 1 = r.lost + (r.copies.length + 1)
    rw [h.depth]
    rfl
  · show ⟨Store.savepointName (c.store.depth + 1)⟩ :: c.held = Copies.held (r.lost + (r.copies.length + 1))
    rw [h.depth, h.held]
    rfl

/-- Ending the newest transaction ends what is newest on both sides. -/
theorem endNewest (h : c.Mirrors r) {close : Transaction → Task Store Unit} {kept : Bool}
    (hcopied : ∀ t copy older, t.savepoint = Store.savepointName c.store.depth → r.copies = copy :: older →
      (outcome (close t) c.store).2 =
        { session := { c.store.session with
            content := if kept then c.store.content else copy, saved := Copies.savepoints r.lost older }
          depth := r.lost + older.length })
    (hlost : ∀ t, t.savepoint = Store.savepointName c.store.depth → c.store.session.saved = [] →
      (outcome (close t) c.store).2 = { c.store with depth := c.store.depth - 1 }) :
    (c.endNewest close).Mirrors (r.endNewest kept) := by
  obtain ⟨store, held⟩ := c
  obtain ⟨working, copies, lost⟩ := r
  obtain ⟨rfl, hsaved, hdepth, hheld⟩ := h
  change store.session.saved = Copies.savepoints lost copies at hsaved
  change store.depth = lost + copies.length at hdepth
  change held = Copies.held (lost + copies.length) at hheld
  subst hheld
  show Caller.Mirrors (match Copies.held (lost + copies.length) with | [] => _ | t :: older => _) _
  cases copies with
  | cons copy older =>
    show Caller.Mirrors ⟨(outcome (close ⟨Store.savepointName (lost + older.length + 1)⟩) store).2, _⟩ _
    rw [hcopied _ copy older (by rw [hdepth]; rfl) rfl]
    refine ⟨?_, rfl, rfl, rfl⟩
    cases kept <;> rfl
  | nil =>
    cases lost with
    | zero => exact ⟨rfl, hsaved, hdepth, rfl⟩
    | succ n =>
      show Caller.Mirrors ⟨(outcome (close ⟨Store.savepointName (n + 1)⟩) store).2, _⟩ _
      rw [hlost _ (by rw [hdepth]; rfl) hsaved]
      refine ⟨rfl, hsaved, ?_, rfl⟩
      show store.depth - 1 = n
      rw [hdepth]
      rfl

theorem commit (h : c.Mirrors r) (hreleases : c.Releases .commit) : (c.step .commit).Mirrors (r.step .commit) := by
  refine h.endNewest (fun t copy older ht hcopies => ?_) fun t ht hsaved => ?_
  · have hstack := h.sameStack hcopies
    have hheld : t ∈ c.held.head? := by
      rw [h.held, Copies.depth, hcopies]
      rw [h.depth, Copies.depth, hcopies] at ht
      exact congrArg some (congrArg Transaction.mk ht.symm)
    have hrelease := hreleases t hheld
    rw [ht] at hrelease
    rw [Transaction.commit_eq ht, Store.commit_outcome hstack fun hlast => Store.settled_of_release hstack hlast hrelease]
    rfl
  · rw [Transaction.commit_eq ht, Store.commit_outcome_of_ended hsaved]

theorem rollback (h : c.Mirrors r) {close : Transaction → Task Store Unit}
    (hclose : ∀ t : Transaction, t.savepoint = Store.savepointName c.store.depth →
      (outcome (close t) c.store).2 = (outcome Store.rollback c.store).2) :
    (c.endNewest close).Mirrors (r.endNewest false) := by
  refine h.endNewest (fun t copy older ht hcopies => ?_) fun t ht hsaved => ?_
  · rw [hclose t ht, Store.rollback_outcome (h.sameStack hcopies)]
    rfl
  · rw [hclose t ht, Store.rollback_outcome_of_ended hsaved]

/-! ### Statements -/

theorem saved_eq_nil : ∀ {lost : Nat} {copies : List Content}, Copies.savepoints lost copies = [] ↔ copies = []
  | _, [] => ⟨fun _ => rfl, fun _ => rfl⟩
  | _, _ :: _ => ⟨fun h => (nomatch h), fun h => (nomatch h)⟩

/-- The oldest copy is what the outermost savepoint holds. -/
theorem getLast?_savepoints (lost : Nat) (copies : List Content) :
    ((Copies.savepoints lost copies).getLast?.map (·.2)) = copies.getLast? := by
  induction copies with
  | nil => rfl
  | cons copy older ih =>
    rw [Copies.savepoints]
    cases older with
    | nil => rfl
    | cons next older =>
      rw [List.getLast?_cons_cons, ← ih, Copies.savepoints, List.getLast?_cons_cons]

theorem unsaved_of_idle {s : Session} (h : s.saved = []) : s.unsaved = s := by
  rw [Session.unsaved, ← h]

theorem committed (h : c.Mirrors r) {oldest : Content} (holdest : r.copies.getLast? = some oldest) :
    c.store.session.committed = oldest := by
  unfold Session.committed
  rw [h.saved, getLast?_savepoints, holdest]
  rfl

/-- Statements that are not about savepoints do the same to both. -/
theorem statements (h : c.Mirrors r) {α : Type} {step : Session → Except Fault α × Session} (hcalm : Session.IsCalm step) :
    Caller.Mirrors { c with store := (outcome (Store.onSession step) c.store).2 } (r.statements step) := by
  rw [Store.onSession_outcome]
  obtain ⟨⟨session, depth⟩, held⟩ := c
  obtain ⟨working, copies, lost⟩ := r
  cases hlast : copies.getLast? with
  | none =>
    have hnone : copies = [] := List.getLast?_eq_none_iff.1 hlast
    subst hnone
    have hidle : session.saved = [] := h.saved
    have hworking : session = working := (unsaved_of_idle hidle).symm.trans h.working
    subst hworking
    have hafter := hcalm.idle session hidle
    exact ⟨unsaved_of_idle hafter, hafter, h.depth, h.held⟩
  | some oldest =>
    have hcommitted : session.committed = oldest := h.committed hlast
    have hopen : session.saved ≠ [] := fun hnil => by
      have hnone : copies = [] := saved_eq_nil.1 (h.saved.symm.trans hnil)
      rw [hnone] at hlast
      cases hlast
    have hworking : session.unsaved = working := h.working
    obtain ⟨⟨-, hsaved⟩, hrowId, hchanges⟩ :=
      hcalm.alike session { working with saved := [("", oldest)] } (hworking ▸ rfl) hopen (List.cons_ne_nil _ _)
    unfold Copies.statements
    simp only [hlast]
    obtain ⟨hunsaved, hkept, hcopied⟩ | ⟨-, hended, hcontent, hlost⟩ := hsaved
    · rw [if_pos (Session.inTransaction_of_saved (hcopied ▸ List.cons_ne_nil _ _))]
      exact ⟨hunsaved, hkept.trans h.saved, h.depth, h.held⟩
    · rw [if_neg (by rw [Session.inTransaction, hlost]; exact Bool.false_ne_true)]
      refine ⟨?_, hended, h.depth, h.held⟩
      show Session.mk (step session).2.content [] (step session).2.lastRowId (step session).2.changes = _
      rw [hcontent, hcommitted, hrowId, hchanges, hlost]

theorem step (h : c.Mirrors r) {op : Operation} (hcalm : op.IsCalm) (hreleases : c.Releases op) :
    (c.step op).Mirrors (r.step op) := by
  cases op with
  | begin => exact h.begin
  | commit => exact h.commit hreleases
  | rollback => exact h.rollback fun t ht => congrArg Prod.snd (Transaction.rollback_eq ht)
  | drop => exact h.rollback fun t ht => Transaction.drop_eq ht
  | perform statement params => exact h.statements (Session.perform_calm hcalm params)
  | execute text params => exact h.statements (Session.execute_calm hcalm params)
  | query text params => exact h.statements (Session.query_calm hcalm params)
  | batch text => exact h.statements (Session.batch_calm hcalm)

theorem run (h : c.Mirrors r) {ops : List Operation} (hcalm : ∀ op ∈ ops, op.IsCalm) (hreleases : c.AlwaysReleases ops) :
    (c.run ops).Mirrors (r.run ops) := by
  induction ops generalizing c r with
  | nil => exact h
  | cons op ops ih =>
    obtain ⟨hfirst, hrest⟩ := List.forall_mem_cons.1 hcalm
    exact ih (h.step hfirst hreleases.1) hrest hreleases.2

/-! ### What is open -/

theorem length_held (h : c.Mirrors r) : c.held.length = r.depth := by
  rw [h.held]
  induction r.depth with
  | zero => rfl
  | succ n ih => rw [Copies.held, List.length_cons, ih]

theorem names_savepoints (lost : Nat) (copies : List Content) :
    (Copies.savepoints lost copies).map (·.1) =
      ((List.range copies.length).map fun i => Store.savepointName (lost + i + 1)).reverse := by
  induction copies with
  | nil => rfl
  | cons copy older ih =>
    rw [Copies.savepoints, List.map_cons, ih, List.length_cons, List.range_succ, List.map_append, List.reverse_append]
    rfl

end Caller.Mirrors

/-- The digits of a number tell the number. -/
theorem Store.savepointName_injective : Function.Injective Store.savepointName := by
  intro m n h
  have hdigits : m.repr.toList = n.repr.toList := congrArg String.toList ((String.append_right_inj _).1 h)
  rw [Nat.toList_repr, Nat.toList_repr] at hdigits
  rw [← Nat.ofDigitChars_ten_toDigits (n := m), hdigits, Nat.ofDigitChars_ten_toDigits]

/-- **Transactions nest like copies.** Whatever statements are run between them, and whether these fail or not, a store
has the content of the plain store as long as `RELEASE` works. Its depth is the number of transactions that are held.
The open savepoints belong to the newest of these, and have different names; the older ones have lost theirs to a
statement that failed and ended all savepoints. With no transaction held, nothing is open. -/
theorem nesting_copies (before : Content) {ops : List Operation} (hcalm : ∀ op ∈ ops, op.IsCalm)
    (hreleases : (Caller.on before).AlwaysReleases ops) :
    let c := (Caller.on before).run ops
    let r := (Copies.on before).run ops
    c.store.content = r.working.content ∧
    c.store.depth = c.held.length ∧ c.held.length = r.lost + r.copies.length ∧
    (c.store.inTransaction = true ↔ c.held ≠ []) ∧
    c.store.session.saved.map (·.1) =
      ((List.range r.copies.length).map fun i => Store.savepointName (r.lost + i + 1)).reverse ∧
    (c.store.session.saved.map (·.1)).Nodup ∧
    (c.held = [] → c.store.session.saved = []) := by
  dsimp only
  have h := (Caller.Mirrors.on before).run hcalm hreleases
  generalize (Caller.on before).run ops = c at h
  generalize (Copies.on before).run ops = r at h
  have hdepth : c.store.depth = c.held.length := h.depth.trans h.length_held.symm
  have hnames := h.saved ▸ Caller.Mirrors.names_savepoints r.lost r.copies
  refine ⟨h.content, hdepth, h.length_held, ?_, hnames, ?_, fun hnone => ?_⟩
  · rw [Store.inTransaction, decide_eq_true_iff, hdepth, List.length_pos_iff]
  · rw [hnames, List.nodup_reverse]
    refine List.nodup_range.map fun i j hij => ?_
    have := Store.savepointName_injective hij
    omega
  · have hlength := h.length_held
    rw [hnone, Copies.depth] at hlength
    rw [h.saved, List.eq_nil_of_length_eq_zero (Nat.eq_zero_of_add_eq_zero_left hlength.symm)]
    rfl

/-- A table is committed. In a second transaction, a row is inserted, its removal is undone, and a statement fails. -/
def undoneInside : List Operation :=
  [.begin, .batch "CREATE TABLE t (a NOT NULL)", .commit, .begin, .execute "INSERT INTO t VALUES (1)" [], .begin,
    .execute "DELETE FROM t" [], .drop, .execute "INSERT INTO t VALUES (NULL)" []]

theorem nesting_copies_undoneInside :
    (∀ op ∈ undoneInside, op.IsCalm) ∧ (Caller.on {}).AlwaysReleases undoneInside ∧
      ((Caller.on {}).run undoneInside).store.content.rowsOf "t" = [⟨1, [.integer 1]⟩] ∧
      ((Caller.on {}).run undoneInside).store.session.saved.map (·.1) = ["canfig_1"] ∧
      ((Caller.on {}).run undoneInside).held.length = 1 := by
  have hcalm : ∀ op ∈ undoneInside, op.IsCalm := by decide +kernel
  have hreleases : (Caller.on {}).AlwaysReleases undoneInside := by decide +kernel
  obtain ⟨hcontent, -, hheld, -, hnames, -, -⟩ := nesting_copies {} hcalm hreleases
  have hlength : ((Copies.on {}).run undoneInside).copies.length = 1 ∧ ((Copies.on {}).run undoneInside).lost = 0 := by
    decide +kernel
  refine ⟨hcalm, hreleases, ?_, ?_, ?_⟩
  · rw [hcontent]
    decide +kernel
  · rw [hnames, hlength.1, hlength.2]
    decide +kernel
  · rw [hheld, hlength.1, hlength.2]

/-- A transaction in which a statement fails under the conflict rule `ROLLBACK` of its table. -/
def failingInside : List Operation :=
  [.batch "CREATE TABLE t (a INTEGER NOT NULL ON CONFLICT ROLLBACK)", .begin, .execute "INSERT INTO t VALUES (1)" [],
    .execute "INSERT INTO t VALUES (NULL)" []]

/-- After that statement, the transaction is held and counted, but its savepoint is gone and so is what it did before. -/
theorem failure_ends_savepoints :
    (∀ op ∈ failingInside, op.IsCalm) ∧ (Caller.on {}).AlwaysReleases failingInside ∧
      ((Caller.on {}).run (failingInside.take 3)).store.content.rowsOf "t" = [⟨1, [.integer 1]⟩] ∧
      ((Caller.on {}).run failingInside).store.content.rowsOf "t" = [] ∧
      ((Caller.on {}).run failingInside).held.length = 1 ∧ ((Caller.on {}).run failingInside).store.depth = 1 ∧
      ((Caller.on {}).run failingInside).store.session.saved.length = 0 :=
  ⟨by decide +kernel, ⟨⟨⟩, ⟨⟩, ⟨⟩, ⟨⟩, ⟨⟩⟩, by decide +kernel, by decide +kernel⟩

end GuardedConfig
