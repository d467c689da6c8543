import GuardedConfig.Proofs.Content
import GuardedConfig.Proofs.Outcome
import GuardedConfig.Proofs.Steps
import GuardedConfig.Store

/-!
# `Proofs.Savepoint` — savepoints as a stack of snapshots

Opening a savepoint puts the content on a stack. Going back to the newest one and closing it restores content and
stack; closing it keeps the content. Statements other than those on savepoints look at the stack only to see
whether it is empty, and leave it as it is, unless one of them fails in a way that ends all savepoints: then the
content is that before the outermost one.

## Contents

* `Session.unsaved`
* `Session.StayAlike`, `Session.GoAlike`, `Session.IsCalm` — steps on two sessions that differ in their savepoints
* `Session.IsCalm.of_prepared`, `Session.perform_calm` — statements
* `Store.begun`, and the outcomes of `Store.begin`, `Store.commit` and `Store.rollback`
* `Store.Mirrors`, `Store.MirrorsAfterFault` — a store and a copy of it without transactions
* `perform_corresponds` — statements on a store and on its copy
-/

namespace GuardedConfig

namespace Sql

namespace Session

/-- A session without its savepoints. -/
def unsaved (s : Session) : Session := { s with saved := [] }

theorem content_eq_of_unsaved {s t : Session} (h : s.unsaved = t.unsaved) : s.content = t.content :=
  (congrArg Session.content h :)

theorem lastRowId_eq_of_unsaved {s t : Session} (h : s.unsaved = t.unsaved) : s.lastRowId = t.lastRowId :=
  (congrArg Session.lastRowId h :)

theorem changes_eq_of_unsaved {s t : Session} (h : s.unsaved = t.unsaved) : s.changes = t.changes :=
  (congrArg Session.changes h :)

/-- The content before the outermost savepoint does not change when a savepoint is opened. -/
@[simp] theorem committed_savepoint (s : Session) (name : String) : (s.savepoint name).committed = s.committed := by
  unfold committed savepoint
  cases s.saved with
  | nil => rfl
  | cons p older => simp [List.getLast?_cons_cons]

/-- With an open savepoint, what is committed is in the stack. -/
theorem committed_of_saved {s t : Session} (h : s.saved = t.saved) (hs : s.saved ≠ []) :
    s.committed = t.committed := by
  unfold committed
  rw [← h]
  cases hl : s.saved.getLast? with
  | none => exact absurd (List.getLast?_eq_none_iff.1 hl) hs
  | some p => rfl

/-! ## Statements -/

/-- How two sessions that differ in their savepoints alone end a statement: both keep their savepoints and differ
in nothing else, or the statement failed and ended the savepoints of both. -/
def StayAlike (s t : Session) {α : Type} : Except Fault α × Session → Except Fault α × Session → Prop
  | (a, s'), (b, t') =>
    a = b ∧ (s'.unsaved = t'.unsaved ∧ s'.saved = s.saved ∧ t'.saved = t.saved ∨
      (∃ f, a = .error f) ∧ s'.saved = [] ∧ s'.content = s.committed ∧ t'.saved = [])

theorem StayAlike.of_unchanged {s t : Session} (h : s.unsaved = t.unsaved) {α : Type} (a : Except Fault α) :
    StayAlike s t (a, s) (a, t) := ⟨rfl, .inl ⟨h, rfl, rfl⟩⟩

theorem StayAlike.map {s t : Session} {α β : Type} {p q : Except Fault α × Session} (f : α → β)
    (h : StayAlike s t p q) : StayAlike s t (p.1.map f, p.2) (q.1.map f, q.2) := by
  obtain ⟨h, h'⟩ := h
  refine ⟨by rw [h], h'.imp id ?_⟩
  rintro ⟨⟨e, he⟩, h'⟩
  exact ⟨⟨e, by rw [he]; rfl⟩, h'⟩

theorem inTransaction_of_saved {s : Session} (h : s.saved ≠ []) : s.inTransaction = true := by
  unfold inTransaction
  cases hs : s.saved with
  | nil => exact absurd hs h
  | cons p older => rfl

/-- The references are checked alike in two transactions. -/
theorem checkReferences_alike {s t : Session} (h : s.unsaved = t.unsaved) (hs : s.saved ≠ []) (ht : t.saved ≠ [])
    (p : Progress) : s.checkReferences p = t.checkReferences p := by
  unfold checkReferences
  rw [content_eq_of_unsaved h, inTransaction_of_saved hs, inTransaction_of_saved ht]

theorem finish_alike {s t : Session} (h : s.unsaved = t.unsaved) (hs : s.saved ≠ []) (ht : t.saved ≠ [])
    (r : Except Stop Unit) (p : Progress) : StayAlike s t (s.finish r p) (t.finish r p) := by
  have hc : s.content = t.content := content_eq_of_unsaved h
  have hk : ({ s with lastRowId := p.lastRowId, changes := 0 } : Session).unsaved =
      ({ t with lastRowId := p.lastRowId, changes := 0 } : Session).unsaved := by
    unfold unsaved
    rw [hc]
  unfold finish
  rw [checkReferences_alike h hs ht]
  dsimp only
  split
  · exact ⟨rfl, .inl ⟨rfl, rfl, rfl⟩⟩
  · exact ⟨rfl, .inl ⟨rfl, rfl, rfl⟩⟩
  · exact ⟨rfl, .inr ⟨⟨_, rfl⟩, rfl, rfl, rfl⟩⟩
  · exact ⟨rfl, .inl ⟨hk, rfl, rfl⟩⟩

/-! ## Steps that do not depend on the savepoints -/

variable {α β : Type} {s t : Session}

/-- How two sessions end a statement that stay alike, whatever becomes of their savepoints. -/
structure GoAlike (s t : Session) (p q : Except Fault α × Session) : Prop where
  stay : StayAlike s t p q
  lastRowId : p.2.lastRowId = q.2.lastRowId
  changes : p.2.changes = q.2.changes

theorem GoAlike.of_unchanged (h : s.unsaved = t.unsaved) (r : Except Fault α) : GoAlike s t (r, s) (r, t) :=
  ⟨.of_unchanged h r, lastRowId_eq_of_unsaved h, changes_eq_of_unsaved h⟩

/-- A step that does not depend on the savepoints, and leaves them as they are unless it fails in a way that ends all
of them. -/
structure IsCalm (step : Session → Except Fault α × Session) : Prop where
  alike : ∀ s t : Session, s.unsaved = t.unsaved → s.saved ≠ [] → t.saved ≠ [] → GoAlike s t (step s) (step t)
  idle : ∀ s : Session, s.saved = [] → (step s).2.saved = []

/-- Whether a prepared statement opens or closes savepoints. -/
def Prepared.isControl : Prepared → Bool
  | savepoint _ | release _ | rollbackTo _ => true
  | _ => false

theorem isControl_of_prepare {statement : Statement} {params : List Value} {p : Prepared}
    (h : s.prepare statement params = .ok p) : p.isControl = statement.isControl := by
  cases statement with
  | savepoint | release | rollbackTo =>
    cases h
    rfl
  | select | insert | update | delete | dropTable =>
    obtain ⟨_, -, rfl⟩ := except_map_eq_ok.1 h
    rfl

/-- Statements are prepared for a content. -/
theorem prepare_congr (h : s.content = t.content) (statement : Statement) (params : List Value) :
    s.prepare statement params = t.prepare statement params := by
  cases statement <;> simp only [prepare, h]

theorem finish_idle (hs : s.saved = []) (r : Except Stop Unit) (p : Progress) : (s.finish r p).2.saved = [] := by
  unfold finish
  dsimp only
  split
  · exact hs
  · exact hs
  · rfl
  · exact hs

/-- What a statement counts does not depend on the savepoints, even if they have been ended. -/
theorem finish_goAlike (hst : s.unsaved = t.unsaved) (hs : s.saved ≠ []) (ht : t.saved ≠ []) (r : Except Stop Unit)
    (p : Progress) : GoAlike s t (s.finish r p) (t.finish r p) := by
  refine ⟨finish_alike hst hs ht r p, ?_, ?_⟩ <;>
  · unfold finish
    rw [checkReferences_alike hst hs ht]
    dsimp only
    split <;> rfl

theorem change_goAlike (hst : s.unsaved = t.unsaved) (hs : s.saved ≠ []) (ht : t.saved ≠ []) (op : Change Unit) :
    GoAlike s t (s.change op) (t.change op) := by
  unfold change
  rw [content_eq_of_unsaved hst, lastRowId_eq_of_unsaved hst]
  exact finish_goAlike hst hs ht _ _

theorem run_change (s : Session) (op : Change Unit) :
    s.run (.change op) = ((s.change op).1.map fun _ => default, (s.change op).2) := by
  rw [run]
  generalize s.change op = p
  rfl

theorem run_drop (s : Session) (op : Change Unit) :
    s.run (.drop op) = ((s.change op).1.map fun _ => default, { (s.change op).2 with changes := s.changes }) := by
  rw [run]
  generalize s.change op = p
  rfl

theorem GoAlike.map {p q : Except Fault α × Session} (f : α → β) (h : GoAlike s t p q) :
    GoAlike s t (p.1.map f, p.2) (q.1.map f, q.2) :=
  ⟨h.stay.map f, h.lastRowId, h.changes⟩

theorem GoAlike.uncounted {p q : Except Fault α × Session} (hst : s.changes = t.changes) (h : GoAlike s t p q) :
    GoAlike s t (p.1, { p.2 with changes := s.changes }) (q.1, { q.2 with changes := t.changes }) := by
  obtain ⟨⟨hresult, hsaved⟩, hlast, -⟩ := h
  refine ⟨⟨hresult, hsaved.imp ?_ id⟩, hlast, hst⟩
  rintro ⟨hu, hs', ht'⟩
  have hcontent : p.2.content = q.2.content := content_eq_of_unsaved hu
  refine ⟨?_, hs', ht'⟩
  show Session.mk p.2.content [] p.2.lastRowId s.changes = Session.mk q.2.content [] q.2.lastRowId t.changes
  rw [hcontent, hlast, hst]

theorem run_calm {p : Prepared} (h : p.isControl = false) : IsCalm (·.run p) where
  alike s t hst hs ht := by
    cases p with
    | rows r => exact .of_unchanged hst _
    | change op =>
      simp only [run_change]
      exact (change_goAlike hst hs ht op).map _
    | drop op =>
      simp only [run_drop]
      exact ((change_goAlike hst hs ht op).uncounted (changes_eq_of_unsaved hst)).map _
    | content c =>
      have hlast : s.lastRowId = t.lastRowId := lastRowId_eq_of_unsaved hst
      have hchanges : s.changes = t.changes := changes_eq_of_unsaved hst
      refine ⟨⟨rfl, .inl ⟨?_, rfl, rfl⟩⟩, hlast, hchanges⟩
      show Session.mk c [] s.lastRowId s.changes = Session.mk c [] t.lastRowId t.changes
      rw [hlast, hchanges]
    | savepoint | release | rollbackTo => cases h
  idle s hs := by
    cases p with
    | rows r => exact hs
    | change op =>
      simp only [run_change]
      exact finish_idle hs _ _
    | drop op =>
      simp only [run_drop]
      exact finish_idle hs _ _
    | content c => exact hs
    | savepoint | release | rollbackTo => cases h

/-- A step that is prepared for the content alone is calm if what has been prepared is calm. -/
theorem IsCalm.of_prepared {γ : Type} {prepare : Session → Except Fault γ} {run : γ → Session → Except Fault α × Session}
    {step : Session → Except Fault α × Session} (hok : ∀ s p, prepare s = .ok p → step s = run p s)
    (herror : ∀ s f, prepare s = .error f → step s = (.error f, s))
    (hcontent : ∀ s t : Session, s.content = t.content → prepare s = prepare t)
    (hrun : ∀ s p, prepare s = .ok p → IsCalm (run p)) : IsCalm step where
  alike s t hst hs ht := by
    have hprepare := hcontent s t (content_eq_of_unsaved hst)
    cases hp : prepare t with
    | error f =>
      rw [herror t f hp, herror s f (hprepare.trans hp)]
      exact .of_unchanged hst _
    | ok p =>
      rw [hok t p hp, hok s p (hprepare.trans hp)]
      exact (hrun t p hp).alike s t hst hs ht
  idle s hs := by
    cases hp : prepare s with
    | error f =>
      rw [herror s f hp]
      exact hs
    | ok p =>
      rw [hok s p hp]
      exact (hrun s p hp).idle s hs

theorem perform_calm {statement : Statement} (h : statement.isControl = false) (params : List Value) :
    IsCalm (·.perform statement params) :=
  .of_prepared (fun s p (hp : s.prepare statement params = .ok p) => by simp only [perform, hp])
    (fun s f hp => by simp only [perform, hp]) (fun _ _ hc => prepare_congr hc statement params)
    fun _ _ hp => run_calm ((isControl_of_prepare hp).trans h)

end Session

end Sql

namespace Store

open Sql

theorem onSession_outcome {α : Type} (f : Session → Except Sql.Fault α × Session) (s : Store) :
    outcome (onSession f) s = ((f s.session).1.mapError Error.store, { s with session := (f s.session).2 }) := by
  unfold onSession
  rw [outcome_of]
  rcases f s.session with ⟨_ | _, _⟩ <;> rfl

/-! ## Transactions -/

/-- The store with one more transaction. -/
def begun (s : Store) : Store :=
  { session := s.session.savepoint (savepointName (s.depth + 1)), depth := s.depth + 1 }

theorem begin_outcome (s : Store) : outcome begin s = (.ok (), s.begun) := rfl

/-- A store has the savepoints and the depth of another one. -/
structure SameStack (s t : Store) : Prop where
  saved : s.session.saved = t.session.saved
  depth : s.depth = t.depth

/-- Undoing the newest transaction restores the content at its beginning, and what was open then. -/
theorem rollback_outcome {s t : Store} (h : SameStack t s.begun) :
    outcome rollback t =
      (.ok (), { session := { t.session with content := s.session.content, saved := s.session.saved }
                 depth := s.depth }) := by
  obtain ⟨⟨content, saved, lastRowId, changes⟩, depth⟩ := t
  obtain ⟨rfl, rfl⟩ := h
  have hto : ({ content, saved := s.begun.session.saved, lastRowId, changes } : Session).rollbackTo
      (savepointName (s.depth + 1)) =
        (.ok (), { content := s.session.content, saved := s.begun.session.saved, lastRowId, changes }) := by
    simp [Session.rollbackTo, Session.savedFrom, begun, Session.savepoint]
  have hrelease : ({ content := s.session.content, saved := s.begun.session.saved, lastRowId, changes } :
      Session).release (savepointName (s.depth + 1)) =
        (.ok (), { content := s.session.content, saved := s.session.saved, lastRowId, changes }) := by
    simp only [Session.release, Session.savedFrom, begun, Session.savepoint]
    cases s.session.saved <;> simp
  show outcome (onSession (·.rollbackTo (savepointName (s.depth + 1))) >>= fun _ =>
    onSession (·.release (savepointName (s.depth + 1)))) _ = _
  rw [outcome_bind, onSession_outcome, hto]
  show outcome (onSession (·.release (savepointName (s.depth + 1)))) _ = _
  rw [onSession_outcome, hrelease]
  rfl

/-- Once all savepoints have been ended, undoing a transaction changes nothing and fails. -/
theorem rollback_outcome_of_ended {t : Store} (h : t.session.saved = []) :
    outcome rollback t =
      (.error (.store (.noSavepoint (savepointName t.depth))), { t with depth := t.depth - 1 }) := by
  have hto : t.session.rollbackTo (savepointName t.depth) =
      (.error (.noSavepoint (savepointName t.depth)), t.session) := by
    simp [Session.rollbackTo, Session.savedFrom, h]
  show outcome (onSession (·.rollbackTo (savepointName t.depth)) >>= fun _ =>
    onSession (·.release (savepointName t.depth))) { t with depth := t.depth - 1 } = _
  rw [outcome_bind, onSession_outcome, hto]
  rfl

/-- Whether the references that are checked at the end of a transaction are no worse than before it. -/
def Settled (before after : Content) : Prop := orphans after true ≤ orphans before true

/-- Keeping what the newest transaction did keeps the content. The outermost one must leave its references
settled. -/
theorem commit_outcome {s t : Store} (h : SameStack t s.begun)
    (hs : s.session.saved = [] → Settled s.session.content t.session.content) :
    outcome commit t = (.ok (), { session := { t.session with saved := s.session.saved }, depth := s.depth }) := by
  obtain ⟨⟨content, saved, lastRowId, changes⟩, depth⟩ := t
  obtain ⟨rfl, rfl⟩ := h
  have hrelease : ({ content, saved := s.begun.session.saved, lastRowId, changes } : Session).release
      (savepointName (s.depth + 1)) = (.ok (), { content, saved := s.session.saved, lastRowId, changes }) := by
    simp only [Session.release, Session.savedFrom, begun, Session.savepoint]
    cases hsaved : s.session.saved with
    | nil => simpa [Settled] using hs hsaved
    | cons p older => simp
  show outcome (onSession (·.release (savepointName (s.depth + 1)))) _ = _
  rw [onSession_outcome, hrelease]
  rfl

/-! ## A store and a copy of it -/

/-- A store has the transactions of `base`, and apart from these it is like a copy, which has a transaction of its
own. -/
structure Mirrors (base s t : Store) : Prop where
  stack : SameStack s base
  alike : s.session.unsaved = t.session.unsaved
  copyOpened : t.session.saved ≠ []

/-- After a fault, a store is still like its copy, or the fault has ended all transactions of both, so that the
store has the content before its outermost one. -/
def MirrorsAfterFault (base s t : Store) : Prop :=
  Mirrors base s t ∨
    s.session.saved = [] ∧ s.session.content = base.session.committed ∧ s.depth = base.depth ∧ t.session.saved = []

/-- Only the transactions of the base matter. -/
theorem MirrorsAfterFault.rebase {base base' s t : Store} (h : SameStack base base') (hb : base.session.saved ≠ [])
    (hm : MirrorsAfterFault base s t) : MirrorsAfterFault base' s t := by
  obtain ⟨hs, ha, ho⟩ | ⟨hs, hc, hd, ht⟩ := hm
  · exact .inl ⟨⟨hs.saved.trans h.saved, hs.depth.trans h.depth⟩, ha, ho⟩
  · exact .inr ⟨hs, hc.trans (Session.committed_of_saved h.saved hb), hd.trans h.depth, ht⟩

/-- Statements do the same on a store inside a transaction and on its copy. -/
theorem perform_corresponds {base : Store} (hb : base.session.saved ≠ []) {statement : Statement} (hn : statement.isControl = false)
    (params : List Value) :
    Corresponds (Mirrors base) (MirrorsAfterFault base) (perform statement params) (perform statement params) := by
  intro s t h
  have hs : s.session.saved ≠ [] := by rw [h.stack.saved]; exact hb
  have hp := ((Session.perform_calm hn params).alike s.session t.session h.alike hs h.copyOpened).stay
  unfold perform
  rw [onSession_outcome, onSession_outcome]
  revert hp
  rcases s.session.perform statement params with ⟨r, s'⟩
  rcases t.session.perform statement params with ⟨r', t'⟩
  rintro ⟨rfl, ⟨hu, hs', ht'⟩ | ⟨⟨f, rfl⟩, hs', hc, ht'⟩⟩
  · have hm : Mirrors base { s with session := s' } { t with session := t' } :=
      ⟨⟨hs'.trans h.stack.saved, h.stack.depth⟩, hu, by rw [ht']; exact h.copyOpened⟩
    cases r with
    | ok a => exact ⟨rfl, hm⟩
    | error f => exact .inl hm
  · exact .inr ⟨hs', hc.trans (Session.committed_of_saved h.stack.saved hs), h.stack.depth, ht'⟩

end Store

end GuardedConfig
