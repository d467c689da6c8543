import GuardedConfig.Proofs.Atomicity

/-!
# `Proofs.Commit` — what a failing transaction leaves behind

A transaction that fails is undone: the content is as before, no savepoint stays open, and the count of the open
transactions is right again. There is one exception. Closing the outermost savepoint checks the deferred references,
and a refusal changes nothing: the savepoint stays open, with all that was written. But the transaction has been
counted as ended before, and it is not undone after. From then on the count is one too low, and no transaction that
succeeds later ever closes the savepoint that was left open.

Inside a transaction that is already open, a constraint with `ON CONFLICT ROLLBACK` can end all savepoints at once.
Then the content is that before the outermost of them.

## Contents

* `commit_outcome_of_unsettled` — the refusal
* `Store.Restored`, `Store.Ended`, `Store.Refused`, `Store.LeftBy` — what is left behind
* `transact_leftBy`, `executeWith_leftBy`, `setWithin_leftBy`
* `transactions_leave`, `refused_value_stays`
-/

namespace GuardedConfig

open Schema

namespace Store

/-! ## Closing the outermost savepoint -/

/-- A store refuses to close its outermost savepoint while references are unsettled. It changes nothing, but the
transaction does not count as open any more. -/
theorem commit_outcome_of_unsettled {s t : Store} (h : SameStack t s.begun) (hs : s.session.saved = [])
    (hn : ¬ Settled s.content t.content) :
    outcome commit t = (.error (.store .foreignKey), { t with depth := s.depth }) := by
  obtain ⟨⟨content, saved, lastRowId, changes⟩, depth⟩ := t
  obtain ⟨rfl, rfl⟩ := h
  have hrelease : ({ content, saved := s.begun.session.saved, lastRowId, changes } : Sql.Session).release
      (savepointName (s.depth + 1)) =
        (.error .foreignKey, { content, saved := s.begun.session.saved, lastRowId, changes }) := by
    have horphans : Sql.orphans s.session.content true < Sql.orphans content true := Nat.not_le.1 hn
    simp [Sql.Session.release, Sql.Session.savedFrom, begun, Sql.Session.savepoint, hs, horphans]
  show outcome (onSession (·.release (savepointName (s.depth + 1)))) _ = _
  rw [onSession_outcome, hrelease]
  rfl

/-! ## What is left behind -/

/-- Nothing is left behind: content, savepoints and depth are as before. -/
structure Restored (before after : Store) : Prop where
  content : after.content = before.content
  saved : after.session.saved = before.session.saved
  depth : after.depth = before.depth

/-- A statement has ended the savepoints that were open before, and all that happened since the outermost one. -/
structure Ended (before after : Store) : Prop where
  inside : before.session.saved ≠ []
  content : after.content = before.session.committed
  saved : after.session.saved = []
  depth : after.depth = before.depth

/-- The store has refused to close the outermost savepoint: it is open, what was written is in the content, and the
depth does not count it. -/
structure Refused (before after : Store) : Prop where
  outermost : before.session.saved = []
  unsettled : ¬ Settled before.content after.content
  saved : after.session.saved = [(savepointName (before.depth + 1), before.content)]
  depth : after.depth = before.depth

/-- How a transaction leaves the store that it began in, depending on whether it succeeds. -/
def LeftBy (before after : Store) : Except Error Unit → Prop
  | .ok () => SameStack after before ∧ (before.session.saved = [] → Settled before.content after.content)
  | .error _ => Restored before after ∨ Ended before after ∨ Refused before after

/-- How the steps inside a transaction leave the store: with its savepoints, or a fault has ended these. -/
def Inside (before after : Store) : Except Error Unit → Prop
  | .ok () => SameStack after before.begun
  | .error _ => SameStack after before.begun ∨
      after.session.saved = [] ∧ after.content = before.session.committed ∧ after.depth = before.begun.depth

theorem Restored.of_eq {before after : Store} (h : after = before) : Restored before after := by
  rw [h]
  exact ⟨rfl, rfl, rfl⟩

/-- What the outermost savepoint was opened on is what is committed. -/
theorem committed_of_idle {s : Store} (h : s.session.saved = []) : s.session.committed = s.content := by
  rw [Sql.Session.committed, h]
  rfl

/-- Undoing a transaction inside which something has failed. -/
theorem rollback_leaves {s t : Store}
    (h : SameStack t s.begun ∨
      t.session.saved = [] ∧ t.content = s.session.committed ∧ t.depth = s.begun.depth) :
    Restored s (outcome rollback t).2 ∨ Ended s (outcome rollback t).2 := by
  obtain hstack | ⟨hsaved, hcontent, hdepth⟩ := h
  · rw [rollback_outcome hstack]
    exact .inl ⟨rfl, rfl, rfl⟩
  · rw [rollback_outcome_of_ended hsaved]
    have hdepth' : t.depth - 1 = s.depth := by rw [hdepth]; rfl
    by_cases hidle : s.session.saved = []
    · exact .inl ⟨hcontent.trans (committed_of_idle hidle), hsaved.trans hidle.symm, hdepth'⟩
    · exact .inr ⟨hidle, hcontent, hsaved, hdepth'⟩

theorem refused_of_unsettled {s t : Store} (h : SameStack t s.begun) (hs : s.session.saved = [])
    (hn : ¬ Settled s.content t.content) : Refused s { t with depth := s.depth } :=
  ⟨hs, hn, by rw [h.saved, begun, Sql.Session.savepoint, hs]; rfl, rfl⟩

/-- Closing the savepoint of a transaction whose steps have succeeded. -/
theorem commit_leftBy {s t : Store} (h : SameStack t s.begun) :
    s.LeftBy (outcome commit t).2 (outcome commit t).1 := by
  by_cases hs : s.session.saved = [] → Settled s.content t.content
  · rw [commit_outcome h hs]
    exact ⟨⟨rfl, rfl⟩, hs⟩
  · rw [Classical.not_imp] at hs
    obtain ⟨hidle, hn⟩ := hs
    rw [commit_outcome_of_unsettled h hidle hn]
    exact .inr (.inr (refused_of_unsettled h hidle hn))

end Store

/-! ## Transactions of a registry -/

namespace Registry

open Store (LeftBy)

/-- A transaction leaves the store as `LeftBy` says, if its steps leave it as `Inside` says. -/
theorem transact_leftBy {step : Task Registry Unit} {r : Registry}
    (h : r.store.Inside (outcome step r.begun).2.store (outcome step r.begun).1) :
    r.store.LeftBy (outcome (Plan.transact step) r).2.store (outcome (Plan.transact step) r).1 := by
  rw [transact_outcome]
  revert h
  rcases outcome step r.begun with ⟨e | ⟨⟩, r'⟩ <;> intro h
  · dsimp only
    rw [outcome_bind, onStore_outcome]
    have hleaves := Store.rollback_leaves h
    revert hleaves
    rcases outcome Store.rollback r'.store with ⟨f | ⟨⟩, store⟩ <;>
      exact fun hleaves => hleaves.elim .inl fun hended => .inr (.inl hended)
  · exact Store.commit_leftBy h

/-- The writes of a bound plan and its triggers, which may set other fields, leave the savepoints in their place unless
a fault ends them all. -/
theorem writeBody_inside {r : Registry} (hg : r.Genuine) (free : List String) {p : Plan} (hp : p.Genuine)
    (hbound : p.bound = true) :
    r.store.Inside (outcome (writeBody (setWithin free) p) r.begun).2.store
      (outcome (writeBody (setWithin free) p) r.begun).1 := by
  have hopen : r.store.begun.session.saved ≠ [] := List.cons_ne_nil _ _
  have h := writeBody_corresponds hopen (fun path value => setWithin_corresponds hopen free path value) hp hbound
    r.begun r.copied hg.mirrors.begun
  revert h
  rcases outcome (writeBody (setWithin free) p) r.begun with ⟨e | ⟨⟩, r'⟩ <;>
    rcases outcome (writeBody (setOnCopy free) p) r.copied with ⟨e' | ⟨⟩, q'⟩ <;> intro h
  · obtain hmirrors | ⟨hsaved, hcontent, hdepth, -⟩ := h.stores
    · exact .inl hmirrors.stack
    · exact .inr ⟨hsaved, hcontent.trans (Sql.Session.committed_savepoint ..), hdepth⟩
  · exact h.elim
  · exact h.elim
  · exact h.2.stores.stack

theorem executeWith_leftBy {r : Registry} (hg : r.Genuine) (free : List String) (path : String) :
    r.store.LeftBy (outcome (executeWith (setWithin free) path) r).2.store
      (outcome (executeWith (setWithin free) path) r).1 := by
  rw [executeWith_outcome]
  cases hp : lookup path r.plans with
  | none => exact .inl (.of_eq rfl)
  | some p =>
    dsimp only
    cases hbound : p.bound with
    | false => exact .inl (.of_eq rfl)
    | true => exact transact_leftBy (writeBody_inside hg free (hg path p hp) hbound)

theorem bind_leftBy (path : String) (value : Json) (r : Registry) :
    r.store.LeftBy (outcome (Registry.bind path value) r).2.store (outcome (Registry.bind path value) r).1 := by
  rw [content_bind]
  rcases (outcome (Registry.bind path value) r).1 with e | ⟨⟩
  · exact .inl (.of_eq rfl)
  · exact ⟨⟨rfl, rfl⟩, fun _ => Nat.le_refl _⟩

theorem genuine_bind {r : Registry} (hg : r.Genuine) (path : String) (value : Json) :
    (outcome (Registry.bind path value) r).2.Genuine := by
  rw [bind_outcome]
  cases hp : lookup path r.plans with
  | none => exact hg
  | some p => exact genuine_modifyPlan hg path fun _ _ => Plan.genuine_bind p value

theorem setWithin_leftBy {r : Registry} (hg : r.Genuine) (free : List String) (path : String) (value : Json) :
    r.store.LeftBy (outcome (setWithin free path value) r).2.store (outcome (setWithin free path value) r).1 := by
  rw [setWithin_outcome]
  cases lookup path r.plans with
  | none => exact .inl (.of_eq rfl)
  | some p =>
    dsimp only
    split
    · have hstore := content_bind path value r
      have hgenuine := genuine_bind hg path value
      rw [outcome_bind]
      revert hstore hgenuine
      rcases outcome (Registry.bind path value) r with ⟨e | ⟨⟩, r'⟩ <;> intro hstore hgenuine
      · exact .inl (.of_eq hstore)
      · rw [← show r'.store = r.store from hstore]
        exact executeWith_leftBy hgenuine _ path
    · exact .inl (.of_eq rfl)

end Registry

/-- What a request leaves in the store. -/
theorem Request.run_leftBy {r : Registry} (hg : r.Genuine) (request : Request) :
    r.store.LeftBy (outcome request.run r).2.store (outcome request.run r).1 := by
  cases request with
  | bind path value => exact Registry.bind_leftBy path value r
  | execute path =>
    rw [Registry.run_execute_outcome]
    exact Registry.executeWith_leftBy hg _ path
  | set path value =>
    rw [Registry.run_set_outcome]
    exact Registry.setWithin_leftBy hg _ path value

/-- After a transaction that has succeeded, its content is committed if it was the outermost one; else only the
outermost one can commit it. -/
theorem Store.SameStack.committed {before after : Store} (h : SameStack after before) :
    after.session.committed =
      if before.session.saved = [] then after.content else before.session.committed := by
  split
  case isTrue hidle => exact committed_of_idle (h.saved.trans hidle)
  case isFalse hopen => exact Sql.Session.committed_of_saved h.saved fun hs => hopen (h.saved ▸ hs)

/-- What is left behind in the other two cases is not nothing. -/
theorem Store.Restored.not_ended_or_refused {before after : Store} (h : before.Restored after) :
    ¬ (before.Ended after ∨ before.Refused after) := by
  rintro (hended | hrefused)
  · exact hended.inside (h.saved.symm.trans hended.saved)
  · exact nomatch hrefused.saved.symm.trans (h.saved.trans hrefused.outermost)

/-- **What transactions leave behind.** Closing the savepoint of a transaction whose steps have kept the savepoints
fails only if the store refuses it, and then everything stays as the steps left it, with the savepoint open and the
count one too low. A request that fails leaves nothing behind, exactly unless the store has refused or a fault has
ended savepoints that were open before the request. A request that succeeds leaves the savepoints and the count as they
were, so what it wrote is committed exactly if no savepoint was open before. -/
theorem transactions_leave {s t : Store} (h : t.SameStack s.begun) {r : Registry} (hg : r.Genuine)
    (request : Request) :
    (match outcome Store.commit t with
      | (.ok (), after) => after.SameStack s ∧ after.content = t.content
      | (.error e, after) => e = .store .foreignKey ∧ s.Refused after ∧ after.content = t.content) ∧
    match outcome request.run r with
      | (.ok (), after) => after.store.SameStack r.store ∧ after.store.session.committed =
          if r.store.session.saved = [] then after.store.content else r.store.session.committed
      | (.error _, after) =>
          r.store.Restored after.store ↔ ¬ (r.store.Ended after.store ∨ r.store.Refused after.store) := by
  constructor
  · by_cases hs : s.session.saved = [] → Store.Settled s.session.content t.session.content
    · rw [Store.commit_outcome h hs]
      exact ⟨⟨rfl, rfl⟩, rfl⟩
    · rw [Classical.not_imp] at hs
      rw [Store.commit_outcome_of_unsettled h hs.1 hs.2]
      exact ⟨rfl, Store.refused_of_unsettled h hs.1 hs.2, rfl⟩
  · -- of the three things that a failure can leave, the first excludes the others
    have hleft := request.run_leftBy hg
    revert hleft
    rcases outcome request.run r with ⟨e | ⟨⟩, after⟩ <;> intro hleft
    · exact ⟨Store.Restored.not_ended_or_refused, fun hneither => hleft.resolve_right hneither⟩
    · exact ⟨hleft.1, hleft.1.committed⟩

/-- A refused write of a registry without savepoints leaves nothing behind. -/
theorem transactions_leave_refusing :
    Store.SameStack ({} : Store).begun ({} : Store).begun ∧ refusingRegistry.Genuine ∧
      refusingRegistry.store.Restored (outcome (Request.execute "A.x").run refusingRegistry).2.store := by
  refine ⟨⟨rfl, rfl⟩, refusingRegistry_genuine, ?_⟩
  have h := (transactions_leave (s := {}) ⟨rfl, rfl⟩ refusingRegistry_genuine (.execute "A.x")).2
  have hrun : (outcome (Request.execute "A.x").run refusingRegistry).1.isOk = false ∧
      (outcome (Request.execute "A.x").run refusingRegistry).2.store.session.saved = [] := by decide +kernel
  revert h hrun
  rcases outcome (Request.execute "A.x").run refusingRegistry with ⟨e | ⟨⟩, after⟩
  · rintro h ⟨-, hsaved⟩
    refine h.2 ?_
    rintro (hended | hrefused)
    · exact hended.inside rfl
    · exact nomatch hrefused.saved.symm.trans hsaved
  · rintro - ⟨hrun, -⟩
    cases hrun

/-! ### A reference that is checked too late -/

/-- A config with a field that refers to the row of the config, which is checked when a transaction ends. -/
def deferredReference : Artifact where
  fingerprint := ""
  declarations := { configs := [⟨"C", "a INTEGER REFERENCES \"C\"(\"C_id\") DEFERRABLE INITIALLY DEFERRED"⟩] }

/-- The row of the config with a value of its field. -/
def deferredRow (a : Sql.Value) : Sql.Row := ⟨1, [.integer 1, a]⟩

/-- Setting the field to a row that does not exist fails, but the value stays in the table and a savepoint stays open
that the depth does not count. A value that is set later is not committed. -/
theorem refused_value_stays : ∃ r after, Registry.load deferredReference (.ofContent {}) = (.ok r, after) ∧
    let refused := outcome (Request.set "C.a" (.int 7)).run r
    let later := outcome (Request.set "C.a" (.int 1)).run refused.2
    r.store.session.saved.length = 0 ∧ r.store.depth = 0 ∧ r.store.content.rowsOf "C" = [deferredRow .null] ∧
      refused.1.isOk = false ∧ refused.2.store.content.rowsOf "C" = [deferredRow (.integer 7)] ∧
      refused.2.store.session.saved.length = 1 ∧ refused.2.store.depth = 0 ∧
      later.1.isOk = true ∧ later.2.store.session.committed.rowsOf "C" = [deferredRow .null] :=
  Registry.exists_of_load (by decide +kernel)

end GuardedConfig
