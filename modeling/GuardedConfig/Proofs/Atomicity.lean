import GuardedConfig.Proofs.Reachable
import GuardedConfig.Proofs.Savepoint

/-!
# `Proofs.Atomicity` — a write and all that its triggers do happen together or not at all

Executing a field opens a savepoint, its triggers may set other fields, and these open savepoints in turn, to any
depth. What comes of it is said here without savepoints: the write runs on a copy of the tables, its triggers and
whatever they set run on the same copy, and the copy is kept if all of it succeeds. If anything fails, at any
depth, the tables are again what they were.

The store is assumed to keep its savepoints open when a statement fails, and to let the outermost one be closed.
Both can fail to hold: a constraint may say `ON CONFLICT ROLLBACK`, and a deferred reference may have lost its row.

## Contents

* `onCopy`, `setOnCopy`, `executeOnCopyWith`, `Request.runOnCopy` — the reference
* `transact_corresponds` — a transaction inside a transaction is a copy
* `setWithin_corresponds` — by recursion on the fields that are free
* `StoreComplies`, `request_atomic`
-/

namespace GuardedConfig

open Registry Schema

/-! ## The reference -/

/-- The registry with the tables as they were in another one. -/
def Registry.withTablesOf (r before : Registry) : Registry :=
  { r with store := { r.store with session := { r.store.session with content := before.store.content } } }

/-- Runs a step on a copy of the tables: the copy is kept if the step succeeds, and dropped if it fails. -/
def onCopy (step : Task Registry Unit) : Task Registry Unit :=
  Task.of fun r =>
    match outcome step r with
    | (.ok (), after) => (.ok (), after)
    | (.error e, after) => (.error e, after.withTablesOf r)

/-- Executes the plan of a path on a copy, given how its triggers set fields. -/
def executeOnCopyWith (setField : String → Json → Task Registry Unit) (path : String) : Task Registry Unit := do
  let p ← expectPlan path
  if p.bound then onCopy (writeBody setField p)
  else throw (.binding (.notBound p.path "executed"))

/-- Sets a field on a copy while only some fields are free. -/
def setOnCopy (free : List String) (path : String) (value : Json) : Task Registry Unit := do
  let _ ← expectPlan path
  if _h : path ∈ free then
    Registry.bind path value
    executeOnCopyWith (fun path' value' => setOnCopy (without free path) path' value') path
  else throw (.binding (.inUse path))
termination_by free.length
decreasing_by exact length_without_lt ‹_›

/-- What a request does on a copy of the tables. -/
def Request.runOnCopy : Request → Task Registry Unit
  | .bind path value => Registry.bind path value
  | .execute path => do executeOnCopyWith (setOnCopy (without (← get).paths path)) path
  | .set path value => do setOnCopy (← get).paths path value

/-! ### Its outcomes -/

theorem onCopy_outcome (step : Task Registry Unit) (r : Registry) :
    outcome (onCopy step) r =
      match outcome step r with
      | (.ok (), after) => (.ok (), after)
      | (.error e, after) => (.error e, after.withTablesOf r) := rfl

theorem executeOnCopyWith_outcome (setField : String → Json → Task Registry Unit) (path : String) (r : Registry) :
    outcome (executeOnCopyWith setField path) r =
      match lookup path r.plans with
      | some p =>
        if p.bound then outcome (onCopy (writeBody setField p)) r
        else (.error (.binding (.notBound p.path "executed")), r)
      | none => (.error (.unknownField path), r) := by
  unfold executeOnCopyWith
  rw [outcome_bind, expectPlan_outcome]
  cases lookup path r.plans with
  | none => rfl
  | some p =>
    dsimp only
    cases p.bound <;> rfl

theorem setOnCopy_outcome (free : List String) (path : String) (value : Json) (r : Registry) :
    outcome (setOnCopy free path value) r =
      match lookup path r.plans with
      | some _ =>
        if path ∈ free then
          outcome (Registry.bind path value >>= fun _ =>
            executeOnCopyWith (setOnCopy (without free path)) path : Task Registry Unit) r
        else (.error (.binding (.inUse path)), r)
      | none => (.error (.unknownField path), r) := by
  rw [setOnCopy, outcome_bind, expectPlan_outcome]
  cases lookup path r.plans with
  | none => rfl
  | some p =>
    dsimp only
    split <;> rfl

theorem runOnCopy_execute_outcome (path : String) (r : Registry) :
    outcome (Request.execute path).runOnCopy r =
      outcome (executeOnCopyWith (setOnCopy (without r.paths path)) path) r :=
  outcome_bind_ok (outcome_get r)

theorem runOnCopy_set_outcome (path : String) (value : Json) (r : Registry) :
    outcome (Request.set path value).runOnCopy r = outcome (setOnCopy r.paths path value) r :=
  outcome_bind_ok (outcome_get r)

theorem content_onCopy_of_error {step : Task Registry Unit} {r r' : Registry} {e : Error}
    (h : outcome (onCopy step) r = (.error e, r')) : r'.store.content = r.store.content := by
  rw [onCopy_outcome] at h
  revert h
  rcases outcome step r with ⟨_ | ⟨⟩, after⟩ <;> intro h
  · cases h; rfl
  · cases h

theorem content_executeOnCopyWith_of_error {setField : String → Json → Task Registry Unit} {path : String}
    {r r' : Registry} {e : Error} (h : outcome (executeOnCopyWith setField path) r = (.error e, r')) :
    r'.store.content = r.store.content := by
  rw [executeOnCopyWith_outcome] at h
  split at h
  · split at h
    · exact content_onCopy_of_error h
    · cases h; rfl
  · cases h; rfl

theorem content_bind (path : String) (value : Json) (r : Registry) :
    (outcome (Registry.bind path value) r).2.store = r.store := by
  rw [bind_outcome]
  cases lookup path r.plans with
  | none => rfl
  | some p => exact store_modifyPlan ..

theorem content_setOnCopy_of_error {free : List String} {path : String} {value : Json} {r r' : Registry} {e : Error}
    (h : outcome (setOnCopy free path value) r = (.error e, r')) : r'.store.content = r.store.content := by
  rw [setOnCopy_outcome] at h
  split at h
  · split at h
    · have hb := content_bind path value r
      rw [outcome_bind] at h
      revert h hb
      rcases outcome (Registry.bind path value) r with ⟨_ | ⟨⟩, s⟩ <;> intro h hb
      · cases h; exact congrArg Store.content hb
      · exact (content_executeOnCopyWith_of_error h).trans (congrArg Store.content hb)
    · cases h; rfl
  · cases h; rfl

/-- A request that fails on a copy leaves the tables as they were. -/
theorem content_runOnCopy_of_error {request : Request} {r r' : Registry} {e : Error}
    (h : outcome request.runOnCopy r = (.error e, r')) : r'.store.content = r.store.content := by
  cases request with
  | bind path value =>
    have hb := content_bind path value r
    rw [show outcome (Registry.bind path value) r = _ from h] at hb
    exact congrArg Store.content hb
  | execute path =>
    rw [runOnCopy_execute_outcome] at h
    exact content_executeOnCopyWith_of_error h
  | set path value =>
    rw [runOnCopy_set_outcome] at h
    exact content_setOnCopy_of_error h

/-- A registry on a copy of its tables: one transaction is open, the one that decides about the copy. -/
def Registry.copied (r : Registry) : Registry :=
  { r with store := { r.store with session := { r.store.session with saved := [("copy", r.store.content)] } } }

/-! ## Registries that differ in their stores -/

/-- Two registries with genuine plans differ in nothing but their stores, and these are related. -/
structure Registry.Like (R : Store → Store → Prop) (r q : Registry) : Prop where
  rest : { r with store := q.store } = q
  stores : R r.store q.store
  genuine : r.Genuine

namespace Registry

variable {R E : Store → Store → Prop}

theorem Like.plans {r q : Registry} (h : Like R r q) : r.plans = q.plans := (congrArg Registry.plans h.rest :)

theorem Like.paths {r q : Registry} (h : Like R r q) : r.paths = q.paths := (congrArg Registry.paths h.rest :)

theorem Like.mono (h : ∀ s t, R s t → E s t) (r q : Registry) (hl : Like R r q) : Like E r q :=
  ⟨hl.rest, h _ _ hl.stores, hl.genuine⟩

/-- Steps of the store do the same inside registries. -/
theorem onStore_corresponds {α : Type} {x y : Task Store α} (h : Corresponds R E x y) :
    Corresponds (Like R) (Like E) (onStore x) (onStore y) := by
  intro r q hl
  have hs := h r.store q.store hl.stores
  show EndAlike _ _ (let (a, store) := outcome x r.store; (a, { r with store }))
    (let (a, store) := outcome y q.store; (a, { q with store }))
  have hr : ∀ s t, { ({ r with store := s } : Registry) with store := t } = { q with store := t } := by
    intro s t
    rw [← hl.rest]
  revert hs
  rcases outcome x r.store with ⟨_ | a, s⟩ <;> rcases outcome y q.store with ⟨_ | b, t⟩ <;> intro hs
  · exact ⟨hr s t, hs, hl.genuine⟩
  · exact hs.elim
  · exact hs.elim
  · exact ⟨hs.1, hr s t, hs.2, hl.genuine⟩

/-- The plan of a path is the same in both, and genuine. -/
theorem expectPlan_bind_corresponds (hf : ∀ s t, R s t → E s t) (path : String) {α : Type}
    {f g : Plan → Task Registry α} (h : ∀ p, p.Genuine → Corresponds (Like R) (Like E) (f p) (g p)) :
    Corresponds (Like R) (Like E) (expectPlan path >>= f) (expectPlan path >>= g) := by
  intro r q hl
  rw [outcome_bind, outcome_bind, expectPlan_outcome, expectPlan_outcome, hl.plans]
  cases hp : lookup path q.plans with
  | none => exact hl.mono hf
  | some p => exact h p (hl.genuine path p (hl.plans ▸ hp)) r q hl

theorem modifyPlan_withStore (r : Registry) (store : Store) (path : String) (f : Plan → Plan) :
    { r.modifyPlan path f with store } = ({ r with store } : Registry).modifyPlan path f := by
  unfold modifyPlan
  dsimp only
  cases lookup path r.plans <;> rfl

theorem Like.modifyPlan {r q : Registry} (h : Like R r q) (path : String) {f : Plan → Plan}
    (hf : ∀ p, p.Genuine → (f p).Genuine) : Like R (r.modifyPlan path f) (q.modifyPlan path f) where
  rest := by rw [store_modifyPlan, modifyPlan_withStore, h.rest]
  stores := by rw [store_modifyPlan, store_modifyPlan]; exact h.stores
  genuine := genuine_modifyPlan h.genuine path hf

theorem bind_corresponds (hf : ∀ s t, R s t → E s t) (path : String) (value : Json) :
    Corresponds (Like R) (Like E) (Registry.bind path value) (Registry.bind path value) := by
  intro r q hl
  rw [bind_outcome, bind_outcome, hl.plans]
  cases hp : lookup path q.plans with
  | none => exact hl.mono hf
  | some p =>
    have hm := hl.modifyPlan path (f := fun _ => (p.bind value).2) fun _ _ => Plan.genuine_bind p value
    dsimp only
    rcases (p.bind value).1 with e | ⟨⟩
    · exact hm.mono hf
    · exact ⟨rfl, hm⟩

theorem getField_corresponds (hf : ∀ s t, R s t → E s t)
    (h : ∀ c : Plan.Command, c.statement.isControl = false →
      Corresponds R E (Store.perform c.statement []) (Store.perform c.statement [])) (path : String) :
    Corresponds (Like R) (Like E) (getField path) (getField path) :=
  expectPlan_bind_corresponds hf path fun p _ =>
    onStore_corresponds ((h (Plan.readCommand p.slot.storage) rfl).bind fun _ => .pure _)

end Registry

/-! ## Steps of a write -/

open Store (Mirrors MirrorsAfterFault)

theorem mirrorsAfterFault_of_mirrors {base : Store} (s t : Store) (h : Mirrors base s t) :
    MirrorsAfterFault base s t := .inl h

/-- The writes of a plan do the same on a store and on its copy. -/
theorem runWrites_corresponds {base : Store} (hb : base.session.saved ≠ []) {writes : List Plan.WriteStep} (hw : ∀ step ∈ writes, step.Plain)
    (captured : Option Int) :
    Corresponds (Mirrors base) (MirrorsAfterFault base) (Plan.runWrites captured writes)
      (Plan.runWrites captured writes) := by
  induction writes generalizing captured with
  | nil => exact .pure ()
  | cons step writes ih =>
    have ih := fun captured => ih (fun step hs => hw step (List.mem_cons_of_mem _ hs)) captured
    cases step with
    | captureRowId =>
      intro s t h
      have hid : s.lastRowId = t.lastRowId := Sql.Session.lastRowId_eq_of_unsaved h.alike
      show EndAlike _ _ (outcome (Plan.runWrites (some s.lastRowId) writes) s)
        (outcome (Plan.runWrites (some t.lastRowId) writes) t)
      rw [hid]
      exact ih _ s t h
    | execute c =>
      rw [Plan.runWrites]
      exact (Corresponds.ofExcept mirrorsAfterFault_of_mirrors _).bind fun params =>
        (Store.perform_corresponds hb (hw _ (List.mem_cons_self ..)) params).bind fun _ => ih captured

/-! ## Transactions -/

namespace Registry

/-- A registry and its copy, whose stores mirror each other. -/
abbrev Mirrors (base : Store) : Registry → Registry → Prop := Like (Store.Mirrors base)

/-- A registry and its copy after a fault. -/
abbrev MirrorsAfterFault (base : Store) : Registry → Registry → Prop := Like (Store.MirrorsAfterFault base)

/-- The registry with one more transaction. -/
def begun (r : Registry) : Registry := { r with store := r.store.begun }

/-- How a transaction ends, by what its step does after the beginning. -/
theorem transact_outcome (step : Task Registry Unit) (r : Registry) :
    outcome (Plan.transact step) r =
      match outcome step r.begun with
      | (.ok (), r) => outcome (onStore Store.commit) r
      | (.error e, r) => outcome (onStore Store.rollback >>= fun _ => throw e : Task Registry Unit) r := by
  unfold Plan.transact
  rw [outcome_bind_ok (show outcome (onStore Store.begin) r = (.ok (), r.begun) from rfl), outcome_bind,
    outcome_tryCatch]
  rcases outcome step r.begun with ⟨e | ⟨⟩, r'⟩
  · dsimp only
    rw [outcome_bind]
    rcases outcome (onStore Store.rollback : Task Registry Unit) r' with ⟨_ | _, _⟩ <;> rfl
  · rfl

/-- A registry and its copy are alike at the beginning of a transaction of the registry. -/
theorem Like.begun {r q : Registry} (h : Mirrors r.store r q) : Mirrors r.store.begun r.begun q where
  rest := h.rest
  stores := ⟨⟨rfl, rfl⟩, h.stores.alike, h.stores.copyOpened⟩
  genuine := h.genuine

theorem Like.withStore {R R' : Store → Store → Prop} {r q : Registry} (h : Like R r q) {s t : Store} (hst : R' s t) :
    Like R' { r with store := s } { q with store := t } where
  rest := by rw [← h.rest]
  stores := hst
  genuine := h.genuine

/-- A transaction ends like a copy of the tables, given that its step does inside it what the step of the copy does
on the copy. The outermost transaction must leave its references settled. -/
theorem transact_endAlike {x y : Task Registry Unit} {r q : Registry} (hm : Mirrors r.store r q)
    (h : EndAlike (Mirrors r.store.begun) (MirrorsAfterFault r.store.begun) (outcome x r.begun) (outcome y q))
    (hs : r.store.session.saved = [] → ∀ q', outcome y q = (.ok (), q') → Store.Settled r.store.content q'.store.content) :
    EndAlike (Mirrors r.store) (MirrorsAfterFault r.store) (outcome (Plan.transact x) r) (outcome (onCopy y) q) := by
  have hc : r.store.session.content = q.store.session.content := Sql.Session.content_eq_of_unsaved hm.stores.alike
  rw [transact_outcome]
  show EndAlike _ _ _ (match outcome y q with | (.ok (), after) => _ | (.error e, after) => _)
  revert h hs
  rcases outcome x r.begun with ⟨e | ⟨⟩, r'⟩ <;> rcases outcome y q with ⟨e' | ⟨⟩, q'⟩ <;> intro h hs
  · -- both fail: what the transaction did is undone, unless the fault has ended it
    dsimp only
    rw [outcome_bind, onStore_outcome]
    obtain hm' | ⟨hsaved, hcontent, hdepth, hsaved'⟩ := h.stores
    · rw [Store.rollback_outcome hm'.stack]
      refine h.withStore (.inl ⟨⟨rfl, rfl⟩, ?_, hm'.copyOpened⟩)
      show Sql.Session.mk r.store.session.content [] r'.store.session.lastRowId r'.store.session.changes =
        Sql.Session.mk q.store.session.content [] q'.store.session.lastRowId q'.store.session.changes
      rw [hc, Sql.Session.lastRowId_eq_of_unsaved hm'.alike, Sql.Session.changes_eq_of_unsaved hm'.alike]
    · rw [Store.rollback_outcome_of_ended hsaved]
      refine h.withStore (.inr ⟨hsaved, ?_, ?_, hsaved'⟩)
      · exact hcontent.trans (Sql.Session.committed_savepoint ..)
      · show r'.store.depth - 1 = r.store.depth
        rw [hdepth]
        rfl
  · exact h.elim
  · exact h.elim
  · obtain ⟨-, h⟩ := h
    have hs : r.store.session.saved = [] → Store.Settled r.store.session.content r'.store.session.content := by
      intro hr
      rw [Sql.Session.content_eq_of_unsaved h.stores.alike]
      exact hs hr q' rfl
    dsimp only
    rw [onStore_outcome, Store.commit_outcome h.stores.stack hs]
    exact ⟨rfl, h.withStore ⟨⟨rfl, rfl⟩, h.stores.alike, h.stores.copyOpened⟩⟩

/-- A transaction inside a transaction does what a copy of the tables does. -/
theorem transact_corresponds {base : Store} (hb : base.session.saved ≠ []) {x y : Task Registry Unit}
    (h : ∀ base', base'.session.saved ≠ [] → Corresponds (Mirrors base') (MirrorsAfterFault base') x y) :
    Corresponds (Mirrors base) (MirrorsAfterFault base) (Plan.transact x) (onCopy y) := by
  intro r q hm
  have hr : r.store.session.saved ≠ [] := by rw [hm.stores.stack.saved]; exact hb
  have hself : Mirrors r.store r q := ⟨hm.rest, ⟨⟨rfl, rfl⟩, hm.stores.alike, hm.stores.copyOpened⟩, hm.genuine⟩
  have he := transact_endAlike hself (h r.store.begun (List.cons_ne_nil _ _) r.begun q hself.begun)
    fun hn => absurd hn hr
  refine he.mono ?_ ?_
  · exact fun s t hst => ⟨hst.rest, ⟨⟨hst.stores.stack.saved.trans hm.stores.stack.saved,
      hst.stores.stack.depth.trans hm.stores.stack.depth⟩, hst.stores.alike, hst.stores.copyOpened⟩, hst.genuine⟩
  · exact fun s t hst => hst.mono (fun _ _ => Store.MirrorsAfterFault.rebase hm.stores.stack hr) s t

/-! ## Fields -/

/-- The steps of a transaction and of its copy, once the triggers set fields alike. -/
theorem writeBody_corresponds {base : Store} (hb : base.session.saved ≠ []) {f g : String → Json → Task Registry Unit}
    (h : ∀ path value, Corresponds (Mirrors base) (MirrorsAfterFault base) (f path value) (g path value)) {p : Plan}
    (hp : p.Genuine) (hbound : p.bound = true) :
    Corresponds (Mirrors base) (MirrorsAfterFault base) (writeBody f p) (writeBody g p) := by
  obtain ⟨value, hw⟩ := hp.writeSteps_eq hbound
  have hhost : (host f).Corresponds (Mirrors base) (MirrorsAfterFault base) (host g) := {
    fails := Like.mono mirrorsAfterFault_of_mirrors
    get := fun path =>
      (getField_corresponds mirrorsAfterFault_of_mirrors (fun _ hc => Store.perform_corresponds hb hc []) path).bind
        fun _ => .pure _
    set := h
    warn := fun trigger text r q hl => ⟨by rw [← hl.rest]; rfl, hl.stores, hl.genuine⟩ }
  exact (onStore_corresponds (runWrites_corresponds hb (Plan.writeSteps_plain hw) none)).bind fun _ =>
    .forM fun t _ => Trigger.run_corresponds hhost t

/-- Executing a field ends like executing it on a copy, given that its transaction ends like a copy. -/
theorem executeWith_endAlike {base : Store} {r q : Registry} (hm : Mirrors base r q)
    {f g : String → Json → Task Registry Unit} (path : String)
    (h : ∀ p, p.Genuine → p.bound = true →
      outcome (executeOnCopyWith g path) q = outcome (onCopy (writeBody g p)) q →
      EndAlike (Mirrors base) (MirrorsAfterFault base)
        (outcome (Plan.transact (writeBody f p)) r) (outcome (onCopy (writeBody g p)) q)) :
    EndAlike (Mirrors base) (MirrorsAfterFault base) (outcome (executeWith f path) r)
      (outcome (executeOnCopyWith g path) q) := by
  rw [executeOnCopyWith_outcome, ← hm.plans] at h ⊢
  rw [executeWith_outcome]
  cases hp : lookup path r.plans with
  | none => exact hm.mono mirrorsAfterFault_of_mirrors
  | some p =>
    simp only [hp] at h ⊢
    cases hbound : p.bound with
    | false => exact hm.mono mirrorsAfterFault_of_mirrors
    | true =>
      refine h p (hm.genuine path p hp) hbound ?_
      rw [hbound]
      rfl

theorem executeWith_corresponds {base : Store} (hb : base.session.saved ≠ []) {f g : String → Json → Task Registry Unit}
    (h : ∀ base', base'.session.saved ≠ [] → ∀ path value,
      Corresponds (Mirrors base') (MirrorsAfterFault base') (f path value) (g path value)) (path : String) :
    Corresponds (Mirrors base) (MirrorsAfterFault base) (executeWith f path) (executeOnCopyWith g path) :=
  fun r q hm => executeWith_endAlike hm path fun _ hp hbound _ =>
    transact_corresponds hb (fun base' hb' => writeBody_corresponds hb' (h base' hb') hp hbound) r q hm

/-- Setting a field inside a transaction does what setting it on a copy does. -/
theorem setWithin_corresponds {base : Store} (hb : base.session.saved ≠ []) (free : List String) (path : String)
    (value : Json) :
    Corresponds (Mirrors base) (MirrorsAfterFault base) (setWithin free path value) (setOnCopy free path value) := by
  rw [setWithin, setOnCopy]
  refine expectPlan_bind_corresponds mirrorsAfterFault_of_mirrors path fun p hp => ?_
  split
  · rename_i hfree
    refine (bind_corresponds mirrorsAfterFault_of_mirrors path value).bind fun _ => ?_
    exact executeWith_corresponds hb (fun base' hb' path' value' => setWithin_corresponds hb' _ path' value') path
  · exact .throw (Like.mono mirrorsAfterFault_of_mirrors) _ _
termination_by free.length
decreasing_by exact length_without_lt ‹_›

/-! ## Requests -/

/-- A registry mirrors its copy. -/
theorem Genuine.mirrors {r : Registry} (h : r.Genuine) : Mirrors r.store r r.copied :=
  ⟨rfl, ⟨⟨rfl, rfl⟩, rfl, List.cons_ne_nil _ _⟩, h⟩

/-- Executing a field from outside: like on a copy, if the outermost transaction leaves its references settled. -/
theorem executeWith_setWithin_endAlike {r q : Registry} (hm : Mirrors r.store r q) (free : List String) (path : String)
    (hs : r.store.session.saved = [] → ∀ q', outcome (executeOnCopyWith (setOnCopy free) path) q = (.ok (), q') →
      Store.Settled r.store.content q'.store.content) :
    EndAlike (Mirrors r.store) (MirrorsAfterFault r.store) (outcome (executeWith (setWithin free) path) r)
      (outcome (executeOnCopyWith (setOnCopy free) path) q) := by
  refine executeWith_endAlike hm path fun p hp hbound hq => transact_endAlike hm ?_ fun hn q' hq' => hs hn q' ?_
  · exact writeBody_corresponds (List.cons_ne_nil _ _)
      (fun path value => setWithin_corresponds (List.cons_ne_nil _ _) free path value) hp hbound r.begun q hm.begun
  · rw [hq, onCopy_outcome, hq']

/-- Setting a field from outside, likewise. -/
theorem setWithin_endAlike {r q : Registry} (hm : Mirrors r.store r q) (free : List String) (path : String)
    (value : Json)
    (hs : r.store.session.saved = [] → ∀ q', outcome (setOnCopy free path value) q = (.ok (), q') →
      Store.Settled r.store.content q'.store.content) :
    EndAlike (Mirrors r.store) (MirrorsAfterFault r.store) (outcome (setWithin free path value) r)
      (outcome (setOnCopy free path value) q) := by
  rw [setOnCopy_outcome, ← hm.plans] at hs ⊢
  rw [setWithin_outcome]
  cases hp : lookup path r.plans with
  | none => exact hm.mono mirrorsAfterFault_of_mirrors
  | some p =>
    simp only [hp] at hs ⊢
    split
    · rename_i hfree
      rw [if_pos hfree] at hs
      have hstore := content_bind path value r
      have hbind := bind_corresponds mirrorsAfterFault_of_mirrors path value r q hm
      rw [outcome_bind] at hs ⊢
      rw [outcome_bind]
      revert hbind hs hstore
      rcases outcome (Registry.bind path value) r with ⟨_ | ⟨⟩, r'⟩ <;>
        rcases outcome (Registry.bind path value) q with ⟨_ | ⟨⟩, q'⟩ <;> intro hs hstore hbind
      · exact hbind
      · exact hbind.elim
      · exact hbind.elim
      · have hstore : r'.store = r.store := hstore
        rw [← hstore] at hs hbind ⊢
        exact executeWith_setWithin_endAlike hbind.2 _ path hs
    · exact hm.mono mirrorsAfterFault_of_mirrors

end Registry

/-- What is assumed of the store for one request. -/
structure StoreComplies (r : Registry) (request : Request) : Prop where
  /-- If savepoints are open before the request, no statement that fails ends them. -/
  keepsSavepoints : r.store.session.saved ≠ [] → (outcome request.runOnCopy r.copied).2.store.session.saved ≠ []
  /-- If none is open before the request, the outermost one can be closed at its end: no reference that is checked
  only then has lost its row. -/
  releases : r.store.session.saved = [] → ∀ copy, outcome request.runOnCopy r.copied = (.ok (), copy) →
    Store.Settled r.store.content copy.store.content

/-- A request ends like on a copy. -/
theorem Request.run_endAlike {r : Registry} (hr : r.Genuine) {request : Request}
    (hs : r.store.session.saved = [] → ∀ copy, outcome request.runOnCopy r.copied = (.ok (), copy) →
      Store.Settled r.store.content copy.store.content) :
    EndAlike (Registry.Mirrors r.store) (Registry.MirrorsAfterFault r.store) (outcome request.run r)
      (outcome request.runOnCopy r.copied) := by
  cases request with
  | bind path value => exact bind_corresponds mirrorsAfterFault_of_mirrors path value r r.copied hr.mirrors
  | execute path =>
    rw [runOnCopy_execute_outcome] at hs ⊢
    rw [run_execute_outcome]
    exact executeWith_setWithin_endAlike hr.mirrors _ path hs
  | set path value =>
    rw [runOnCopy_set_outcome] at hs ⊢
    rw [run_set_outcome]
    exact setWithin_endAlike hr.mirrors _ path value hs

/-- **A request happens as a whole or not at all.** It succeeds exactly if it succeeds on a copy of the tables. If it
does, the tables are those of the copy, and if it fails, they are what they were. The savepoints that are open
afterwards are those that were open before, and all else is as after the work on the copy. -/
theorem request_atomic {r : Registry} (hr : r.Genuine) (request : Request) (hc : StoreComplies r request) :
    let (result, after) := outcome request.run r
    let (copyResult, copy) := outcome request.runOnCopy r.copied
    result.isOk = copyResult.isOk ∧
      after.store.content = (if result.isOk then copy.store.content else r.store.content) ∧
      after.store.session.saved = r.store.session.saved ∧ after.store.depth = r.store.depth ∧
      { after with store := copy.store } = copy := by
  have hend := Request.run_endAlike hr hc.releases
  have hkeep := hc.keepsSavepoints
  have hcontent := @content_runOnCopy_of_error request r.copied
  revert hend hkeep hcontent
  rcases outcome request.run r with ⟨_ | ⟨⟩, after⟩ <;>
    rcases outcome request.runOnCopy r.copied with ⟨_ | ⟨⟩, copy⟩ <;> intro hend hkeep hcontent
  · obtain hm | ⟨hs, hcommitted, hdepth, hcopy⟩ := hend.stores
    · exact ⟨rfl, (Sql.Session.content_eq_of_unsaved hm.alike).trans (hcontent rfl), hm.stack.saved, hm.stack.depth,
        hend.rest⟩
    · -- the fault has ended all savepoints, so there was none to be kept
      have hnone : r.store.session.saved = [] := by
        by_contra hopen
        exact hkeep hopen hcopy
      refine ⟨rfl, ?_, hs.trans hnone.symm, hdepth, hend.rest⟩
      rw [show after.store.content = _ from hcommitted, Sql.Session.committed, hnone]
      rfl
  · exact hend.elim
  · exact hend.elim
  · obtain ⟨-, hm⟩ := hend
    exact ⟨rfl, Sql.Session.content_eq_of_unsaved hm.stores.alike, hm.stores.stack.saved, hm.stores.stack.depth, hm.rest⟩

/-! ### A refused write -/

/-- A registry with one field, whose value 5 is bound and refused by a trigger. -/
def refusingRegistry : Registry where
  store := .ofContent { tables := [{
    info := {
      name := "A", key := some 0, autoincrement := true, hasPrimaryKey := true
      columns := [{ name := "A_id", type := "INTEGER" }, { name := "x", type := "INTEGER" }] }
    rows := [⟨1, [.integer 1, .null]⟩] }] }
  plans := [("A.x",
    (({ slot := ⟨"A", "x", .scalar "A" "x"⟩ } : Plan).bind (.int 5)).2.attach
      ⟨"refuse", "A", [.done (some (.literal (.bool false)))]⟩)]
  paths := ["A.x"]
  configs := ["A"]

theorem refusingRegistry_genuine : refusingRegistry.Genuine := by
  intro path p hp
  unfold refusingRegistry lookup at hp
  split at hp
  · cases hp
    exact (Plan.genuine_bind _ _).attach _
  · cases hp

theorem refusingRegistry_refuses :
    (outcome (Request.execute "A.x").runOnCopy refusingRegistry.copied).1.isOk = false := by decide +kernel

/-- The store keeps to what is assumed of it: no savepoint is open before, and the copy is refused. -/
theorem refusingRegistry_complies : StoreComplies refusingRegistry (.execute "A.x") where
  keepsSavepoints h := absurd rfl h
  releases := by
    intro _ copy h
    have refused := refusingRegistry_refuses
    rw [h] at refused
    exact nomatch refused

theorem request_atomic_refused :
    refusingRegistry.Genuine ∧ StoreComplies refusingRegistry (.execute "A.x") ∧
      (outcome (Request.execute "A.x").run refusingRegistry).2.store.content = refusingRegistry.store.content := by
  refine ⟨refusingRegistry_genuine, refusingRegistry_complies, ?_⟩
  have h := request_atomic refusingRegistry_genuine (.execute "A.x") refusingRegistry_complies
  have refused := refusingRegistry_refuses
  revert h refused
  rcases outcome (Request.execute "A.x").run refusingRegistry with ⟨result, after⟩
  rcases outcome (Request.execute "A.x").runOnCopy refusingRegistry.copied with ⟨copyResult, copy⟩
  rintro ⟨hresult, hcontent, -⟩ refused
  rw [hcontent, hresult, refused]
  rfl

end GuardedConfig
