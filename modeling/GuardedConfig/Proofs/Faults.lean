import GuardedConfig.Proofs.Captures
import GuardedConfig.Proofs.Steady
import GuardedConfig.Proofs.Writes

/-!
# `Proofs.Faults` — which faults can be reported

A step *reports* only some faults if, from states with a property that it keeps, each of its failures is one of these.
The steps of a write are well placed, so whatever uses the identifier of a row finds one that was captured. A write then
fails only where the store does, and an execution only where the store or one of its triggers does. Triggers may set
other fields, whose plans are bound before they are executed, so no request ever finds that no row was captured.

## Contents

* `Reports`, with `Reports.bind`, `Reports.tryCatch`, `Reports.forM`, `Reports.onStore`
* `runWrites_reports`, `execute_reports`, `view_reports` — the faults of a plan
* `Error.IsNoRow`, `Registry.HasRows`, `Request.run_hasRows` — no request reports that no row was captured
-/

namespace GuardedConfig

open Schema

section Reports

variable {σ α β : Type} {I : σ → Prop} {P Q : Error → Prop}

/-- A step keeps a property of states, and reports only some faults. -/
def Reports (I : σ → Prop) (P : Error → Prop) (x : Task σ α) : Prop :=
  ∀ s, I s → I (outcome x s).2 ∧ ∀ e, (outcome x s).1 = .error e → P e

namespace Reports

/-- A step reports only some faults exactly if it is related to itself by them. -/
theorem iff_relates {x : Task σ α} :
    Reports I P x ↔ Relates (fun s t => s = t ∧ I s) (fun e e' s t => (e = e' ∧ P e) ∧ s = t ∧ I s) x x := by
  constructor
  · rintro h s _ ⟨rfl, hs⟩
    obtain ⟨hafter, hfault⟩ := h s hs
    revert hafter hfault
    rcases outcome x s with ⟨e | a, t⟩ <;> intro hafter hfault
    · exact ⟨⟨rfl, hfault e rfl⟩, rfl, hafter⟩
    · exact ⟨rfl, rfl, hafter⟩
  · intro h s hs
    have h := h s s ⟨rfl, hs⟩
    revert h
    rcases outcome x s with ⟨e | a, t⟩ <;> intro h
    · exact ⟨h.2.2, fun e' he => Except.error.inj he ▸ h.1.2⟩
    · exact ⟨h.2.2, fun e' he => nomatch he⟩

theorem mono {x : Task σ α} (h : Reports I P x) (hPQ : ∀ e, P e → Q e) : Reports I Q x :=
  fun s hs => ⟨(h s hs).1, fun e he => hPQ e ((h s hs).2 e he)⟩

theorem pure (a : α) : Reports I P (pure a : Task σ α) := fun _ hs => ⟨hs, fun _ he => nomatch he⟩

theorem throw {e : Error} (h : P e) : Reports I P (throw e : Task σ α) :=
  fun _ hs => ⟨hs, fun _ he => Except.error.inj he ▸ h⟩

theorem bind {x : Task σ α} {f : α → Task σ β} (hx : Reports I P x) (hf : ∀ a, Reports I P (f a)) :
    Reports I P (x >>= f) :=
  iff_relates.2 ((iff_relates.1 hx).bind fun a => iff_relates.1 (hf a))

theorem forM {f : α → Task σ Unit} {l : List α} (h : ∀ a ∈ l, Reports I P (f a)) : Reports I P (l.forM f) :=
  iff_relates.2 (.forM fun a ha => iff_relates.1 (h a ha))

theorem mapM {f : α → Task σ β} (h : ∀ a, Reports I P (f a)) (l : List α) : Reports I P (l.mapM f) := by
  induction l with
  | nil =>
    rw [List.mapM_nil]
    exact pure []
  | cons a l ih =>
    rw [List.mapM_cons]
    exact (h a).bind fun _ => ih.bind fun _ => pure _

/-- A fault may be handled by a step that knows of which kind it is. -/
theorem tryCatch {x : Task σ α} {f : Error → Task σ α} (hx : Reports I P x) (hf : ∀ e, P e → Reports I Q (f e)) :
    Reports I Q (tryCatch x f) := by
  intro s hs
  obtain ⟨hafter, hfault⟩ := hx s hs
  rw [outcome_tryCatch]
  revert hafter hfault
  rcases outcome x s with ⟨e | a, t⟩ <;> intro hafter hfault
  · exact hf e (hfault e rfl) t hafter
  · exact ⟨hafter, fun _ he => nomatch he⟩

/-- A step of the store reports inside a larger state what it reports there. -/
theorem onStore [HasStore σ] {step : Task Store α} (h : Reports (fun _ => True) P step)
    (hkeep : Keeps I I (GuardedConfig.onStore step : Task σ α)) : Reports I P (GuardedConfig.onStore step : Task σ α) :=
  fun s hs => ⟨hkeep.after hs, (h (HasStore.store s) ⟨⟩).2⟩

end Reports

end Reports

/-! ## Faults of the store -/

/-- A fault of the store. -/
def Error.IsStore (e : Error) : Prop := ∃ fault, e = .store fault

namespace Store

/-- A step of the session fails only as a step of the store. -/
theorem onSession_reports {α : Type} (f : Sql.Session → Except Sql.Fault α × Sql.Session) :
    Reports (fun _ => True) Error.IsStore (onSession f) := by
  intro s _
  rw [onSession_outcome]
  rcases f s.session with ⟨fault | a, session⟩
  · exact ⟨⟨⟩, fun e he => ⟨fault, (Except.error.inj he).symm⟩⟩
  · exact ⟨⟨⟩, fun e he => nomatch he⟩

theorem begin_reports : Reports (fun _ => True) Error.IsStore begin := fun _ _ => ⟨⟨⟩, fun _ he => nomatch he⟩

theorem finish_reports {close : String → Task Store Unit}
    (h : ∀ name, Reports (fun _ => True) Error.IsStore (close name)) :
    Reports (fun _ => True) Error.IsStore (finish close) := by
  intro s _
  exact h _ _ ⟨⟩

theorem commit_reports : Reports (fun _ => True) Error.IsStore commit := finish_reports fun _ => onSession_reports _

theorem rollback_reports : Reports (fun _ => True) Error.IsStore rollback :=
  finish_reports fun _ => (onSession_reports _).bind fun _ => onSession_reports _

end Store

/-! ## Faults of a plan -/

namespace Plan

/-- All parameters have values once a row has been captured, or where none is used. -/
theorem exists_resolve {captured : Option Int} {c : Command} (h : captured = none → ¬ c.UsesRow) :
    ∃ values, resolve captured c = .ok values := by
  cases hresolve : resolve captured c with
  | ok values => exact ⟨values, rfl⟩
  | error e =>
    obtain ⟨p, hp, he⟩ := exists_of_mapM_eq_error hresolve
    cases p with
    | value v => cases he
    | capturedRowId =>
      cases captured with
      | some id => cases he
      | none => exact absurd hp (h rfl)

/-- Steps that use no row before one is captured fail only where the store does. -/
theorem runWrites_reports (steps : List WriteStep) : ∀ captured : Option Int,
    (captured = none → ∀ front c back, steps = front ++ .execute c :: back → c.UsesRow → .captureRowId ∈ front) →
      Reports (fun _ => True) Error.IsStore (runWrites captured steps) := by
  induction steps with
  | nil => exact fun _ _ => .pure ()
  | cons step steps ih =>
    intro captured h store _
    refine ⟨⟨⟩, ?_⟩
    cases step with
    | captureRowId =>
      -- from here on a row is captured, so nothing is asked of the later steps
      rw [runWrites_captureRowId]
      exact (ih (some store.lastRowId) (fun hnone => nomatch hnone) store ⟨⟩).2
    | execute c =>
      -- the command itself comes before any capture, so without a captured row it uses none
      have hrest := ih captured fun hcaptured front c' back heq huse => by
        obtain hfirst | hfront := List.mem_cons.1 (h hcaptured (.execute c :: front) c' back (heq ▸ rfl) huse)
        · cases hfirst
        · exact hfront
      obtain ⟨values, hvalues⟩ := exists_resolve fun hcaptured huse =>
        absurd (h hcaptured [] c steps rfl huse) List.not_mem_nil
      rw [runWrites_execute hvalues]
      rcases store.session.perform c.statement values with ⟨fault | result, session⟩
      · exact fun e he => ⟨fault, (Except.error.inj he).symm⟩
      · exact (hrest _ ⟨⟩).2

theorem WellPlaced.runWrites_reports {table : Option Table} {steps : List WriteStep} (h : WellPlaced table steps) :
    Reports (fun _ => True) Error.IsStore (runWrites none steps) :=
  Plan.runWrites_reports steps none fun _ => h.uses

variable {σ : Type} [HasStore σ] {I : σ → Prop} {P : Error → Prop} {p : Plan}

/-- An execution of steps that are well placed reports only faults of the store and of its triggers. -/
theorem execute_reports (hkeep : ∀ step : Task Store Unit, Keeps I I (onStore step : Task σ Unit))
    (hstore : ∀ e, e.IsStore → P e) {table : Option Table} (hplaced : WellPlaced table p.writes)
    (hbound : p.bound = true) {evaluate : Trigger → Task σ Unit} (h : ∀ t ∈ p.triggers, Reports I P (evaluate t)) :
    Reports I P (p.execute evaluate) := by
  have hinside : ∀ {step : Task Store Unit}, Reports (fun _ => True) Error.IsStore step →
      Reports I P (onStore step : Task σ Unit) := fun hstep => .onStore (hstep.mono hstore) (hkeep _)
  unfold execute
  rw [hbound]
  unfold transact
  have hbody := (hinside hplaced.runWrites_reports).bind fun _ => Reports.forM h
  have hundone : ∀ e, P e → Reports I P (do onStore Store.rollback; throw e : Task σ Unit) :=
    fun e he => (hinside Store.rollback_reports).bind fun _ => .throw he
  exact (hinside Store.begin_reports).bind fun _ => (hbody.tryCatch hundone).bind fun _ => hinside Store.commit_reports

/-- Viewing a bound plan fails only where the store does. -/
theorem view_reports (hbound : p.bound = true) : Reports (fun _ => True) Error.IsStore p.view := by
  unfold view
  rw [hbound]
  refine .bind (.mapM (fun c => ?_) p.reads) fun _ => .pure _
  exact .bind (Store.onSession_reports _) fun _ => .pure _

end Plan

/-! ## Faults of requests -/

/-- The fault of a parameter for which no row was captured. -/
def Error.IsNoRow : Error → Prop
  | .binding (.noRowId _) => True
  | _ => False

theorem Error.IsStore.not_isNoRow {e : Error} (h : e.IsStore) : ¬ e.IsNoRow := by
  obtain ⟨fault, rfl⟩ := h
  exact id

namespace Plan

theorem toStored_not_isNoRow {v : Json} {f : Binding.Fault} (h : toStored v = .error f) :
    ¬ (Error.binding f).IsNoRow := by
  cases v <;> cases h <;> exact id

theorem insertRow_not_isNoRow {t : Table} {members : List (String × Json)} {f : Binding.Fault}
    (h : insertRow t members = .error f) : ¬ (Error.binding f).IsNoRow := by
  unfold insertRow at h
  split at h
  · cases h
  · obtain hparams | ⟨params, -, h⟩ := except_bind_eq_error.1 h
    swap
    · cases h
    obtain ⟨⟨name, value⟩, _, hmember⟩ := exists_of_mapM_eq_error hparams
    dsimp only at hmember
    split at hmember
    · exact toStored_not_isNoRow hmember
    · cases hmember
      exact id

theorem memberSteps_not_isNoRow {path table : String} {item : Table} {scalarItems : Bool} {value member : Json}
    {f : Binding.Fault} (h : memberSteps path table item scalarItems value member = .error f) :
    ¬ (Error.binding f).IsNoRow := by
  unfold memberSteps at h
  cases member with
  | obj members =>
    obtain hinsert | ⟨insert, -, h⟩ := except_bind_eq_error.1 h
    · exact insertRow_not_isNoRow hinsert
    · cases h
  | arr _ =>
    cases h
    exact id
  | _ =>
    dsimp only at h
    split at h
    · obtain hinsert | ⟨insert, -, h⟩ := except_bind_eq_error.1 h
      · exact insertRow_not_isNoRow hinsert
      · cases h
    · cases h
      exact id

/-- A value that does not fit is reported as such. -/
theorem writeSteps_not_isNoRow {path : String} {storage : Storage} {value : Json} {f : Binding.Fault}
    (h : writeSteps path storage value = .error f) : ¬ (Error.binding f).IsNoRow := by
  cases storage with
  | scalar table column =>
    simp only [writeSteps] at h
    split at h
    · obtain hstored | ⟨v, -, h⟩ := except_bind_eq_error.1 h
      · exact toStored_not_isNoRow hstored
      · cases h
    · cases h
      exact id
  | reference table column target =>
    cases value with
    | obj members =>
      obtain hinsert | ⟨insert, -, h⟩ := except_bind_eq_error.1 h
      · exact insertRow_not_isNoRow hinsert
      · cases h
    | _ =>
      cases h
      exact id
  | list table item scalarItems =>
    cases value with
    | arr elements =>
      obtain hmembers | ⟨groups, -, h⟩ := except_bind_eq_error.1 h
      · obtain ⟨member, _, hmember⟩ := exists_of_mapM_eq_error hmembers
        exact memberSteps_not_isNoRow hmember
      · cases h
    | _ =>
      cases h
      exact id

theorem bind_not_isNoRow {p : Plan} {value : Json} {e : Error} (h : (p.bind value).1 = .error e) : ¬ e.IsNoRow := by
  unfold bind at h
  cases hsteps : writeSteps p.path p.slot.storage value with
  | ok steps =>
    rw [hsteps] at h
    cases h
  | error f =>
    rw [hsteps] at h
    cases h
    exact writeSteps_not_isNoRow hsteps

/-- A plan that counts as bound has steps that are well placed. -/
theorem Genuine.wellPlaced {p : Plan} (h : p.Genuine) (hbound : p.bound = true) :
    WellPlaced p.slot.storage.rowTable p.writes := by
  obtain ⟨value, hsteps⟩ := h.writeSteps_eq hbound
  exact writeSteps_wellPlaced hsteps

end Plan

namespace Registry

theorem steady_genuine : Steady Genuine where
  store _ _ h := h
  warnings _ _ h := h
  bind _ path p value _ h := genuine_modifyPlan h path fun _ _ => Plan.genuine_bind p value

/-- A step on registries with genuine plans never reports that no row was captured. -/
abbrev HasRows {α : Type} (x : Task Registry α) : Prop := Reports Genuine (fun e => ¬ e.IsNoRow) x

theorem onStore_hasRows {α : Type} {step : Task Store α} (h : Reports (fun _ => True) Error.IsStore step) :
    HasRows (onStore step) :=
  .onStore (h.mono fun _ => Error.IsStore.not_isNoRow) (steady_genuine.onStore step)

theorem expectPlan_bind_hasRows (path : String) {α : Type} {f : Plan → Task Registry α}
    (h : ∀ p, p.Genuine → HasRows (f p)) : HasRows (expectPlan path >>= f) := by
  intro r hr
  rw [outcome_bind, expectPlan_outcome]
  cases hp : lookup path r.plans with
  | none => exact ⟨hr, fun e he => Except.error.inj he ▸ id⟩
  | some p => exact h p (hr path p hp) r hr

theorem getField_hasRows (path : String) : HasRows (getField path) :=
  expectPlan_bind_hasRows path fun _ _ =>
    onStore_hasRows (.bind (Store.onSession_reports _) fun _ => .pure _)

theorem bind_hasRows (path : String) (value : Json) : HasRows (bind path value) := by
  intro r hr
  refine ⟨(steady_genuine.bindValue path value).after hr, fun e he => ?_⟩
  rw [bind_outcome] at he
  cases hp : lookup path r.plans with
  | none =>
    rw [hp] at he
    cases he
    exact id
  | some p =>
    rw [hp] at he
    exact Plan.bind_not_isNoRow he

/-- Triggers find rows if the fields that they set do. -/
theorem run_hasRows {setField : String → Json → Task Registry Unit} (h : ∀ path value, HasRows (setField path value))
    (t : Trigger) : HasRows (Task.of (t.run (host setField))) := by
  apply Reports.iff_relates.2
  refine Trigger.run_relates ⟨?_, ?_, ?_, ?_, ?_⟩ t
  · exact fun _ _ _ _ hst => ⟨⟨rfl, id⟩, hst⟩
  · -- a trigger renames the fault of an unknown field, and no other
    rintro trigger e _ _ _ ⟨⟨rfl, he⟩, hst⟩
    refine ⟨⟨rfl, ?_⟩, hst⟩
    unfold Trigger.lookupError
    split
    · exact id
    · exact he
  · exact fun path => Reports.iff_relates.1 ((getField_hasRows path).bind fun _ => .pure _)
  · exact fun path value => Reports.iff_relates.1 (h path value)
  · rintro _ _ _ _ ⟨rfl, hr⟩
    exact ⟨rfl, hr⟩

/-- A genuine plan is executed with rows for all its parameters, also by the triggers that set fields. -/
theorem execute_hasRows {setField : String → Json → Task Registry Unit}
    (h : ∀ path value, HasRows (setField path value)) {p : Plan} (hp : p.Genuine) :
    HasRows (p.execute fun t => Task.of (t.run (host setField))) := by
  cases hbound : p.bound with
  | false =>
    unfold Plan.execute
    rw [hbound]
    exact .throw id
  | true =>
    exact Plan.execute_reports (fun step => steady_genuine.onStore step) (fun _ => Error.IsStore.not_isNoRow)
      (hp.wellPlaced hbound) hbound fun t _ => run_hasRows h t

/-- Writes may nest: the fields that triggers can still set become fewer each time. -/
theorem setWithin_hasRows (free : List String) (path : String) (value : Json) :
    HasRows (setWithin free path value) := by
  rw [setWithin]
  refine expectPlan_bind_hasRows path fun _ _ => ?_
  split
  · rename_i hfree
    exact (bind_hasRows path value).bind fun _ => expectPlan_bind_hasRows path fun p hp =>
      execute_hasRows (fun path' value' => setWithin_hasRows (without free path) path' value') hp
  · exact .throw id
termination_by free.length
decreasing_by exact length_without_lt ‹_›

end Registry

/-- **No request reports that no row was captured**, and no trigger that it runs. -/
theorem Request.run_hasRows (request : Request) : Registry.HasRows request.run := by
  cases request with
  | bind path value => exact Registry.bind_hasRows path value
  | execute path =>
    intro r hr
    rw [Registry.run_execute_outcome]
    exact Registry.expectPlan_bind_hasRows path
      (fun p hp => Registry.execute_hasRows (Registry.setWithin_hasRows (Registry.without r.paths path)) hp) r hr
  | set path value =>
    intro r hr
    rw [Registry.run_set_outcome]
    exact Registry.setWithin_hasRows r.paths path value r hr

end GuardedConfig
