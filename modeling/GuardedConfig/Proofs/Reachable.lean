import GuardedConfig.Proofs.Interpreter
import GuardedConfig.Proofs.Request
import GuardedConfig.Proofs.Steps

/-!
# `Proofs.Reachable` — the registries that loading and requests lead to

A registry is reached by loading an artifact and then making requests, each of which may fail. What is kept by
the statements and the transactions of a store is kept by every request, since a request does nothing else to a
store; what binding keeps of the plans stays as well, and plans stay genuine.

## Contents

* `Store.Kept` — a property that neither statements about rows nor transactions change
* `Plan.Kept` — a property of plans that binding does not change
* `Request.run_keeps` — by recursion on the fields that are free
* `register_unknown`, `register_known`, `register_keeps_of` — what registering a trigger does, and what it keeps
* `genuine_of_load`, `exists_of_load`
* `Registry.Reachable`, `Reachable.genuine`
-/

namespace GuardedConfig

open Registry Schema

/-- A property of stores that neither statements about rows nor the beginning and the end of transactions change. -/
structure Store.Kept (K : Store → Prop) : Prop where
  begin : Keeps K K Store.begin
  commit : Keeps K K Store.commit
  rollback : Keeps K K Store.rollback
  perform : ∀ statement, Sql.Statement.isOnRows statement = true → ∀ params,
    Keeps K K (Store.perform statement params)

theorem Store.Kept.trivial : Store.Kept fun _ => True :=
  ⟨.trivial _, .trivial _, .trivial _, fun _ _ _ => .trivial _⟩

/-- A property of plans that does not change when a value is bound to one of them. -/
def Plan.Kept (P : List (String × Plan) → Prop) : Prop :=
  ∀ plans path p value, lookup path plans = some p → P plans → P (assign path (p.bind value).2 plans)

theorem Plan.Kept.trivial : Plan.Kept fun _ => True := fun _ _ _ _ _ _ => ⟨⟩

namespace Registry

variable {K : Store → Prop} {P : List (String × Plan) → Prop}

/-- A registry whose store has a property, and whose plans are genuine and have a property as well. -/
structure On (K : Store → Prop) (P : List (String × Plan) → Prop) (r : Registry) : Prop where
  genuine : r.Genuine
  store : K r.store
  plans : P r.plans

theorem onStore_keeps {α : Type} {step : Task Store α} (h : Keeps K K step) : Keeps (On K P) (On K P) (onStore step) := by
  intro r hr
  have hs := h r.store hr.store
  show EndIn _ _ (let (a, store) := outcome step r.store; (a, { r with store }))
  revert hs
  rcases outcome step r.store with ⟨_ | a, s⟩ <;> intro hs
  · exact ⟨hr.genuine, hs, hr.plans⟩
  · exact ⟨hr.genuine, hs, hr.plans⟩

/-- The plan of a path is genuine. -/
theorem expectPlan_bind_keeps (path : String) {α : Type} {f : Plan → Task Registry α}
    (h : ∀ p, p.Genuine → Keeps (On K P) (On K P) (f p)) : Keeps (On K P) (On K P) (expectPlan path >>= f) := by
  intro r hr
  rw [outcome_bind, expectPlan_outcome]
  cases hp : lookup path r.plans with
  | none => exact hr
  | some p => exact h p (hr.genuine path p hp) r hr

theorem bind_keeps (hp : Plan.Kept P) (path : String) (value : Json) : Keeps (On K P) (On K P) (Registry.bind path value) := by
  intro r hr
  rw [bind_outcome]
  cases hlookup : lookup path r.plans with
  | none => exact hr
  | some p =>
    have hm : On K P (r.modifyPlan path fun _ => (p.bind value).2) := by
      refine ⟨genuine_modifyPlan hr.genuine path fun _ _ => Plan.genuine_bind p value,
        by rw [store_modifyPlan]; exact hr.store, ?_⟩
      unfold modifyPlan
      rw [hlookup]
      exact hp r.plans path p value hlookup hr.plans
    dsimp only
    rcases (p.bind value).1 with e | ⟨⟩ <;> exact hm

/-- A transaction keeps what its beginning, its step and its end keep. -/
theorem transact_keeps (hk : Store.Kept K) {step : Task Registry Unit} (h : Keeps (On K P) (On K P) step) :
    Keeps (On K P) (On K P) (Plan.transact step) := by
  unfold Plan.transact
  refine (onStore_keeps hk.begin).bind fun _ => ?_
  have handled : Keeps (On K P) (On K P) (tryCatch step fun e => do
      onStore Store.rollback
      throw e) := by
    intro r hr
    rw [outcome_tryCatch]
    have hs := h r hr
    revert hs
    rcases outcome step r with ⟨e | ⟨⟩, r'⟩ <;> intro hs
    · exact ((onStore_keeps hk.rollback).bind fun _ => .throw (fun _ h => h) e) r' hs
    · exact hs
  exact handled.bind fun _ => onStore_keeps hk.commit

theorem runWrites_keeps (hk : Store.Kept K) {writes : List Plan.WriteStep} (hw : ∀ step ∈ writes, step.OnRows)
    (captured : Option Int) : Keeps K K (Plan.runWrites captured writes) := by
  induction writes generalizing captured with
  | nil => exact .pure _
  | cons step writes ih =>
    have ih := fun captured => ih (fun step hs => hw step (List.mem_cons_of_mem _ hs)) captured
    cases step with
    | captureRowId => exact Keeps.get.bind fun s => ih (some s.lastRowId)
    | execute c =>
      rw [Plan.runWrites]
      exact (Keeps.ofExcept (fun _ h => h) _).bind fun params =>
        (hk.perform c.statement (hw _ (List.mem_cons_self ..)) params).bind fun _ => ih captured

/-- Executing a field keeps what the store and the way in which triggers set fields keep. -/
theorem executeWith_keeps (hk : Store.Kept K) {setField : String → Json → Task Registry Unit}
    (h : ∀ path value, Keeps (On K P) (On K P) (setField path value)) (path : String) :
    Keeps (On K P) (On K P) (executeWith setField path) := by
  have hhost : (host setField).Keeps (On K P) (On K P) := {
    fails := fun _ h => h
    get := fun path => (expectPlan_bind_keeps path fun p _ =>
      onStore_keeps ((hk.perform (Plan.readCommand p.slot.storage).statement rfl []).bind fun _ => .pure _)).bind
        fun _ => .pure _
    set := h
    warn := fun trigger text r hr => ⟨hr.genuine, hr.store, hr.plans⟩ }
  intro r hr
  rw [executeWith_outcome]
  cases hp : lookup path r.plans with
  | none => exact hr
  | some p =>
    dsimp only
    split
    · rename_i hbound
      obtain ⟨value, hw⟩ := (hr.genuine path p hp).writeSteps_eq hbound
      refine transact_keeps hk ?_ r hr
      exact (onStore_keeps (runWrites_keeps hk (Plan.writeSteps_onRows hw) none)).bind fun _ =>
        .forM fun t _ => Trigger.run_keeps hhost t
    · exact hr

theorem setWithin_keeps (hk : Store.Kept K) (hp : Plan.Kept P) (free : List String) (path : String) (value : Json) :
    Keeps (On K P) (On K P) (setWithin free path value) := by
  rw [setWithin]
  refine expectPlan_bind_keeps path fun p _ => ?_
  split
  · rename_i hfree
    exact (bind_keeps hp path value).bind fun _ =>
      executeWith_keeps hk (fun path' value' => setWithin_keeps hk hp _ path' value') path
  · exact .throw (fun _ h => h) _
termination_by free.length
decreasing_by exact length_without_lt ‹_›

end Registry

/-- What statements and transactions keep of the store and binding keeps of the plans, a request keeps, whether or not
it succeeds. -/
theorem Request.run_keeps {K : Store → Prop} {P : List (String × Plan) → Prop} (hk : Store.Kept K) (hp : Plan.Kept P)
    (request : Request) : Keeps (Registry.On K P) (Registry.On K P) request.run := by
  cases request with
  | bind path value => exact bind_keeps hp path value
  | execute path =>
    exact Keeps.get.bind fun r => executeWith_keeps hk (fun path' value' => setWithin_keeps hk hp _ path' value') path
  | set path value => exact Keeps.get.bind fun r => setWithin_keeps hk hp r.paths path value

/-! ## Loading -/

theorem Plan.Genuine.attach {p : Plan} (h : p.Genuine) (t : Trigger) : (p.attach t).Genuine := by
  intro hb
  obtain ⟨value, hv⟩ := h hb
  refine ⟨value, ?_⟩
  unfold bind at hv ⊢
  rw [show writeSteps (p.attach t).path (p.attach t).slot.storage value = writeSteps p.path p.slot.storage value from rfl]
  cases hw : writeSteps p.path p.slot.storage value with
  | ok writes =>
    rw [hw] at hv
    exact congrArg (fun q : Except Error Unit × Plan => (q.1, q.2.attach t)) hv
  | error f => simp [hw] at hv

namespace Registry

section Register

variable {r : Registry} {t : Trigger}

/-- A trigger for something that is not a config is refused. -/
theorem register_unknown (h : t.condition ∉ r.configs) :
    outcome (register t) r = (.error (.compile (.unknownCondition t.name t.condition)), r) := by
  unfold register
  rw [outcome_bind_ok (outcome_get r)]
  have hunknown : (!r.configs.contains t.condition) = true := by simpa using h
  dsimp only
  rw [if_pos hunknown]
  rfl

theorem register_known (h : t.condition ∈ r.configs) :
    outcome (register t) r = (.ok (r.pathsOf t.condition).length,
      { (r.pathsOf t.condition).foldl (fun r path => r.modifyPlan path (·.attach t)) r with
        triggers := r.triggers ++ [t] }) := by
  unfold register
  rw [outcome_bind_ok (outcome_get r)]
  have hknown : ¬ (!r.configs.contains t.condition) = true := by simpa using h
  dsimp only
  rw [if_neg hknown]
  rfl

/-- Changing plans changes nothing but the plans. -/
theorem modifyPlans_eq (f : Plan → Plan) (paths : List String) (r : Registry) :
    ∃ plans, paths.foldl (fun r path => r.modifyPlan path f) r = { r with plans } := by
  induction paths generalizing r with
  | nil => exact ⟨r.plans, rfl⟩
  | cons path paths ih =>
    obtain ⟨plans, hplans⟩ := ih (r.modifyPlan path f)
    refine ⟨plans, hplans.trans ?_⟩
    unfold modifyPlan
    cases lookup path r.plans <;> rfl

/-- Registering a trigger keeps what attaching it to a plan keeps, if the list of all triggers does not matter for it. -/
theorem register_keeps_of {I : Registry → Prop} (hattach : ∀ r path, I r → I (r.modifyPlan path (·.attach t)))
    (htriggers : ∀ r triggers, I r → I { r with triggers }) : Keeps I I (register t) := by
  have hfold : ∀ (paths : List String) r, I r → I (paths.foldl (fun r path => r.modifyPlan path (·.attach t)) r) := by
    intro paths
    induction paths with
    | nil => exact fun _ hr => hr
    | cons path paths ih => exact fun r hr => ih _ (hattach r path hr)
  intro r hr
  by_cases ht : t.condition ∈ r.configs
  · rw [register_known ht]
    exact htriggers _ _ (hfold _ r hr)
  · rw [register_unknown ht]
    exact hr

end Register

/-- The plans of a schema have not been bound. -/
theorem genuine_ofSchema (store : Store) (schema : CompiledSchema) : (ofSchema store schema).Genuine := by
  suffices h : ∀ (slots : List Slot) (plans : List (String × Plan)),
      (∀ path p, lookup path plans = some p → p.Genuine) →
      ∀ path p, lookup path (slots.foldl (fun plans slot => assign slot.path { slot } plans) plans) = some p →
        p.Genuine from h schema.slots [] fun _ _ h => nomatch h
  intro slots
  induction slots with
  | nil => exact fun _ h => h
  | cons slot slots ih =>
    intro plans h
    refine ih _ fun path p hp => ?_
    by_cases hs : path = slot.path
    · rw [hs, lookup_assign_self] at hp
      cases hp
      exact fun hb => nomatch hb
    · rw [lookup_assign_of_ne hs] at hp
      exact h path p hp

/-- Registering a trigger attaches it to plans and changes nothing else of them. -/
theorem register_keeps (t : Trigger) : Keeps Genuine Genuine (register t) :=
  register_keeps_of (fun _ path h => genuine_modifyPlan h path fun _ hp => hp.attach t) fun _ _ h => h

/-- What is loaded has genuine plans. -/
theorem genuine_of_load {a : Artifact} {store after : Store} {r : Registry} (h : load a store = (.ok r, after)) :
    r.Genuine := by
  unfold load at h
  cases hp : prepare a.declarations with
  | error e => simp [hp] at h
  | ok prepared =>
    obtain ⟨schema, triggers⟩ := prepared
    simp only [hp] at h
    split at h
    · simp at h
    · rename_i installed _
      let r₀ : Registry :=
        { ofSchema installed schema with slices := a.declarations.slices, metadata := a.metadata }
      have hk : Keeps Genuine Genuine (triggers.forM fun t => do let _ ← register t : Task Registry Unit) :=
        .forM fun t _ => (register_keeps t).bind fun _ => .pure _
      have hr := hk r₀ (genuine_ofSchema installed schema)
      split at h
      · rename_i r' heq
        rw [show outcome (triggers.forM fun t => do let _ ← register t : Task Registry Unit) r₀ = _ from heq] at hr
        cases h
        exact hr
      · simp at h

/-- What holds of the registry that loading gives. -/
theorem exists_of_load {a : Artifact} {store : Store} {P : Registry → Prop} [DecidablePred P]
    (h : (load a store).1.toOption.any (fun r => decide (P r)) = true) :
    ∃ r after, load a store = (.ok r, after) ∧ P r := by
  revert h
  rcases load a store with ⟨e | r, after⟩ <;> intro h
  · cases h
  · exact ⟨r, after, rfl, of_decide_eq_true h⟩

/-! ## Reachable registries -/

/-- A registry is reached by loading an artifact on a store and then making requests, each of which succeeds or
fails. -/
inductive Reachable (a : Artifact) (store : Store) : Registry → Prop where
  | load {r : Registry} {after : Store} : load a store = (.ok r, after) → Reachable a store r
  | request {r : Registry} (request : Request) : Reachable a store r → Reachable a store (outcome request.run r).2

/-- What holds of a loaded registry and is kept by requests holds of all that are reached. -/
theorem Reachable.of_keeps {a : Artifact} {store : Store} {I : Registry → Prop}
    (hload : ∀ r after, Registry.load a store = (.ok r, after) → I r) (hkeep : ∀ request : Request, Keeps I I request.run)
    {r : Registry} (h : Reachable a store r) : I r := by
  induction h with
  | load h => exact hload _ _ h
  | request request _ ih => exact (hkeep request).after ih

theorem Reachable.genuine {a : Artifact} {store : Store} {r : Registry} (h : Reachable a store r) : r.Genuine :=
  (Reachable.of_keeps (I := On (fun _ => True) fun _ => True) (fun _ _ h => ⟨genuine_of_load h, ⟨⟩, ⟨⟩⟩)
    (Request.run_keeps Store.Kept.trivial Plan.Kept.trivial) h).genuine

end Registry

end GuardedConfig
