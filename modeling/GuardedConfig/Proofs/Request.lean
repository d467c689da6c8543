import GuardedConfig.Proofs.Outcome
import GuardedConfig.Registry

/-!
# `Proofs.Request` — requests, and plans as binding leaves them

A registry is asked from outside to bind, execute or set a field. Whatever the requests, a plan that counts as
bound has exactly the steps of a value that was bound to it, so its steps are insertions, changes and deletions.

## Contents

* `Request`, `Request.run`, `Request.path`
* `Plan.Genuine`, `Registry.Genuine` — plans are as binding leaves them
* `bind_outcome`, `executeWith_outcome`, `setWithin_outcome` — what requests do, in terms of plans
-/

namespace GuardedConfig

open Schema

/-- A request from outside. -/
inductive Request where
  | bind (path : String) (value : Json)
  | execute (path : String)
  | set (path : String) (value : Json)
deriving Repr

/-- What a registry does for a request. -/
def Request.run : Request → Task Registry Unit
  | .bind path value => Registry.bind path value
  | .execute path => Registry.execute path
  | .set path value => Registry.setField path value

/-- The path that a request is about. -/
def Request.path : Request → String
  | .bind path _ | .execute path | .set path _ => path

/-! ## Genuine plans -/

namespace Plan

/-- If a plan counts as bound, it is as binding some value leaves it. -/
def Genuine (p : Plan) : Prop := p.bound = true → ∃ value, p.bind value = (.ok (), p)

/-- A plan that has just been bound is genuine, whatever it was before. -/
theorem genuine_bind (p : Plan) (value : Json) : (p.bind value).2.Genuine := by
  intro hb
  refine ⟨value, ?_⟩
  unfold bind at hb ⊢
  dsimp only [path] at hb ⊢
  cases hw : writeSteps p.slot.path p.slot.storage value with
  | ok writes => simp [hw]
  | error f => simp [hw] at hb

/-- Binding leaves a plan with its slot. -/
theorem slot_bind (p : Plan) (value : Json) : (p.bind value).2.slot = p.slot := by
  unfold bind
  cases writeSteps p.path p.slot.storage value <;> rfl

/-- The steps of a bound plan are those of a value. -/
theorem Genuine.writeSteps_eq {p : Plan} (h : p.Genuine) (hb : p.bound = true) :
    ∃ value, writeSteps p.path p.slot.storage value = .ok p.writes := by
  obtain ⟨value, hv⟩ := h hb
  refine ⟨value, ?_⟩
  unfold bind at hv
  cases hw : writeSteps p.path p.slot.storage value with
  | ok writes =>
    rw [hw] at hv
    exact congrArg (fun q => Except.ok q.2.writes) hv
  | error f => simp [hw] at hv

/-- A bound plan is read by the query of its slot. -/
theorem Genuine.reads_eq {p : Plan} (h : p.Genuine) (hb : p.bound = true) : p.reads = [readCommand p.slot.storage] := by
  obtain ⟨value, hv⟩ := h hb
  unfold bind at hv
  cases hw : writeSteps p.path p.slot.storage value with
  | ok writes =>
    rw [hw] at hv
    exact (congrArg (fun q => q.2.reads) hv).symm
  | error f => simp [hw] at hv

end Plan

namespace Registry

/-- All plans are genuine. -/
def Genuine (r : Registry) : Prop := ∀ path p, lookup path r.plans = some p → p.Genuine

theorem expectPlan_outcome (path : String) (r : Registry) :
    outcome (expectPlan path) r =
      match lookup path r.plans with
      | some p => (.ok p, r)
      | none => (.error (.unknownField path), r) := by
  unfold expectPlan
  rw [outcome_bind_ok (outcome_get r)]
  cases lookup path r.plans <;> rfl

theorem onStore_outcome {α : Type} (step : Task Store α) (r : Registry) :
    outcome (onStore step) r = ((outcome step r.store).1, { r with store := (outcome step r.store).2 }) := rfl

theorem store_modifyPlan (r : Registry) (path : String) (f : Plan → Plan) : (r.modifyPlan path f).store = r.store := by
  unfold modifyPlan
  cases lookup path r.plans <;> rfl

theorem paths_modifyPlan (r : Registry) (path : String) (f : Plan → Plan) : (r.modifyPlan path f).paths = r.paths := by
  unfold modifyPlan
  cases lookup path r.plans <;> rfl

theorem configs_modifyPlan (r : Registry) (path : String) (f : Plan → Plan) :
    (r.modifyPlan path f).configs = r.configs := by
  unfold modifyPlan
  cases lookup path r.plans <;> rfl

/-- Changing the plan of a path changes no other plan, and adds none. -/
theorem lookup_modifyPlan (r : Registry) (path other : String) (f : Plan → Plan) :
    lookup other (r.modifyPlan path f).plans =
      if other = path then (lookup path r.plans).map f else lookup other r.plans := by
  unfold modifyPlan
  cases hp : lookup path r.plans with
  | none =>
    dsimp only
    split
    · subst other
      exact hp
    · rfl
  | some p =>
    dsimp only
    split
    · subst other
      exact lookup_assign_self ..
    · rename_i hne
      exact lookup_assign_of_ne hne ..

/-- After a plan has been changed, every plan is one from before or the changed one. -/
theorem lookup_modifyPlan_eq_some {r : Registry} {path other : String} {f : Plan → Plan} {q : Plan}
    (h : lookup other (r.modifyPlan path f).plans = some q) :
    ∃ p, lookup other r.plans = some p ∧ (q = p ∨ other = path ∧ q = f p) := by
  rw [lookup_modifyPlan] at h
  split at h
  · rename_i heq
    obtain ⟨p, hp, rfl⟩ := Option.map_eq_some_iff.1 h
    exact ⟨p, heq ▸ hp, .inr ⟨heq, rfl⟩⟩
  · exact ⟨q, h, .inl rfl⟩

/-- Binding replaces the plan of a path, whether or not the value fits. -/
theorem bind_outcome (path : String) (value : Json) (r : Registry) :
    outcome (bind path value) r =
      match lookup path r.plans with
      | some p => ((p.bind value).1, r.modifyPlan path fun _ => (p.bind value).2)
      | none => (.error (.unknownField path), r) := by
  unfold bind
  rw [outcome_bind, expectPlan_outcome]
  cases lookup path r.plans <;> rfl

/-- What happens inside the transaction of a plan: its writes, and then its triggers in their order. -/
def writeBody (setField : String → Json → Task Registry Unit) (p : Plan) : Task Registry Unit := do
  onStore (Plan.runWrites none p.writes)
  p.triggers.forM fun t => Task.of (t.run (host setField))

/-- A field is executed as a transaction, if a value is bound to it. -/
theorem executeWith_outcome (setField : String → Json → Task Registry Unit) (path : String) (r : Registry) :
    outcome (executeWith setField path) r =
      match lookup path r.plans with
      | some p =>
        if p.bound then outcome (Plan.transact (writeBody setField p)) r
        else (.error (.binding (.notBound p.path "executed")), r)
      | none => (.error (.unknownField path), r) := by
  unfold executeWith
  rw [outcome_bind, expectPlan_outcome]
  cases lookup path r.plans with
  | none => rfl
  | some p =>
    dsimp only
    unfold Plan.execute
    cases p.bound <;> rfl

/-- A field that is free is bound and executed, where its triggers can set only the others. -/
theorem setWithin_outcome (free : List String) (path : String) (value : Json) (r : Registry) :
    outcome (setWithin free path value) r =
      match lookup path r.plans with
      | some _ =>
        if path ∈ free then
          outcome (bind path value >>= fun _ => executeWith (setWithin (without free path)) path : Task Registry Unit) r
        else (.error (.binding (.inUse path)), r)
      | none => (.error (.unknownField path), r) := by
  rw [setWithin, outcome_bind, expectPlan_outcome]
  cases lookup path r.plans with
  | none => rfl
  | some p =>
    dsimp only
    split <;> rfl

theorem run_execute_outcome (path : String) (r : Registry) :
    outcome (Request.execute path).run r = outcome (executeWith (setWithin (without r.paths path)) path) r :=
  outcome_bind_ok (outcome_get r)

theorem run_set_outcome (path : String) (value : Json) (r : Registry) :
    outcome (Request.set path value).run r = outcome (setWithin r.paths path value) r :=
  outcome_bind_ok (outcome_get r)

theorem genuine_modifyPlan {r : Registry} (h : r.Genuine) (path : String) {f : Plan → Plan}
    (hf : ∀ p, p.Genuine → (f p).Genuine) : (r.modifyPlan path f).Genuine := by
  intro other q hq
  obtain ⟨p, hp, rfl | ⟨-, rfl⟩⟩ := lookup_modifyPlan_eq_some hq
  · exact h other q hp
  · exact hf p (h other p hp)

end Registry

end GuardedConfig
