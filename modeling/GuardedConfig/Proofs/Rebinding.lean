import GuardedConfig.Proofs.InUse

/-!
# `Proofs.Rebinding` — what a request does to the plans of other fields

Undoing a transaction restores the store, and the plans are not in the store. A trigger that sets a field binds the
value to the plan of this field first. If a later trigger refuses, the rows come back, but the plan keeps the value, and
executing it writes that value.

`Traced` is a registry with a note of every value that is bound. Its steps do what the steps of the registry do, and
after any number of them each plan is the one from the beginning with the value that was noted for it last. So a
request, whether or not it fails, leaves exactly those plans alone to which it binds nothing.

## Contents

* `Traced`, `Traced.bind`, `Traced.setWithin`, `Request.runTraced` — steps that note what they bind
* `Plan.rebound` — a plan with a value that was bound last
* `Follows`, `bind_mimics`, `executeWith_mimics`, `setWithin_mimics` — the notes tell what became of the plans
* `request_rebinds`, `refused_value_stays_bound`
-/

namespace GuardedConfig

open Registry Schema

/-- A registry, and the values that have been bound to its plans, each with its path, the newest first. -/
structure Traced where
  registry : Registry
  bindings : List (String × Json) := []

instance : HasStore Traced :=
  ⟨fun m => m.registry.store, fun store m => { m with registry := { m.registry with store } }⟩

namespace Traced

/-! ## Steps that are noted -/

/-- A step of the registry that binds nothing. -/
def onRegistry {α : Type} (step : Task Registry α) : Task Traced α :=
  Task.of fun m =>
    let (a, registry) := step.run.run m.registry
    (a, { m with registry })

/-- Binds a value to the plan of a path, and notes it. -/
def bind (path : String) (value : Json) : Task Traced Unit := do
  let _ ← onRegistry (expectPlan path)
  modify fun m => { m with bindings := (path, value) :: m.bindings }
  onRegistry (Registry.bind path value)

/-- The registry with its notes as the host of triggers, given how fields are set. -/
def host (setField : String → Json → Task Traced Unit) : Trigger.Host Traced where
  get := fun path m => (onRegistry do return Json.arr (← getField path)).run.run m
  set := fun path value m => (setField path value).run.run m
  warn := fun trigger text m =>
    { m with registry := { m.registry with warnings := m.registry.warnings ++ [(trigger, text)] } }

/-- Executes the plan of a path, given how its triggers set fields. -/
def executeWith (setField : String → Json → Task Traced Unit) (path : String) : Task Traced Unit := do
  let p ← onRegistry (expectPlan path)
  p.execute fun t => Task.of (t.run (host setField))

/-- Sets a field while only some are free. -/
def setWithin (free : List String) (path : String) (value : Json) : Task Traced Unit := do
  let _ ← onRegistry (expectPlan path)
  if _h : path ∈ free then
    bind path value
    executeWith (fun path' value' => setWithin (without free path) path' value') path
  else throw (.binding (.inUse path))
termination_by free.length
decreasing_by exact length_without_lt ‹_›

end Traced

/-- What a registry does for a request, with a note of what is bound. -/
def Request.runTraced : Request → Task Traced Unit
  | .bind path value => Traced.bind path value
  | .execute path => do
    let free := without (← get).registry.paths path
    Traced.executeWith (Traced.setWithin free) path
  | .set path value => do Traced.setWithin (← get).registry.paths path value

/-! ## Plans and the values bound to them -/

/-- The plan after a value has been bound to it, if any. -/
def Plan.rebound (p : Plan) : Option Json → Plan
  | some value => (p.bind value).2
  | none => p

/-- Of the values that are bound to a plan, the last one alone counts. -/
theorem Plan.bind_rebound (p : Plan) (last : Option Json) (value : Json) :
    (p.rebound last).bind value = p.bind value := by
  cases last with
  | none => rfl
  | some earlier =>
    unfold rebound
    unfold bind
    dsimp only [path]
    cases writeSteps p.slot.path p.slot.storage earlier <;> rfl

namespace Traced

/-- A registry that began as `before` and the same with notes: each plan is the one from the beginning, rebound to the
value that was noted last for its path. -/
def Follows (before : Registry) (m : Traced) (r : Registry) : Prop :=
  m.registry = r ∧
    ∀ path, lookup path r.plans = (lookup path before.plans).map fun p => p.rebound (lookup path m.bindings)

variable {before : Registry}

theorem onRegistry_outcome {α : Type} (step : Task Registry α) (m : Traced) :
    outcome (onRegistry step) m = ((outcome step m.registry).1, { m with registry := (outcome step m.registry).2 }) :=
  rfl

/-- A step that leaves the plans alone needs no note. -/
theorem onRegistry_mimics {α : Type} {step : Task Registry α} (h : ∀ r, (outcome step r).2.plans = r.plans) :
    Mimics (Follows before) (onRegistry step) step := by
  rintro m r ⟨rfl, hplans⟩
  rw [onRegistry_outcome]
  apply Mimics.end_iff.2
  refine ⟨rfl, rfl, fun path => ?_⟩
  dsimp only
  rw [h]
  exact hplans path

theorem plans_expectPlan (path : String) (r : Registry) : (outcome (expectPlan path) r).2.plans = r.plans := by
  rw [expectPlan_outcome]
  cases lookup path r.plans <;> rfl

theorem onStore_mimics {α : Type} (step : Task Store α) :
    Mimics (Follows before) (onStore step) (onStore step) := by
  have hplans : ∀ r : Registry, (outcome (onStore step) r).2.plans = r.plans := fun r => by rw [onStore_outcome]
  exact onRegistry_mimics hplans

/-- Reading a field leaves all plans alone. -/
theorem getField_mimics (path : String) :
    Mimics (Follows before) (onRegistry do return Json.arr (← getField path)) (do return Json.arr (← getField path)) := by
  apply onRegistry_mimics
  intro r
  rw [outcome_bind]
  unfold getField
  rw [outcome_bind, expectPlan_outcome]
  cases lookup path r.plans with
  | none => rfl
  | some p =>
    dsimp only
    rw [onStore_outcome]
    rcases outcome (Plan.readRows (Plan.readCommand p.slot.storage)) r.store with ⟨e | rows, store⟩ <;> rfl

/-- The one step that changes plans: the plan of the path is rebound, whether or not the value fits. -/
theorem bind_mimics (path : String) (value : Json) :
    Mimics (Follows before) (bind path value) (Registry.bind path value) := by
  rintro m r ⟨rfl, hplans⟩
  unfold bind
  rw [outcome_bind, onRegistry_outcome, expectPlan_outcome, bind_outcome]
  cases hp : lookup path m.registry.plans with
  | none => exact ⟨rfl, rfl, hplans⟩
  | some p =>
    dsimp only
    rw [outcome_bind_ok (outcome_modify ..), onRegistry_outcome, bind_outcome, hp]
    apply Mimics.end_iff.2
    refine ⟨rfl, rfl, fun other => ?_⟩
    dsimp only
    rw [lookup_modifyPlan, lookup]
    by_cases ho : other = path
    · subst ho
      -- what had been bound to the plan before does not matter any more
      obtain ⟨q, hq, rfl⟩ := Option.map_eq_some_iff.1 ((hplans other).symm.trans hp)
      rw [if_pos rfl, if_pos rfl, hp, hq, Option.map_some, Option.map_some, Plan.bind_rebound]
      rfl
    · rw [if_neg ho, if_neg (Ne.symm ho)]
      exact hplans other

/-- Triggers see the same with and without notes if they set fields alike. -/
theorem host_relates {f : String → Json → Task Traced Unit} {g : String → Json → Task Registry Unit}
    (h : ∀ path value, Mimics (Follows before) (f path value) (g path value)) :
    (host f).Relates (Follows before) (fun e e' m r => e = e' ∧ Follows before m r) (Registry.host g) where
  fails _ _ _ _ hmr := ⟨rfl, hmr⟩
  renames trigger _ _ _ _ hend := ⟨congrArg (Trigger.lookupError trigger) hend.1, hend.2⟩
  get := getField_mimics
  set := h
  warn := by
    rintro trigger text m r ⟨rfl, hplans⟩
    exact ⟨rfl, hplans⟩

theorem executeWith_mimics {f : String → Json → Task Traced Unit} {g : String → Json → Task Registry Unit}
    (h : ∀ path value, Mimics (Follows before) (f path value) (g path value)) (path : String) :
    Mimics (Follows before) (executeWith f path) (Registry.executeWith g path) := by
  apply (onRegistry_mimics (plans_expectPlan path)).bind
  intro p
  exact Plan.execute_mimics onStore_mimics p fun t => Trigger.run_relates (host_relates h) t

/-- Writes may nest: the fields that triggers can still set become fewer each time. -/
theorem setWithin_mimics (free : List String) (path : String) (value : Json) :
    Mimics (Follows before) (setWithin free path value) (Registry.setWithin free path value) := by
  rw [setWithin, Registry.setWithin]
  apply (onRegistry_mimics (plans_expectPlan path)).bind
  intro p
  by_cases hfree : path ∈ free
  · rw [dif_pos hfree, dif_pos hfree]
    apply (bind_mimics path value).bind
    intro _
    exact executeWith_mimics (fun path' value' => setWithin_mimics (without free path) path' value') path
  · rw [dif_neg hfree, dif_neg hfree]
    exact .throw fun _ _ hmr => ⟨rfl, hmr⟩
termination_by free.length
decreasing_by exact length_without_lt hfree

/-- Nothing has been noted in the beginning. -/
theorem follows_refl (r : Registry) : Follows r ⟨r, []⟩ r := by
  refine ⟨rfl, fun path => ?_⟩
  cases lookup path r.plans <;> rfl

end Traced

open Traced

theorem Request.runTraced_mimics {before : Registry} (request : Request) :
    Mimics (Follows before) request.runTraced request.run := by
  cases request with
  | bind path value => exact bind_mimics path value
  | execute path =>
    rintro m r ⟨rfl, hplans⟩
    rw [run_execute_outcome, Request.runTraced, outcome_bind_ok (outcome_get m)]
    exact executeWith_mimics (setWithin_mimics _) path m m.registry ⟨rfl, hplans⟩
  | set path value =>
    rintro m r ⟨rfl, hplans⟩
    rw [run_set_outcome, Request.runTraced, outcome_bind_ok (outcome_get m)]
    exact setWithin_mimics _ path value m m.registry ⟨rfl, hplans⟩

/-- **What a request leaves in the plans.** Some values are bound on its way, by the request itself and by the triggers
that it runs. Whether or not the request fails, every plan is then the one from before, rebound to the last of the
values for its path; so the plans of all other paths are as before. -/
theorem request_rebinds (request : Request) (r : Registry) :
    ∃ bindings : List (String × Json),
      outcome request.runTraced ⟨r, []⟩ = ((outcome request.run r).1, ⟨(outcome request.run r).2, bindings⟩) ∧
      (∀ path, lookup path (outcome request.run r).2.plans =
        (lookup path r.plans).map fun p => p.rebound (lookup path bindings)) ∧
      ∀ path, (∀ binding ∈ bindings, binding.1 ≠ path) →
        lookup path (outcome request.run r).2.plans = lookup path r.plans := by
  obtain ⟨hresult, hregistry, hplans⟩ := Mimics.end_iff.1 (request.runTraced_mimics _ r (follows_refl r))
  refine ⟨(outcome request.runTraced ⟨r, []⟩).2.bindings, ?_, hplans, fun path hpath => ?_⟩
  · rw [← hresult, ← hregistry]
  · rw [hplans path, lookup_eq_none.2 hpath]
    cases lookup path r.plans <;> rfl

/-! ### A refusal that comes too late -/

/-- Two configs; whenever a field of the first one is written, a trigger sets the field of the second one and then
refuses. -/
def settingRefusal : Artifact where
  fingerprint := ""
  declarations := {
    configs := [⟨"C", "a INTEGER"⟩, ⟨"D", "b INTEGER"⟩]
    triggers := [⟨"t", "C", "SET(\"D.b\", 5); return false;"⟩] }

/-- Setting the field of the first config is refused and leaves the rows as they were. But the value that the trigger
has set stays bound to the other field, which had not been bound before, and executing that field writes it. -/
theorem refused_value_stays_bound : ∃ r after, Registry.load settingRefusal (.ofContent {}) = (.ok r, after) ∧
    let refused := outcome (Request.set "C.a" (.int 1)).run r
    let later := outcome (Request.execute "D.b").run refused.2
    refused.1.isOk = false ∧ refused.2.store.content.rowsOf "D" = r.store.content.rowsOf "D" ∧
      (lookup "D.b" r.plans).map (·.bound) = some false ∧
      (lookup "D.b" refused.2.plans).map (·.bound) = some true ∧
      (outcome (Request.execute "D.b").run r).1.isOk = false ∧
      later.1.isOk = true ∧ later.2.store.content.rowsOf "D" = [⟨1, [.integer 1, .integer 5]⟩] :=
  Registry.exists_of_load (by decide +kernel)

end GuardedConfig
