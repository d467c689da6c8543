import GuardedConfig.Proofs.Interpreter
import GuardedConfig.Proofs.Request

/-!
# `Proofs.Steady` — what requests leave alone

A request changes the store, and it binds values to plans; so does a trigger that is run, which can also warn.
Everything else about a registry stays: its paths, its configs, and the slot and the triggers of each plan. A property
of this kind is kept by each step of the registry, and so by all that requests and triggers do, however their writes
nest.

## Contents

* `Plan.transact_mimics`, `Plan.execute_mimics`, `Plan.execute_keeps` — transactions, by what happens inside
* `Registry.Steady`, `Steady.setWithin`, `Steady.request`, `Steady.evaluate`
-/

namespace GuardedConfig

open Schema

/-! ## Transactions -/

namespace Plan

variable {σ τ : Type} [HasStore σ] [HasStore τ] {R : σ → τ → Prop}

/-- Transactions on two kinds of states are the same if steps of the store are the same, and the steps inside. -/
theorem transact_mimics
    (hstore : ∀ step : Task Store Unit, Mimics R (onStore step : Task σ Unit) (onStore step : Task τ Unit))
    {x : Task σ Unit} {y : Task τ Unit} (h : Mimics R x y) : Mimics R (transact x) (transact y) :=
  (hstore Store.begin).bind fun _ =>
    (h.tryCatch fun _ => (hstore Store.rollback).bind fun _ => .throw fun _ _ hst => ⟨rfl, hst⟩).bind fun _ =>
      hstore Store.commit

theorem execute_mimics
    (hstore : ∀ step : Task Store Unit, Mimics R (onStore step : Task σ Unit) (onStore step : Task τ Unit))
    (p : Plan) {f : Trigger → Task σ Unit} {g : Trigger → Task τ Unit} (h : ∀ t, Mimics R (f t) (g t)) :
    Mimics R (p.execute f) (p.execute g) := by
  unfold Plan.execute
  cases p.bound with
  | false => exact .throw fun _ _ hst => ⟨rfl, hst⟩
  | true => exact transact_mimics hstore ((hstore _).bind fun _ => .forM fun t _ => h t)

/-- A transaction keeps what the steps of the store and the triggers keep. -/
theorem execute_keeps {I : σ → Prop} (hstore : ∀ step : Task Store Unit, Keeps I I (onStore step : Task σ Unit))
    (p : Plan) {f : Trigger → Task σ Unit} (h : ∀ t, Keeps I I (f t)) : Keeps I I (p.execute f) := by
  apply Keeps.iff_mimics.2
  exact p.execute_mimics (fun step => Keeps.iff_mimics.1 (hstore step)) fun t => Keeps.iff_mimics.1 (h t)

end Plan

/-! ## Requests and runs of triggers -/

namespace Registry

/-- A property of registries that does not depend on the store, the warnings and the values that are bound. -/
structure Steady (I : Registry → Prop) : Prop where
  store : ∀ r store, I r → I { r with store }
  warnings : ∀ r warnings, I r → I { r with warnings }
  bind : ∀ r path p value, lookup path r.plans = some p → I r → I (r.modifyPlan path fun _ => (p.bind value).2)

namespace Steady

variable {I : Registry → Prop}

theorem onStore (hI : Steady I) {α : Type} (step : Task Store α) : Keeps I I (onStore step) := by
  intro r hr
  rw [onStore_outcome]
  rcases outcome step r.store with ⟨_ | _, store⟩ <;> exact hI.store r store hr

theorem expectPlan (path : String) : Keeps I I (Registry.expectPlan path) := by
  intro r hr
  rw [expectPlan_outcome]
  cases lookup path r.plans <;> exact hr

theorem bindValue (hI : Steady I) (path : String) (value : Json) : Keeps I I (Registry.bind path value) := by
  intro r hr
  rw [bind_outcome]
  cases hp : lookup path r.plans with
  | none => exact hr
  | some p =>
    have hafter := hI.bind r path p value hp hr
    dsimp only
    rcases (p.bind value).1 with _ | ⟨⟩ <;> exact hafter

theorem getField (hI : Steady I) (path : String) : Keeps I I (Registry.getField path) :=
  (expectPlan path).bind fun _ => hI.onStore _

theorem host (hI : Steady I) {setField : String → Json → Task Registry Unit}
    (h : ∀ path value, Keeps I I (setField path value)) : (Registry.host setField).Keeps I I where
  fails _ hr := hr
  get path := (hI.getField path).bind fun _ => .pure _
  set := h
  warn _ _ r hr := hI.warnings r _ hr

theorem executeWith (hI : Steady I) {setField : String → Json → Task Registry Unit}
    (h : ∀ path value, Keeps I I (setField path value)) (path : String) : Keeps I I (executeWith setField path) :=
  (expectPlan path).bind fun p => p.execute_keeps hI.onStore fun t => Trigger.run_keeps (hI.host h) t

/-- Writes may nest: the fields that triggers can still set become fewer each time. -/
theorem setWithin (hI : Steady I) (free : List String) (path : String) (value : Json) :
    Keeps I I (setWithin free path value) := by
  rw [Registry.setWithin]
  refine (expectPlan path).bind fun _ => ?_
  split
  · rename_i hfree
    exact (hI.bindValue path value).bind fun _ =>
      hI.executeWith (fun path' value' => setWithin hI (without free path) path' value') path
  · exact .throw (fun _ hr => hr) _
termination_by free.length
decreasing_by exact length_without_lt ‹_›

theorem request (hI : Steady I) (request : Request) : Keeps I I request.run := by
  cases request with
  | bind path value => exact hI.bindValue path value
  | execute path => exact Keeps.get.bind fun r => hI.executeWith (hI.setWithin (without r.paths path)) path
  | set path value => exact Keeps.get.bind fun r => hI.setWithin r.paths path value

theorem evaluate (hI : Steady I) (t : Trigger) : Keeps I I (evaluate t) :=
  Keeps.get.bind fun r => Trigger.run_keeps (hI.host (hI.setWithin r.paths)) t

end Steady

end Registry

end GuardedConfig
