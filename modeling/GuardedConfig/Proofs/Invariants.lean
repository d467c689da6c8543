import GuardedConfig.Proofs.Atomicity

/-!
# `Proofs.Invariants` — what every complete write keeps, every request keeps

A request succeeds as a whole or leaves the tables as they were. So a property of contents need not hold between
the steps of a write: if it holds after each write that runs through, it holds after each request, whatever the
triggers do and wherever they fail.

## Contents

* `WritesKeep` — a property that complete writes keep
* `Registry.Planned`, `Registry.Keeping`
* `Request.runOnCopy_keeping` — by recursion on the fields that are free
* `Request.run_keeping`, `Registry.Later.keeping`
-/

namespace GuardedConfig

open Registry Schema

/-- A property of contents that every complete write of some plans keeps, and under which nothing is left to be
settled at the end of a transaction. Binding leads from these plans to such plans. -/
structure WritesKeep (Q : Plan → Prop) (I : Sql.Content → Prop) : Prop where
  settled : ∀ content, I content → Sql.orphans content true = 0
  bind : ∀ p value, Q p → Q (p.bind value).2
  write : ∀ p, Q p → ∀ value, Plan.writeSteps p.path p.slot.storage value = .ok p.writes →
    ∀ store after, I store.content → outcome (Plan.runWrites none p.writes) store = (.ok (), after) → I after.content

/-- A query changes nothing. -/
theorem Store.perform_select (q : Sql.Select) (params : List Sql.Value) (store : Store) :
    (outcome (Store.perform (.select q) params) store).2 = store := by
  unfold Store.perform
  rw [Store.onSession_outcome]
  unfold Sql.Session.perform Sql.Session.prepare
  dsimp only
  cases q.run store.session.content params <;> rfl

namespace Registry

variable {Q : Plan → Prop} {I : Sql.Content → Prop}

/-- All plans are genuine, such that a property holds of them, and have listed paths. -/
structure Planned (Q : Plan → Prop) (r : Registry) : Prop where
  genuine : r.Genuine
  plans : ∀ path p, lookup path r.plans = some p → Q p
  listed : ∀ path p, lookup path r.plans = some p → path ∈ r.paths

/-- Moreover a property holds of the content. -/
structure Keeping (Q : Plan → Prop) (I : Sql.Content → Prop) (r : Registry) : Prop extends Planned Q r where
  content : I r.store.content

theorem Planned.modifyPlan {r : Registry} (h : r.Planned Q) (path : String) {f : Plan → Plan}
    (hg : ∀ p, p.Genuine → (f p).Genuine) (hf : ∀ p, Q p → Q (f p)) : (r.modifyPlan path f).Planned Q where
  genuine := genuine_modifyPlan h.genuine path hg
  plans other q hq := by
    obtain ⟨p, hp, rfl | ⟨-, rfl⟩⟩ := lookup_modifyPlan_eq_some hq
    · exact h.plans other q hp
    · exact hf p (h.plans other p hp)
  listed other q hq := by
    obtain ⟨p, hp, -⟩ := lookup_modifyPlan_eq_some hq
    rw [paths_modifyPlan]
    exact h.listed other p hp

/-! ## Steps on a copy -/

/-- A step of the store that keeps the property if it runs through. -/
theorem onStore_keeping {α : Type} {step : Task Store α}
    (h : ∀ store after a, I store.content → outcome step store = (.ok a, after) → I after.content) :
    Keeps (Keeping Q I) (Planned Q) (onStore step) := by
  intro r hr
  have hstep := h r.store
  rw [onStore_outcome]
  revert hstep
  rcases outcome step r.store with ⟨_ | a, after⟩ <;> intro hstep
  · exact ⟨hr.genuine, hr.plans, hr.listed⟩
  · exact ⟨⟨hr.genuine, hr.plans, hr.listed⟩, hstep after a hr.content rfl⟩

theorem readRows_keeping (storage : Storage) :
    Keeps (Keeping Q I) (Planned Q) (onStore (Plan.readRows (Plan.readCommand storage))) := by
  refine onStore_keeping fun store after rows hstore hrun => ?_
  obtain ⟨result, store', hperform, hrun⟩ := outcome_bind_eq_ok.1 hrun
  cases hrun
  have hselect := Store.perform_select (Plan.readQuery storage) [] store
  rw [show outcome (Store.perform (.select (Plan.readQuery storage)) []) store = _ from hperform] at hselect
  rw [show after = store from hselect]
  exact hstore

theorem expectPlan_bind_keeping (path : String) {α : Type} {f : Plan → Task Registry α}
    (h : ∀ p, Q p → p.Genuine → Keeps (Keeping Q I) (Planned Q) (f p)) :
    Keeps (Keeping Q I) (Planned Q) (expectPlan path >>= f) := by
  intro r hr
  rw [outcome_bind, expectPlan_outcome]
  cases hp : lookup path r.plans with
  | none => exact hr.toPlanned
  | some p => exact h p (hr.plans path p hp) (hr.genuine path p hp) r hr

theorem bind_keeping (hk : WritesKeep Q I) (path : String) (value : Json) :
    Keeps (Keeping Q I) (Planned Q) (Registry.bind path value) := by
  intro r hr
  rw [bind_outcome]
  cases hp : lookup path r.plans with
  | none => exact hr.toPlanned
  | some p =>
    have hm : (r.modifyPlan path fun _ => (p.bind value).2).Planned Q :=
      hr.toPlanned.modifyPlan path (fun _ _ => Plan.genuine_bind p value) fun _ _ => hk.bind p value (hr.plans path p hp)
    dsimp only
    rcases (p.bind value).1 with e | ⟨⟩
    · exact hm
    · exact ⟨hm, by rw [store_modifyPlan]; exact hr.content⟩

theorem onCopy_keeping {step : Task Registry Unit} (h : Keeps (Keeping Q I) (Planned Q) step) :
    Keeps (Keeping Q I) (Planned Q) (onCopy step) := by
  intro r hr
  have hstep := h r hr
  rw [onCopy_outcome]
  revert hstep
  rcases outcome step r with ⟨_ | ⟨⟩, after⟩ <;> intro hstep
  · exact ⟨hstep.genuine, hstep.plans, hstep.listed⟩
  · exact hstep

/-- Executing a field on a copy keeps what its writes keep and what setting fields keeps. -/
theorem executeOnCopyWith_keeping (hk : WritesKeep Q I) {setField : String → Json → Task Registry Unit}
    (h : ∀ path value, Keeps (Keeping Q I) (Planned Q) (setField path value)) (path : String) :
    Keeps (Keeping Q I) (Planned Q) (executeOnCopyWith setField path) := by
  have hhost : (host setField).Keeps (Keeping Q I) (Planned Q) := {
    fails := fun _ hr => hr.toPlanned
    get := fun path => (expectPlan_bind_keeping path fun p _ _ => readRows_keeping p.slot.storage).bind fun _ => .pure _
    set := h
    warn := fun trigger text r hr => ⟨⟨hr.genuine, hr.plans, hr.listed⟩, hr.content⟩ }
  unfold executeOnCopyWith
  refine expectPlan_bind_keeping path fun p hp hgenuine => ?_
  split
  · rename_i hbound
    obtain ⟨value, hw⟩ := hgenuine.writeSteps_eq hbound
    refine onCopy_keeping ((onStore_keeping fun store after _ hstore hrun => ?_).bind fun _ =>
      .forM fun t _ => Trigger.run_keeps hhost t)
    exact hk.write p hp value hw store after hstore hrun
  · exact .throw (fun _ hr => hr.toPlanned) _

theorem setOnCopy_keeping (hk : WritesKeep Q I) (free : List String) (path : String) (value : Json) :
    Keeps (Keeping Q I) (Planned Q) (setOnCopy free path value) := by
  rw [setOnCopy]
  refine expectPlan_bind_keeping path fun p _ _ => ?_
  split
  · rename_i hfree
    exact (bind_keeping hk path value).bind fun _ =>
      executeOnCopyWith_keeping hk (fun path' value' => setOnCopy_keeping hk _ path' value') path
  · exact .throw (fun _ hr => hr.toPlanned) _
termination_by free.length
decreasing_by exact length_without_lt ‹_›

end Registry

/-! ## Requests -/

variable {Q : Plan → Prop} {I : Sql.Content → Prop}

/-- On a copy, a request that succeeds keeps what complete writes keep. -/
theorem Request.runOnCopy_keeping (hk : WritesKeep Q I) (request : Request) :
    Keeps (Keeping Q I) (Planned Q) request.runOnCopy := by
  cases request with
  | bind path value => exact bind_keeping hk path value
  | execute path =>
    exact Keeps.get.bind fun r =>
      executeOnCopyWith_keeping hk (fun path' value' => setOnCopy_keeping hk _ path' value') path
  | set path value => exact Keeps.get.bind fun r => setOnCopy_keeping hk r.paths path value

namespace Registry

/-- A registry where no transaction is open, which keeps a property. -/
structure Idle (Q : Plan → Prop) (I : Sql.Content → Prop) (r : Registry) : Prop extends Keeping Q I r where
  closed : r.store.session.saved = []

/-- The store is such that a request can be compared with one on a copy. -/
theorem Idle.complies {r : Registry} (h : r.Idle Q I) (hk : WritesKeep Q I) (request : Request) :
    StoreComplies r request where
  keepsSavepoints hopen := absurd h.closed hopen
  releases _ copy hcopy := by
    have hcopied : r.copied.Keeping Q I := ⟨⟨h.genuine, h.plans, h.listed⟩, h.content⟩
    have hafter := Request.runOnCopy_keeping hk request r.copied hcopied
    rw [hcopy] at hafter
    unfold Store.Settled
    rw [hk.settled _ hafter.content]
    exact Nat.zero_le _

end Registry

/-- **What complete writes keep, a request keeps**, whether or not it succeeds. -/
theorem Request.run_keeping (hk : WritesKeep Q I) {r : Registry} (h : r.Idle Q I) (request : Request) :
    (outcome request.run r).2.Idle Q I := by
  have hatomic := request_atomic h.genuine request (h.complies hk request)
  have hcopied : r.copied.Keeping Q I := ⟨⟨h.genuine, h.plans, h.listed⟩, h.content⟩
  have hcopy := Request.runOnCopy_keeping hk request r.copied hcopied
  revert hatomic hcopy
  rcases outcome request.run r with ⟨result, after⟩
  rcases outcome request.runOnCopy r.copied with ⟨copyResult, copy⟩
  rintro ⟨hresult, hcontent, hsaved, -, hrest⟩ hcopy
  have hplans : after.plans = copy.plans := (congrArg Registry.plans hrest :)
  have hpaths : after.paths = copy.paths := (congrArg Registry.paths hrest :)
  have hplanned : copy.Planned Q → after.Planned Q := fun hp =>
    ⟨fun path p hlookup => hp.genuine path p (hplans ▸ hlookup), fun path p hlookup => hp.plans path p (hplans ▸ hlookup),
      fun path p hlookup => hpaths ▸ hp.listed path p (hplans ▸ hlookup)⟩
  cases copyResult with
  | error e =>
    have hfailed : result.isOk = false := hresult
    rw [hfailed] at hcontent
    exact ⟨⟨hplanned hcopy, hcontent ▸ h.content⟩, hsaved.trans h.closed⟩
  | ok =>
    have hsucceeded : result.isOk = true := hresult
    rw [hsucceeded] at hcontent
    exact ⟨⟨hplanned hcopy.toPlanned, hcontent ▸ hcopy.content⟩, hsaved.trans h.closed⟩

/-- A registry is later than another one if requests lead from that to it. -/
inductive Registry.Later (r : Registry) : Registry → Prop where
  | refl : Later r r
  | request {r' : Registry} (request : Request) : Later r r' → Later r (outcome request.run r').2

/-- What complete writes keep stays. -/
theorem Registry.Later.keeping (hk : WritesKeep Q I) {r r' : Registry} (h : r.Later r') (hr : r.Idle Q I) :
    r'.Idle Q I := by
  induction h with
  | refl => exact hr
  | request request _ ih => exact Request.run_keeping hk ih request

/-- What complete writes keep holds of all registries that are reached if it holds of loaded ones. -/
theorem Registry.Reachable.keeping (hk : WritesKeep Q I) {a : Artifact} {store : Store}
    (hload : ∀ r after, Registry.load a store = (.ok r, after) → r.Idle Q I) {r : Registry} (h : Reachable a store r) :
    r.Idle Q I := by
  induction h with
  | load h => exact hload _ _ h
  | request request _ ih => exact Request.run_keeping hk ih request

end GuardedConfig
