import GuardedConfig.Proofs.InUse

/-!
# `Proofs.Binding` — which values can be bound, and what a plan remembers

A value can be bound to a field if it has the shape of the field: a scalar for a column, a map of members for a row of
another table, a list of such maps for a list. The steps for a value are made one by one, and a value that does not fit
is noticed at any of them. Whether or not it fits, nothing is left of what was bound before.

A plan also remembers which row was inserted last, while it runs its steps. `Held` is a plan with a cell for the
identifier of this row, and its steps read and write this cell. It does what a plan without a cell does, where the
identifier is passed on from step to step, and the cell is empty after every run.

## Contents

* `Table.TakesMembers`, `Table.TakesItem`, `Storage.Takes` — shapes
* `insertRow_isOk`, `memberSteps_isOk`, `writeSteps_isOk` — the steps for values of the right shape
* `Capturing`, `Capturing.execute_mimics` — runs with a cell
* `Held`, `Plan.Event`, `Held.after` — a plan and its history
* `Residue`, `bind_of_history`
-/

namespace GuardedConfig

open Schema

/-! ## Shapes -/

namespace Schema

/-- A map of members is a row of a table: its keys are columns, and its values are scalars. -/
def Table.TakesMembers (t : Table) (members : List (String × Json)) : Prop :=
  ∀ m ∈ members, t.hasColumn m.1 = true ∧ m.2.isScalar = true

/-- A value is an item of a list: a row of the item table, or a scalar that is wrapped into one. -/
def Table.TakesItem (item : Table) (scalarItems : Bool) : Json → Prop
  | .obj members => item.TakesMembers members
  | .arr _ => False
  | _ => scalarItems = true ∧ item.hasColumn valueColumn = true

/-- The values that can be stored. -/
def Storage.Takes : Storage → Json → Prop
  | .scalar .., value => value.isScalar = true
  | .reference _ _ target, .obj members => target.TakesMembers members
  | .list _ item scalarItems, .arr items => ∀ i ∈ items, item.TakesItem scalarItems i
  | _, _ => False

end Schema

/-- A list can be mapped exactly if each of its members can. -/
theorem mapM_isOk {ε α β : Type} {f : α → Except ε β} {l : List α} :
    (∃ r, l.mapM f = .ok r) ↔ ∀ a ∈ l, ∃ b, f a = .ok b := by
  induction l with
  | nil => exact ⟨fun _ _ ha => (nomatch ha), fun _ => ⟨[], rfl⟩⟩
  | cons a l ih =>
    rw [List.forall_mem_cons, ← ih]
    constructor
    · rintro ⟨r, hr⟩
      rw [List.mapM_cons] at hr
      obtain ⟨b, hb, hr⟩ := except_bind_eq_ok.1 hr
      obtain ⟨bs, hbs, -⟩ := except_bind_eq_ok.1 hr
      exact ⟨⟨b, hb⟩, bs, hbs⟩
    · rintro ⟨⟨b, hb⟩, bs, hbs⟩
      rw [List.mapM_cons]
      exact ⟨b :: bs, except_bind_eq_ok.2 ⟨b, hb, except_bind_eq_ok.2 ⟨bs, hbs, rfl⟩⟩⟩

/-- A step that goes on in any case succeeds exactly if its first part does. -/
theorem bind_pure_isOk {ε α β : Type} {x : Except ε α} {f : α → β} :
    (∃ b, (x >>= fun a => .ok (f a)) = .ok b) ↔ ∃ a, x = .ok a := by
  constructor
  · rintro ⟨b, hb⟩
    obtain ⟨a, ha, -⟩ := except_bind_eq_ok.1 hb
    exact ⟨a, ha⟩
  · rintro ⟨a, ha⟩
    exact ⟨f a, except_bind_eq_ok.2 ⟨a, ha, rfl⟩⟩

/-- A fault is no success. -/
theorem not_isOk {ε β : Type} {e : ε} : ¬ ∃ b : β, (.error e : Except ε β) = .ok b := by
  rintro ⟨b, h⟩
  cases h

namespace Plan

variable {path table : String} {t item : Table} {scalarItems : Bool} {value member : Json}
  {members : List (String × Json)}

theorem toStored_isOk : (∃ v, toStored value = .ok v) ↔ value.isScalar = true := by
  cases value <;> simp [toStored, Json.isScalar]

/-- A row can be inserted exactly if all its members are scalars in columns of the table. -/
theorem insertRow_isOk : (∃ c, insertRow t members = .ok c) ↔ t.TakesMembers members := by
  unfold insertRow
  split
  · -- a row without members is one of default values
    rename_i hempty
    rw [List.isEmpty_iff.1 hempty]
    exact ⟨fun _ _ hm => (nomatch hm), fun _ => ⟨_, rfl⟩⟩
  · refine bind_pure_isOk.trans (mapM_isOk.trans (forall₂_congr fun m _ => ?_))
    dsimp only
    split
    · rename_i hcolumn
      rw [toStored_isOk]
      simp [hcolumn]
    · rename_i hcolumn
      simp [hcolumn]

/-- A scalar is wrapped into a row of one column. -/
theorem insertWrapped_isOk (h : value.isScalar = true) :
    (∃ c, insertRow item [(valueColumn, value)] = .ok c) ↔ item.hasColumn valueColumn = true := by
  rw [insertRow_isOk]
  simp [Table.TakesMembers, h]

theorem memberSteps_isOk :
    (∃ steps, memberSteps path table item scalarItems value member = .ok steps) ↔
      item.TakesItem scalarItems member := by
  unfold memberSteps
  cases member with
  | obj members => exact bind_pure_isOk.trans insertRow_isOk
  | arr items => exact iff_of_false not_isOk id
  | _ =>
    cases scalarItems with
    | false => exact iff_of_false not_isOk fun h => absurd h.1 Bool.false_ne_true
    | true => exact (bind_pure_isOk.trans (insertWrapped_isOk rfl)).trans ⟨fun h => ⟨rfl, h⟩, And.right⟩

/-- The steps for a value can be made exactly if it has the shape of the storage. -/
theorem writeSteps_isOk (path : String) {storage : Storage} :
    (∃ steps, writeSteps path storage value = .ok steps) ↔ storage.Takes value := by
  cases storage with
  | scalar table column =>
    dsimp only [writeSteps, Storage.Takes]
    split
    · rename_i hscalar
      rw [hscalar]
      exact bind_pure_isOk.trans (toStored_isOk.trans (by rw [hscalar]))
    · rename_i hscalar
      exact iff_of_false not_isOk hscalar
  | reference table column target =>
    cases value with
    | obj members => exact bind_pure_isOk.trans insertRow_isOk
    | _ => exact iff_of_false not_isOk id
  | list table item scalarItems =>
    cases value with
    | arr items =>
      refine bind_pure_isOk.trans (mapM_isOk.trans (forall₂_congr fun i _ => memberSteps_isOk))
    | _ => exact iff_of_false not_isOk id

/-! ### The path -/

theorem memberSteps_path (path' : String) {steps : List WriteStep}
    (h : memberSteps path table item scalarItems value member = .ok steps) :
    memberSteps path' table item scalarItems value member = .ok steps := by
  cases member with
  | obj members => exact h
  | arr items => cases h
  | _ =>
    cases scalarItems with
    | false => cases h
    | true => exact h

/-- The path of the field stands in faults alone. -/
theorem writeSteps_path (path' : String) {storage : Storage} {steps : List WriteStep}
    (h : writeSteps path storage value = .ok steps) : writeSteps path' storage value = .ok steps := by
  cases storage with
  | scalar table column =>
    dsimp only [writeSteps] at h ⊢
    split at h
    · rename_i hscalar
      rw [if_pos hscalar]
      exact h
    · cases h
  | reference table column target =>
    cases value with
    | obj members => exact h
    | _ => cases h
  | list table item scalarItems =>
    cases value with
    | arr items =>
      obtain ⟨own, hown, h⟩ := except_bind_eq_ok.1 h
      have hmembers := (mapM_eq_ok_iff.1 hown).imp fun _ _ => memberSteps_path path'
      exact except_bind_eq_ok.2 ⟨own, mapM_eq_ok_iff.2 hmembers, h⟩
    | _ => cases h

end Plan

/-! ## Runs with a cell -/

/-- A state, and the identifier of the row that was captured last. -/
structure Capturing (σ : Type) where
  host : σ
  captured : Option Int := none

namespace Capturing

variable {σ : Type} [HasStore σ]

instance : HasStore (Capturing σ) :=
  ⟨fun m => HasStore.store m.host, fun store m => { m with host := HasStore.withStore store m.host }⟩

/-- A step that does not use the cell. -/
def onHost {σ α : Type} (step : Task σ α) : Task (Capturing σ) α :=
  Task.of fun m => ((outcome step m.host).1, { m with host := (outcome step m.host).2 })

/-- Puts an identifier into the cell, or nothing. -/
def capture {σ : Type} (id : Option Int) : Task (Capturing σ) Unit := modify fun m => { m with captured := id }

/-- Runs the steps of a write, which read and write the cell. -/
def runSteps : List Plan.WriteStep → Task (Capturing Store) Unit
  | [] => return ()
  | .captureRowId :: steps => do
    capture (some (← get).host.lastRowId)
    runSteps steps
  | .execute c :: steps => do
    let params ← Task.ofExcept (Plan.resolve (← get).captured c)
    let _ ← onHost (Store.perform c.statement params)
    runSteps steps

/-- Runs the steps of a write and empties the cell, also if a step fails. -/
def write (steps : List Plan.WriteStep) : Task (Capturing Store) Unit := do
  tryCatch (runSteps steps) fun e => do
    capture none
    throw e
  capture none

/-- A step on the store of a state and on the cell. -/
def onCell {α : Type} (step : Task (Capturing Store) α) : Task (Capturing σ) α :=
  Task.of fun m =>
    let (r, after) := outcome step ⟨HasStore.store m.host, m.captured⟩
    (r, ⟨HasStore.withStore after.host m.host, after.captured⟩)

/-- Runs the steps of the bound value and then the triggers, as one transaction. -/
def execute (p : Plan) (evaluate : Trigger → Task σ Unit) : Task (Capturing σ) Unit := do
  if !p.bound then throw (.binding (.notBound p.path "executed"))
  Plan.transact do
    onCell (write p.writes)
    p.triggers.forM fun t => onHost (evaluate t)

/-- The steps do with the cell what they do with an identifier that is passed on. -/
theorem runSteps_host (steps : List Plan.WriteStep) (m : Capturing Store) :
    (outcome (runSteps steps) m).1 = (outcome (Plan.runWrites m.captured steps) m.host).1 ∧
      (outcome (runSteps steps) m).2.host = (outcome (Plan.runWrites m.captured steps) m.host).2 := by
  -- the induction is for all states, since the cell is filled on the way
  induction steps generalizing m with
  | nil => exact ⟨rfl, rfl⟩
  | cons step steps ih =>
    cases step with
    | captureRowId => exact ih { m with captured := some m.host.lastRowId }
    | execute c =>
      rw [runSteps, Plan.runWrites, outcome_bind_ok (outcome_get m), outcome_bind, outcome_bind, outcome_ofExcept,
        outcome_ofExcept]
      cases Plan.resolve m.captured c with
      | error e => exact ⟨rfl, rfl⟩
      | ok params =>
        dsimp only
        rw [outcome_bind, outcome_bind]
        have hperform : outcome (onHost (Store.perform c.statement params)) m =
            ((outcome (Store.perform c.statement params) m.host).1,
              { m with host := (outcome (Store.perform c.statement params) m.host).2 }) := rfl
        rw [hperform]
        rcases outcome (Store.perform c.statement params) m.host with ⟨e | result, store⟩
        · exact ⟨rfl, rfl⟩
        · exact ih { m with host := store }

/-- However the steps end, the cell is empty afterwards. -/
theorem write_outcome (steps : List Plan.WriteStep) (store : Store) :
    outcome (write steps) { host := store } =
      ((outcome (Plan.runWrites none steps) store).1, { host := (outcome (Plan.runWrites none steps) store).2 }) := by
  have hsteps := runSteps_host steps { host := store }
  revert hsteps
  unfold write
  rw [outcome_bind, outcome_tryCatch]
  rcases outcome (runSteps steps) { host := store } with ⟨e | ⟨⟩, m⟩ <;>
    rcases outcome (Plan.runWrites none steps) store with ⟨e' | ⟨⟩, after⟩ <;> rintro ⟨⟨⟩, rfl⟩ <;> rfl

/-- A state with an empty cell, and the same state without the cell. -/
def Empty (m : Capturing σ) (s : σ) : Prop := m = { host := s }

omit [HasStore σ] in
theorem onHost_mimics {α : Type} (step : Task σ α) : Mimics Empty (onHost step) step := by
  rintro _ s rfl
  exact Mimics.end_iff.2 ⟨rfl, rfl⟩

theorem onStore_mimics {α : Type} (step : Task Store α) :
    Mimics (Empty : Capturing σ → σ → Prop) (onStore step) (onStore step) := by
  rintro _ s rfl
  exact Mimics.end_iff.2 ⟨rfl, rfl⟩

theorem write_mimics (steps : List Plan.WriteStep) :
    Mimics (Empty : Capturing σ → σ → Prop) (onCell (write steps)) (onStore (Plan.runWrites none steps)) := by
  rintro _ s rfl
  apply Mimics.end_iff.2
  unfold onCell
  rw [outcome_of, write_outcome]
  exact ⟨rfl, rfl⟩

/-- **A run with a cell is a run**: it has the same result and the same state as one where the identifier is passed on,
and the cell is empty afterwards. -/
theorem execute_mimics (p : Plan) (evaluate : Trigger → Task σ Unit) :
    Mimics Empty (execute p evaluate) (p.execute evaluate) := by
  unfold execute Plan.execute
  cases p.bound with
  | false => exact .throw fun _ _ hst => ⟨rfl, hst⟩
  | true =>
    refine Plan.transact_mimics onStore_mimics ((write_mimics p.writes).bind fun _ => ?_)
    exact .forM fun t _ => onHost_mimics (evaluate t)

end Capturing

/-! ## Histories -/

/-- A plan with its cell. -/
structure Held where
  plan : Plan
  captured : Option Int := none

/-- What is done with a plan: a value is bound, or the steps are run on some state, where triggers are evaluated. -/
inductive Plan.Event (σ : Type) where
  | bind (value : Json)
  | execute (host : σ) (evaluate : Trigger → Task σ Unit)

/-- What a plan has of the value that is bound to it. -/
structure Residue where
  writes : List Plan.WriteStep := []
  reads : List Plan.Command := []
  captured : Option Int := none
  bound : Bool := false

/-- What binding a value leaves, by the storage and the value. -/
def Schema.Storage.residue (storage : Storage) (value : Json) : Residue :=
  match Plan.writeSteps "" storage value with
  | .ok writes => { writes, reads := [Plan.readCommand storage], bound := true }
  | .error _ => {}

namespace Held

variable {σ : Type} [HasStore σ]

/-- Binds a value, which empties the cell. -/
def bind (h : Held) (value : Json) : Except Error Unit × Held :=
  let (result, plan) := h.plan.bind value
  (result, { plan })

/-- What the plan has of the value that is bound to it. -/
def residue (h : Held) : Residue := ⟨h.plan.writes, h.plan.reads, h.captured, h.plan.bound⟩

/-- The plan after one more event, whether or not it succeeds. -/
def apply (h : Held) : Plan.Event σ → Held
  | .bind value => (h.bind value).2
  | .execute host evaluate =>
    { h with captured := (outcome (Capturing.execute h.plan evaluate) ⟨host, h.captured⟩).2.captured }

/-- The plan after a history of events. -/
def after (h : Held) (history : List (Plan.Event σ)) : Held := history.foldl apply h

omit [HasStore σ] in
theorem bind_plan (p : Plan) (value : Json) :
    (p.bind value).2.slot = p.slot ∧ (p.bind value).2.triggers = p.triggers := by
  unfold Plan.bind
  cases Plan.writeSteps p.path p.slot.storage value <;> exact ⟨rfl, rfl⟩

theorem apply_plan (h : Held) (event : Plan.Event σ) :
    (h.apply event).plan.slot = h.plan.slot ∧ (h.apply event).plan.triggers = h.plan.triggers := by
  cases event with
  | bind value => exact bind_plan h.plan value
  | execute host evaluate => exact ⟨rfl, rfl⟩

theorem after_plan (h : Held) (history : List (Plan.Event σ)) :
    (h.after history).plan.slot = h.plan.slot ∧ (h.after history).plan.triggers = h.plan.triggers := by
  induction history generalizing h with
  | nil => exact ⟨rfl, rfl⟩
  | cons event history ih =>
    obtain ⟨hslot, htriggers⟩ := ih (h.apply event)
    obtain ⟨hslot', htriggers'⟩ := apply_plan h event
    exact ⟨hslot.trans hslot', htriggers.trans htriggers'⟩

/-- Nothing of what was bound before has a part in what a plan has after binding a value. -/
theorem residue_bind (h : Held) (value : Json) : (h.bind value).2.residue = h.plan.slot.storage.residue value := by
  unfold Storage.residue bind Plan.bind
  cases hwrites : Plan.writeSteps h.plan.path h.plan.slot.storage value with
  | ok writes =>
    rw [Plan.writeSteps_path "" hwrites]
    rfl
  | error fault =>
    -- the fault is another one, but it is a fault as well
    cases hwrites' : Plan.writeSteps "" h.plan.slot.storage value with
    | ok writes =>
      rw [Plan.writeSteps_path h.plan.path hwrites'] at hwrites
      cases hwrites
    | error fault' => rfl

theorem bind_isOk (h : Held) (value : Json) : (h.bind value).1 = .ok () ↔ h.plan.slot.storage.Takes value := by
  rw [← Plan.writeSteps_isOk h.plan.path]
  unfold bind Plan.bind
  cases Plan.writeSteps h.plan.path h.plan.slot.storage value with
  | ok writes => exact ⟨fun _ => ⟨writes, rfl⟩, fun _ => rfl⟩
  | error fault =>
    refine iff_of_false (fun hok => ?_) not_isOk
    cases hok

/-- What is left of a value is empty exactly if the value does not have the right shape. -/
theorem residue_cases (storage : Storage) (value : Json) :
    (storage.Takes value ∧ ∃ writes, storage.residue value =
      { writes, reads := [Plan.readCommand storage], bound := true }) ∨
    (¬ storage.Takes value ∧ storage.residue value = {}) := by
  rw [← Plan.writeSteps_isOk ""]
  unfold Storage.residue
  cases Plan.writeSteps "" storage value with
  | ok writes => exact .inl ⟨⟨writes, rfl⟩, writes, rfl⟩
  | error fault => exact .inr ⟨not_isOk, rfl⟩

/-- With an empty cell, a plan is executed as it is without a cell. -/
theorem execute_of_empty (p : Plan) (evaluate : Trigger → Task σ Unit) (host : σ) :
    outcome (Capturing.execute p evaluate) { host } =
      ((outcome (p.execute evaluate) host).1, { host := (outcome (p.execute evaluate) host).2 }) := by
  obtain ⟨hresult, hstate⟩ := Mimics.end_iff.1 (Capturing.execute_mimics p evaluate { host } host rfl)
  exact Prod.ext hresult hstate

/-- **Binding takes values of the right shape and leaves nothing of earlier ones.** Whatever has been bound to a plan
and executed before, binding a value succeeds exactly if the value has the shape of the storage. Then the write steps,
the read step, the captured identifier and the mark are given by the storage and the value alone, and a value that does
not fit leaves the plan unbound and without steps. The triggers stay as they were, and the plan is executed as one
without a cell. -/
theorem bind_of_history (h : Held) (history : List (Plan.Event σ)) (value : Json) :
    let storage := h.plan.slot.storage
    let bound := (h.after history).bind value
    (bound.1 = .ok () ↔ storage.Takes value) ∧ bound.2.residue = storage.residue value ∧
      bound.2.plan.slot = h.plan.slot ∧ bound.2.plan.triggers = h.plan.triggers ∧
      (bound.1 = .ok () → bound.2.plan.reads = [Plan.readCommand storage] ∧ bound.2.plan.bound = true) ∧
      (bound.1 ≠ .ok () → bound.2.residue = {}) ∧
      ∀ host (evaluate : Trigger → Task σ Unit),
        outcome (Capturing.execute bound.2.plan evaluate) ⟨host, bound.2.captured⟩ =
          ((outcome (bound.2.plan.execute evaluate) host).1,
            { host := (outcome (bound.2.plan.execute evaluate) host).2 }) := by
  intro storage bound
  obtain ⟨hslot, htriggers⟩ := after_plan h history
  have htakes : bound.1 = .ok () ↔ storage.Takes value := by
    rw [bind_isOk, hslot]
  have hresidue : bound.2.residue = storage.residue value := by
    rw [residue_bind, hslot]
  obtain ⟨hboundSlot, hboundTriggers⟩ := bind_plan (h.after history).plan value
  refine ⟨htakes, hresidue, hboundSlot.trans hslot, hboundTriggers.trans htriggers, fun hok => ?_, fun hfault => ?_,
    fun host evaluate => execute_of_empty bound.2.plan evaluate host⟩
  · obtain ⟨-, writes, hwrites⟩ | ⟨hnot, -⟩ := residue_cases storage value
    · rw [hwrites] at hresidue
      exact ⟨congrArg Residue.reads hresidue, congrArg Residue.bound hresidue⟩
    · exact absurd (htakes.1 hok) hnot
  · obtain ⟨htaken, -⟩ | ⟨-, hempty⟩ := residue_cases storage value
    · exact absurd (htakes.2 htaken) hfault
    · exact hresidue.trans hempty

end Held

end GuardedConfig
