import GuardedConfig.Proofs.Loading
import GuardedConfig.Proofs.Steady

/-!
# `Proofs.InUse` — nested writes end

A trigger that sets a field runs the triggers of that field, so writes nest, and triggers can set fields in a circle.
A plan is marked while a request or a trigger binds or executes it, and a marked plan is refused to anyone else.
`Marked` is a registry with these marks. Its steps nest only as deep as they are told, and what lies deeper is left to
any step at all.

Setting a field among those that are free is the same as setting it with marks: the free fields are those without a
mark. With each nested write there is one less of them. So no write nests deeper than there are fields, and what lies
deeper does not matter. Each step takes back its own mark, whether or not it succeeds, so none is left in the end.

## Contents

* `Marked`, `occupy`, `setTo`, `Request.runMarked` — steps with marks
* `Registry.Divided` — the fields without a mark are those that are free
* `occupy_mimics`, `setTo_mimics` — steps with marks do what steps among free fields do
* `Registry.Running`, `Running.listed`
* `nesting_ends`
-/

namespace GuardedConfig

open Registry Schema

/-- A registry, and the paths whose plans are in use, the newest first. -/
structure Marked where
  registry : Registry
  inUse : List String := []

instance : HasStore Marked :=
  ⟨fun m => m.registry.store, fun store m => { m with registry := { m.registry with store } }⟩

namespace Marked

/-! ## Steps with marks -/

/-- A step of the registry, which neither looks at the marks nor changes them. -/
def onRegistry {α : Type} (step : Task Registry α) : Task Marked α :=
  Task.of fun m =>
    let (a, registry) := step.run.run m.registry
    (a, { m with registry })

/-- Marks the plan of a path while a step runs, however the step ends. A plan that is in use is refused. -/
def occupy (path : String) (step : Task Marked Unit) : Task Marked Unit := do
  let _ ← onRegistry (expectPlan path)
  if path ∈ (← get).inUse then throw (.binding (.inUse path))
  modify fun m => { m with inUse := path :: m.inUse }
  let release : Task Marked Unit := modify fun m => { m with inUse := m.inUse.erase path }
  tryCatch step fun e => do
    release
    throw e
  release

/-- The registry with its marks as the host of triggers, given how fields are set. Reading does not mark a plan. -/
def host (setField : String → Json → Task Marked Unit) : Trigger.Host Marked where
  get := fun path m => (onRegistry do return Json.arr (← getField path)).run.run m
  set := fun path value m => (setField path value).run.run m
  warn := fun trigger text m =>
    { m with registry := { m.registry with warnings := m.registry.warnings ++ [(trigger, text)] } }

/-- Executes the plan of a path, given how its triggers set fields. -/
def executeWith (setField : String → Json → Task Marked Unit) (path : String) : Task Marked Unit := do
  let p ← onRegistry (expectPlan path)
  p.execute fun t => Task.of (t.run (host setField))

/-- Sets a field for a trigger. Writes nest `depth` deep at most, this one included; what would be deeper is left to
`beyond`. -/
def setTo (beyond : String → Json → Task Marked Unit) : Nat → String → Json → Task Marked Unit
  | 0, path, value => beyond path value
  | depth + 1, path, value => occupy path do
    onRegistry (bind path value)
    executeWith (setTo beyond depth) path

end Marked

/-- What a registry does for a request, with marks. The writes of triggers nest `depth` deep at most; what would be
deeper is left to `beyond`. -/
def Request.runMarked (beyond : String → Json → Task Marked Unit) (depth : Nat) : Request → Task Marked Unit
  | .bind path value => Marked.occupy path (Marked.onRegistry (Registry.bind path value))
  | .execute path => Marked.occupy path (Marked.executeWith (Marked.setTo beyond depth) path)
  | .set path value => Marked.setTo beyond (depth + 1) path value

namespace Marked

theorem onRegistry_outcome {α : Type} (step : Task Registry α) (m : Marked) :
    outcome (onRegistry step) m = ((outcome step m.registry).1, { m with registry := (outcome step m.registry).2 }) :=
  rfl

/-- A step runs with one more mark, which is taken back. -/
theorem occupy_outcome (path : String) (step : Task Marked Unit) (m : Marked) :
    outcome (occupy path step) m =
      match lookup path m.registry.plans with
      | some _ =>
        if path ∈ m.inUse then (.error (.binding (.inUse path)), m)
        else
          let ended := outcome step { m with inUse := path :: m.inUse }
          (ended.1, { ended.2 with inUse := ended.2.inUse.erase path })
      | none => (.error (.unknownField path), m) := by
  unfold occupy
  rw [outcome_bind, onRegistry_outcome, expectPlan_outcome]
  cases lookup path m.registry.plans with
  | none => rfl
  | some p =>
    dsimp only
    rw [outcome_bind_ok (outcome_get m)]
    split
    · rfl
    · rw [outcome_bind_ok (outcome_modify ..), outcome_bind, outcome_tryCatch]
      rcases outcome step { m with inUse := path :: m.inUse } with ⟨_ | ⟨⟩, _⟩ <;> rfl

end Marked

/-! ## Free fields and marks -/

namespace Registry

/-- A registry with certain paths, where the declared fields are either in use or free. -/
structure Divided (paths inUse free : List String) (r : Registry) : Prop where
  paths : r.paths = paths
  free_iff : ∀ path p, lookup path r.plans = some p → (path ∈ free ↔ path ∉ inUse)

variable {paths inUse free : List String} {path : String}

theorem Divided.modifyPlan {r : Registry} (h : r.Divided paths inUse free) (path : String) (f : Plan → Plan) :
    (r.modifyPlan path f).Divided paths inUse free where
  paths := (paths_modifyPlan ..).trans h.paths
  free_iff other q hq := by
    obtain ⟨p, hp, -⟩ := lookup_modifyPlan_eq_some hq
    exact h.free_iff other p hp

theorem Divided.steady : Steady (Divided paths inUse free) where
  store _ _ h := ⟨h.paths, h.free_iff⟩
  warnings _ _ h := ⟨h.paths, h.free_iff⟩
  bind _ path _ _ _ h := h.modifyPlan path _

/-- A free field that gets in use is free no more. -/
theorem Divided.occupied_iff {r : Registry} (hfree : path ∈ free) (hused : path ∉ inUse) :
    r.Divided paths (path :: inUse) (without free path) ↔ r.Divided paths inUse free := by
  have hother : ∀ other, (other ∈ without free path ↔ other ∉ path :: inUse) ↔ (other ∈ free ↔ other ∉ inUse) := by
    intro other
    unfold without
    by_cases ho : other = path
    · subst ho
      simp [hfree, hused]
    · simp [ho]
  -- both directions change the condition field by field
  constructor
  · exact fun h => ⟨h.paths, fun other p hp => (hother other).1 (h.free_iff other p hp)⟩
  · exact fun h => ⟨h.paths, fun other p hp => (hother other).2 (h.free_iff other p hp)⟩

end Registry

namespace Marked

/-- A registry with marks on its fields in use, and the registry without them. -/
def Marks (paths inUse free : List String) (m : Marked) (r : Registry) : Prop :=
  m = ⟨r, inUse⟩ ∧ r.Divided paths inUse free

variable {paths inUse free : List String} {path : String}

/-- A step of the registry is the same with marks. -/
theorem onRegistry_mimics {α : Type} {step : Task Registry α}
    (h : Keeps (Divided paths inUse free) (Divided paths inUse free) step) :
    Mimics (Marks paths inUse free) (onRegistry step) step := by
  rintro _ r ⟨rfl, hr⟩
  have hstep := h r hr
  rw [onRegistry_outcome]
  revert hstep
  rcases outcome step r with ⟨_ | _, after⟩ <;> exact fun hafter => ⟨rfl, rfl, hafter⟩

theorem onStore_mimics {α : Type} (step : Task Store α) :
    Mimics (Marks paths inUse free) (onStore step) (onStore step) :=
  onRegistry_mimics (Divided.steady.onStore step)

/-- A step that uses a free field is the same without the mark of this field. -/
theorem occupy_mimics {x : Task Marked Unit} {y : Task Registry Unit} {r : Registry} {p : Plan}
    (hp : lookup path r.plans = some p) (hfree : path ∈ free)
    (h : Mimics (Marks paths (path :: inUse) (without free path)) x y) (hr : r.Divided paths inUse free) :
    (outcome (occupy path x) ⟨r, inUse⟩).1 = (outcome y r).1 ∧
      Marks paths inUse free (outcome (occupy path x) ⟨r, inUse⟩).2 (outcome y r).2 := by
  have hused := (hr.free_iff path p hp).1 hfree
  obtain ⟨hresult, hmarks, hafter⟩ :=
    Mimics.end_iff.1 (h ⟨r, path :: inUse⟩ r ⟨rfl, (Divided.occupied_iff hfree hused).2 hr⟩)
  rw [occupy_outcome, hp]
  dsimp only
  rw [if_neg hused, hmarks]
  exact ⟨hresult, by rw [List.erase_cons_head], (Divided.occupied_iff hfree hused).1 hafter⟩

end Marked

/-! ## Nested writes -/

namespace Marked

variable {paths inUse free : List String} {path : String}

/-- Triggers see the same with and without marks if they set fields alike. -/
theorem host_relates {f : String → Json → Task Marked Unit} {g : String → Json → Task Registry Unit}
    (h : ∀ path value, Mimics (Marks paths inUse free) (f path value) (g path value)) :
    (host f).Relates (Marks paths inUse free) (fun e e' m r => e = e' ∧ Marks paths inUse free m r)
      (Registry.host g) where
  fails _ _ _ _ hmr := ⟨rfl, hmr⟩
  renames trigger _ _ _ _ hend := ⟨congrArg (Trigger.lookupError trigger) hend.1, hend.2⟩
  get path := onRegistry_mimics ((Divided.steady.getField path).bind fun _ => .pure _)
  set := h
  warn := by
    rintro trigger text _ r ⟨rfl, hr⟩
    exact ⟨rfl, hr.paths, hr.free_iff⟩

theorem executeWith_mimics {f : String → Json → Task Marked Unit} {g : String → Json → Task Registry Unit}
    (h : ∀ path value, Mimics (Marks paths inUse free) (f path value) (g path value)) (path : String) :
    Mimics (Marks paths inUse free) (executeWith f path) (Registry.executeWith g path) :=
  (onRegistry_mimics (Steady.expectPlan path)).bind fun p =>
    Plan.execute_mimics onStore_mimics p fun t => Trigger.run_relates (host_relates h) t

/-- Setting a field with marks is setting it among those without a mark, as long as writes can nest deeper than there
are free fields. -/
theorem setTo_mimics (beyond : String → Json → Task Marked Unit) {depth : Nat} (hdepth : free.length < depth)
    (path : String) (value : Json) :
    Mimics (Marks paths inUse free) (setTo beyond depth path value) (setWithin free path value) := by
  -- the field that is set gets in use, so one level deeper there is one free field less
  induction depth generalizing inUse free path value with
  | zero => exact absurd hdepth (Nat.not_lt_zero _)
  | succ depth ih =>
    rintro _ r ⟨rfl, hr⟩
    rw [setWithin_outcome]
    cases hp : lookup path r.plans with
    | none =>
      rw [setTo, occupy_outcome, hp]
      exact ⟨rfl, rfl, hr⟩
    | some p =>
      dsimp only
      split
      · rename_i hfree
        have hless : (without free path).length < depth :=
          Nat.lt_of_lt_of_le (length_without_lt hfree) (Nat.le_of_lt_succ hdepth)
        exact Mimics.end_iff.2 (occupy_mimics hp hfree
          ((onRegistry_mimics (Divided.steady.bindValue path value)).bind fun _ =>
            executeWith_mimics (ih hless) path) hr)
      · rename_i hfree
        -- a declared field that is not free has a mark
        rw [setTo, occupy_outcome, hp]
        dsimp only
        rw [if_pos (Classical.not_not.1 (mt (hr.free_iff path p hp).2 hfree))]
        exact ⟨rfl, rfl, hr⟩

end Marked

open Marked

namespace Registry

/-- Every field is under one of the paths. -/
def Listed (r : Registry) : Prop := ∀ path p, lookup path r.plans = some p → path ∈ r.paths

theorem listed_iff_divided {r : Registry} : r.Listed ↔ r.Divided r.paths [] r.paths :=
  ⟨fun h => ⟨rfl, fun path p hp => iff_of_true (h path p hp) List.not_mem_nil⟩,
    fun h path p hp => (h.free_iff path p hp).2 List.not_mem_nil⟩

theorem Listed.modifyPlan {r : Registry} (h : r.Listed) (path : String) (f : Plan → Plan) :
    (r.modifyPlan path f).Listed := by
  intro other q hq
  obtain ⟨p, hp, -⟩ := lookup_modifyPlan_eq_some hq
  rw [paths_modifyPlan]
  exact h other p hp

theorem Listed.steady : Steady Listed where
  store _ _ h := h
  warnings _ _ h := h
  bind _ path _ _ _ h := h.modifyPlan path _

end Registry

/-- With marks, a request does what it does without them, and no mark is left. -/
theorem Request.runMarked_outcome (beyond : String → Json → Task Marked Unit) (request : Request) {r : Registry}
    (h : r.Listed) :
    (outcome (request.runMarked beyond r.paths.length) ⟨r, []⟩).1 = (outcome request.run r).1 ∧
      Marks r.paths [] r.paths (outcome (request.runMarked beyond r.paths.length) ⟨r, []⟩).2
        (outcome request.run r).2 := by
  have hr := listed_iff_divided.1 h
  cases request with
  | bind path value =>
    cases hp : lookup path r.plans with
    | none =>
      have hrun := bind_outcome path value r
      rw [hp] at hrun
      rw [Request.runMarked, Request.run, occupy_outcome, hp, hrun]
      exact ⟨rfl, rfl, hr⟩
    | some p => exact occupy_mimics hp (h path p hp) (onRegistry_mimics (Divided.steady.bindValue path value)) hr
  | execute path =>
    rw [run_execute_outcome]
    cases hp : lookup path r.plans with
    | none =>
      rw [Request.runMarked, occupy_outcome, executeWith_outcome, hp]
      exact ⟨rfl, rfl, hr⟩
    | some p =>
      exact occupy_mimics hp (h path p hp)
        (executeWith_mimics (setTo_mimics beyond (length_without_lt (h path p hp))) path) hr
  | set path value =>
    rw [run_set_outcome]
    exact Mimics.end_iff.1 (setTo_mimics beyond (Nat.lt_succ_self _) path value _ r ⟨rfl, hr⟩)

/-! ## Registries in service -/

namespace Registry

/-- A registry in service: it has been loaded, and since then triggers have been registered or run, requests have been
made, and the store has been changed in any way. -/
inductive Running : Registry → Prop where
  | load {a : Artifact} {store after : Store} {r : Registry} : Registry.load a store = (.ok r, after) → Running r
  | store {r : Registry} (store : Store) : Running r → Running { r with store }
  | register {r : Registry} (t : Trigger) : Running r → Running (outcome (register t) r).2
  | evaluate {r : Registry} (t : Trigger) : Running r → Running (outcome (evaluate t) r).2
  | request {r : Registry} (request : Request) : Running r → Running (outcome request.run r).2

theorem listed_of_load {a : Artifact} {store after : Store} {r : Registry} (h : load a store = (.ok r, after)) :
    r.Listed := by
  obtain ⟨schema, triggers, -, -, -, hloaded⟩ := load_eq_ok h
  intro path p hp
  have hfresh := hloaded.plans path p hp
  rw [hloaded.paths, ← hfresh.path_eq]
  exact List.mem_map_of_mem hfresh.slot

theorem Running.listed {r : Registry} (h : r.Running) : r.Listed := by
  induction h with
  | load hload => exact listed_of_load hload
  | store store _ ih => exact ih
  | register t _ ih =>
    exact (register_keeps_of (fun _ path h => h.modifyPlan path _) fun _ _ h => h : Keeps _ _ _).after ih
  | evaluate t _ ih => exact (Listed.steady.evaluate t).after ih
  | request request _ ih => exact (Listed.steady.request request).after ih

end Registry

/-! ## Reading -/

/-- Reading the rows of a field changes nothing, and fails only if the store does. -/
theorem Plan.readRows_eq (storage : Storage) (store : Store) :
    ∃ rows : Except Sql.Fault (List Json),
      outcome (readRows (readCommand storage)) store = (rows.mapError Error.store, store) := by
  have hselect := Store.perform_select (readQuery storage) [] store
  have hperform := Store.onSession_outcome (·.perform (.select (readQuery storage)) []) store
  refine ⟨(store.session.perform (.select (readQuery storage)) []).1.map Store.rowsOf, ?_⟩
  unfold readRows
  rw [outcome_bind]
  change outcome (Store.perform (readCommand storage).statement []) store = _ at hperform
  change (outcome (Store.perform (readCommand storage).statement []) store).2 = store at hselect
  rw [hperform] at hselect ⊢
  rcases hresult : (store.session.perform (.select (readQuery storage)) []).1 with fault | result
  · exact Prod.ext rfl hselect
  · exact Prod.ext rfl hselect

/-- Reading a field changes nothing, and fails only if the store does. -/
theorem Registry.getField_eq {path : String} {r : Registry} {p : Plan} (hp : lookup path r.plans = some p) :
    ∃ rows : Except Sql.Fault (List Json), outcome (getField path) r = (rows.mapError Error.store, r) := by
  obtain ⟨rows, hrows⟩ := Plan.readRows_eq p.slot.storage r.store
  refine ⟨rows, ?_⟩
  unfold getField
  rw [outcome_bind, expectPlan_outcome, hp]
  dsimp only
  rw [onStore_outcome, hrows]

/-- **Nested writes end.** Whatever would be done where writes of triggers nest deeper than there are fields, a request
does the same as without marks, and leaves no mark. A write to a field in use fails and changes nothing. Reading a
field does not depend on the marks, and fails only if the store does. -/
theorem nesting_ends {r : Registry} (h : r.Running) (beyond : String → Json → Task Marked Unit) :
    (∀ request : Request, outcome (request.runMarked beyond r.paths.length) ⟨r, []⟩ =
      ((outcome request.run r).1, ⟨(outcome request.run r).2, []⟩)) ∧
    (∀ (depth : Nat) (path : String) (value : Json) (m : Marked),
      (lookup path m.registry.plans).isSome → path ∈ m.inUse →
      ∃ e, outcome (setTo beyond (depth + 1) path value) m = (.error e, m) ∧
        e.message = "Binding error: plan for '" ++ path ++ "' is already bound and in use") ∧
    ∀ (path : String) (q : Registry), (lookup path q.plans).isSome →
      ∃ rows : Except Sql.Fault Json, ∀ setField inUse,
        (Marked.host setField).get path ⟨q, inUse⟩ = (rows.mapError Error.store, ⟨q, inUse⟩) := by
  refine ⟨?_, ?_, ?_⟩
  · intro request
    obtain ⟨hresult, hmarks, -⟩ := request.runMarked_outcome beyond h.listed
    exact Prod.ext hresult hmarks
  · intro depth path value m hdeclared hused
    obtain ⟨p, hp⟩ := Option.isSome_iff_exists.1 hdeclared
    refine ⟨.binding (.inUse path), ?_, ?_⟩
    · rw [setTo, occupy_outcome, hp]
      dsimp only
      rw [if_pos hused]
    · have hstart : "Binding error: " ++ "plan for '" = "Binding error: plan for '" := by decide
      show "Binding error: " ++ ("plan for '" ++ path ++ "' is already bound and in use") = _
      rw [← String.append_assoc, ← String.append_assoc, hstart]
  · intro path q hdeclared
    obtain ⟨p, hp⟩ := Option.isSome_iff_exists.1 hdeclared
    obtain ⟨rows, hrows⟩ := getField_eq hp
    refine ⟨rows.map Json.arr, fun setField inUse => ?_⟩
    show outcome (onRegistry (getField path >>= fun rows => pure (Json.arr rows))) ⟨q, inUse⟩ = _
    rw [onRegistry_outcome, outcome_bind, hrows]
    cases rows <;> rfl

/-- Two configs, where each field is set by the trigger of the other one. -/
def circle : Artifact where
  fingerprint := ""
  declarations := {
    configs := [⟨"A", "x INTEGER"⟩, ⟨"B", "y INTEGER"⟩]
    triggers := [⟨"forth", "A", "SET(\"B.y\", 1);"⟩, ⟨"back", "B", "SET(\"A.x\", 2);"⟩] }

/-- A write that comes back to its own field in a circle is refused there, which fails all of it. No mark is left. -/
theorem nesting_ends_in_circle : ∃ r after, Registry.load circle (.ofContent {}) = (.ok r, after) ∧ r.Running ∧
    (outcome (Request.set "A.x" (.int 1)).run r).1.mapError Error.message =
      .error "Binding error: plan for 'A.x' is already bound and in use" ∧
    (∀ beyond, (outcome ((Request.set "A.x" (.int 1)).runMarked beyond r.paths.length) ⟨r, []⟩).2.inUse = []) ∧
    (∀ beyond, (outcome (setTo beyond 1 "A.x" (.int 2)) ⟨r, ["B.y", "A.x"]⟩).1.isOk = false) ∧
    ∃ rows : Except Sql.Fault Json,
      (Marked.host fun _ _ => pure ()).get "A.x" ⟨r, ["B.y", "A.x"]⟩ =
        (rows.mapError Error.store, ⟨r, ["B.y", "A.x"]⟩) := by
  obtain ⟨r, after, hload, hdeclared, hresult⟩ : ∃ r after, Registry.load circle (.ofContent {}) = (.ok r, after) ∧
      (lookup "A.x" r.plans).isSome = true ∧
      (outcome (Request.set "A.x" (.int 1)).run r).1.mapError Error.message =
        .error "Binding error: plan for 'A.x' is already bound and in use" :=
    Registry.exists_of_load (by decide +kernel)
  have hrunning : r.Running := .load hload
  refine ⟨r, after, hload, hrunning, hresult, fun beyond => ?_, fun beyond => ?_, ?_⟩
  · rw [(nesting_ends hrunning beyond).1]
  · obtain ⟨e, he, -⟩ := (nesting_ends hrunning beyond).2.1 0 "A.x" (.int 2) ⟨r, ["B.y", "A.x"]⟩ hdeclared
      (.tail _ (.head _))
    rw [he]
    rfl
  · obtain ⟨rows, hrows⟩ := (nesting_ends hrunning fun _ _ => pure ()).2.2 "A.x" r hdeclared
    exact ⟨rows, hrows _ _⟩

end GuardedConfig
