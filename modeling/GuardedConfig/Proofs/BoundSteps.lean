import GuardedConfig.Proofs.Faults
import GuardedConfig.Proofs.InsertedRows

/-!
# `Proofs.BoundSteps` — what the steps of a bound plan do, in every run

One captured identifier is threaded through all steps of a write, and linking a row inserts another one, which changes
the last identifier of the session. A run still gives each row its own identifier: the commands after an insertion are
performed with the last identifier of the session right after it, and the next capture comes after the next insertion.
`RunsRows` says so for every run, however many rows there are and wherever the store refuses.

## Contents

* `RunsWith`, `runWrites_commands` — commands that share one captured row
* `Added`, `RunsRows`, `runWrites_rows` — rows, each with the commands that use it
* `Runs`, `runs_of_inserts` — whole writes
* `WellBound`, `bind_wellBound` — bound plans
-/

namespace GuardedConfig.Plan

open Schema

variable {captured : Option Int} {commands : List Command}

/-! ## Commands -/

/-- A run of commands, one after the other, until the store refuses one; all of them find the same captured row. -/
inductive RunsWith (captured : Option Int) : List Command → Store → Except Error Unit × Store → Prop where
  | done {store : Store} : RunsWith captured [] store (.ok (), store)
  | refused {c : Command} {commands : List Command} {store : Store} {values : List Sql.Value} {fault : Sql.Fault}
      {session : Sql.Session} (hvalues : resolve captured c = .ok values)
      (hrefused : store.session.perform c.statement values = (.error fault, session)) :
      RunsWith captured (c :: commands) store (.error (.store fault), { store with session })
  | next {c : Command} {commands : List Command} {store : Store} {values : List Sql.Value} {result : Sql.Result}
      {session : Sql.Session} {final : Except Error Unit × Store} (hvalues : resolve captured c = .ok values)
      (hperformed : store.session.perform c.statement values = (.ok result, session))
      (hrest : RunsWith captured commands { store with session } final) :
      RunsWith captured (c :: commands) store final

/-- The steps of commands that find a row run them, and then the steps after them. -/
theorem runWrites_commands (h : ∀ c ∈ commands, captured = none → ¬ c.UsesRow) (steps : List WriteStep)
    (store : Store) :
    (∃ e after, RunsWith captured commands store (.error e, after) ∧
        outcome (runWrites captured (commands.map .execute ++ steps)) store = (.error e, after)) ∨
      ∃ next, RunsWith captured commands store (.ok (), next) ∧
        outcome (runWrites captured (commands.map .execute ++ steps)) store =
          outcome (runWrites captured steps) next := by
  induction commands generalizing store with
  | nil => exact .inr ⟨store, .done, rfl⟩
  | cons c commands ih =>
    obtain ⟨hc, hcommands⟩ := List.forall_mem_cons.1 h
    obtain ⟨values, hvalues⟩ := exists_resolve hc
    rw [List.map_cons, List.cons_append, runWrites_execute hvalues]
    rcases hperform : store.session.perform c.statement values with ⟨fault | result, session⟩
    · exact .inl ⟨_, _, .refused hvalues hperform, rfl⟩
    · obtain ⟨e, after, hrun, heq⟩ | ⟨next, hrun, heq⟩ := ih hcommands { store with session }
      · exact .inl ⟨e, after, .next hvalues hperform hrun, heq⟩
      · exact .inr ⟨next, .next hvalues hperform hrun, heq⟩

/-! ## Rows -/

variable {table : Option Table} {users inserts : List Command}

/-- An insertion that succeeded on a store. If it counts a row, then the row is in the table, and has the last
identifier of the session. -/
structure Added (table : Option Table) (insert : Command) (store : Store) (added : Sql.Session) : Prop where
  performed : ∃ values result, insert.params = values.map .value ∧
    store.session.perform insert.statement values = (.ok result, added)
  row : added.changes ≠ 0 → ∃ t ∈ table, added.HasAdded t.name

/-- A run of the insertions of rows, one after the other, each followed by the commands that use its row: they are given
the identifier that the session has right after the insertion. -/
inductive RunsRows (table : Option Table) (users : List Command) :
    List Command → Store → Except Error Unit × Store → Prop where
  | done {store : Store} : RunsRows table users [] store (.ok (), store)
  | refused {insert : Command} {inserts : List Command} {store : Store} {values : List Sql.Value} {fault : Sql.Fault}
      {session : Sql.Session} (hvalues : insert.params = values.map .value)
      (hrefused : store.session.perform insert.statement values = (.error fault, session)) :
      RunsRows table users (insert :: inserts) store (.error (.store fault), { store with session })
  | unused {insert : Command} {inserts : List Command} {store after : Store} {added : Sql.Session} {e : Error}
      (hadded : Added table insert store added)
      (husers : RunsWith (some added.lastRowId) users { store with session := added } (.error e, after)) :
      RunsRows table users (insert :: inserts) store (.error e, after)
  | used {insert : Command} {inserts : List Command} {store next : Store} {added : Sql.Session}
      {final : Except Error Unit × Store} (hadded : Added table insert store added)
      (husers : RunsWith (some added.lastRowId) users { store with session := added } (.ok (), next))
      (hrest : RunsRows table users inserts next final) :
      RunsRows table users (insert :: inserts) store final

/-- The steps of rows run them, whatever was captured before. -/
theorem runWrites_rows (h : ∀ insert ∈ inserts, ∃ t ∈ table, ∃ members, insertRow t members = .ok insert)
    (captured : Option Int) (store : Store) :
    RunsRows table users inserts store (outcome (runWrites captured (inserts.flatMap (rowSteps users))) store) := by
  induction inserts generalizing captured store with
  | nil => exact .done
  | cons insert inserts ih =>
    obtain ⟨⟨t, ht, members, hinsert⟩, hinserts⟩ := List.forall_mem_cons.1 h
    obtain ⟨i, values, rfl, hi, hrows⟩ := insert_of_insertRow hinsert
    rw [List.flatMap_cons, rowSteps, List.cons_append, List.cons_append, runWrites_execute (resolve_of_params rfl _)]
    rcases hperform : store.session.perform (.insert i) values with ⟨fault | result, added⟩
    · exact .refused rfl hperform
    · have hadded : Added table { statement := .insert i, params := values.map .value } store added :=
        ⟨⟨values, result, rfl, hperform⟩,
          fun hcount => ⟨t, ht, hi ▸ Sql.Session.hasAdded_of_perform hrows hperform hcount⟩⟩
      dsimp only
      rw [runWrites_captureRowId]
      -- the identifier stays captured while the row is used, also where linking it inserts another row
      have hcaptured : ∀ c ∈ users, some added.lastRowId = none → ¬ c.UsesRow := fun _ _ hnone => absurd hnone (Option.some_ne_none _)
      obtain ⟨e, after, husers, heq⟩ | ⟨next, husers, heq⟩ :=
        runWrites_commands hcaptured (inserts.flatMap (rowSteps users)) { store with session := added }
      · exact heq ▸ .unused hadded husers
      · exact heq ▸ .used hadded husers (ih hinserts _ _)

/-! ## Whole writes -/

/-- A run of the first commands of a write, which have no captured row, and then of its rows. -/
inductive Runs (table : Option Table) (first users inserts : List Command) (store : Store) :
    Except Error Unit × Store → Prop where
  | refused {e : Error} {after : Store} (hfirst : RunsWith none first store (.error e, after)) :
      Runs table first users inserts store (.error e, after)
  | rows {next : Store} {final : Except Error Unit × Store} (hfirst : RunsWith none first store (.ok (), next))
      (hrows : RunsRows table users inserts next final) : Runs table first users inserts store final

variable {storage : Storage} {value : Json}

theorem runs_of_inserts (h : Inserts storage value inserts) (store : Store) :
    Runs storage.rowTable (firstOf storage value) (usersOf storage) inserts store
      (outcome (runWrites none ((firstOf storage value).map .execute ++ inserts.flatMap (rowSteps (usersOf storage))))
        store) := by
  obtain ⟨e, after, hfirst, heq⟩ | ⟨next, hfirst, heq⟩ := runWrites_commands
    (fun c hc _ => firstOf_not_usesRow storage value c hc) (inserts.flatMap (rowSteps (usersOf storage))) store
  · exact heq ▸ .refused hfirst
  · exact heq ▸ .rows hfirst (runWrites_rows (fun _ => h.insertRow_of_mem) none next)

/-! ## Bound plans -/

/-- What holds of a plan for a storage that is bound to a value. -/
structure WellBound (storage : Storage) (value : Json) (bound : Plan) : Prop where
  /-- Each statement has as many parameters as question marks outside quotes. -/
  marked : ∀ c, .execute c ∈ bound.writes ∨ c ∈ bound.reads → c.IsMarked
  /-- A capture directly follows the insertion of a row, and a use of the row follows a capture. -/
  placed : WellPlaced storage.rowTable bound.writes
  /-- The steps are those of the rows of the value, and each run gives each row its own identifier. -/
  runs : ∃ inserts, Inserts storage value inserts ∧
    bound.writes = (firstOf storage value).map .execute ++ inserts.flatMap (rowSteps (usersOf storage)) ∧
      ∀ store, Runs storage.rowTable (firstOf storage value) (usersOf storage) inserts store
        (outcome (runWrites none bound.writes) store)
  /-- An execution fails only where the store or one of the triggers does. -/
  faults : ∀ (σ : Type) [HasStore σ] (evaluate : Trigger → Task σ Unit) (s : σ) (e : Error),
    (outcome (bound.execute evaluate) s).1 = .error e →
      e.IsStore ∨ ∃ t ∈ bound.triggers, ∃ s', (outcome (evaluate t) s').1 = .error e
  /-- Where triggers set other fields, no execution reports that no row was captured, at any depth. -/
  hasRows : ∀ (r : Registry) (free : List String) (e : Error), r.Genuine →
    (outcome (bound.execute fun t => Task.of (t.run (Registry.host (Registry.setWithin free)))) r).1 = .error e →
      ¬ e.IsNoRow
  /-- The query is that of the storage, without parameters, and fails only where the store does. -/
  reads : bound.reads = [readCommand storage] ∧ (readCommand storage).params = [] ∧
    ∀ (store : Store) (e : Error), (outcome bound.view store).1 = .error e → e.IsStore

theorem bind_eq_ok {p : Plan} (h : (p.bind value).1 = .ok ()) :
    writeSteps p.path p.slot.storage value = .ok (p.bind value).2.writes ∧
      (p.bind value).2.reads = [readCommand p.slot.storage] ∧ (p.bind value).2.bound = true := by
  unfold bind at h ⊢
  cases hsteps : writeSteps p.path p.slot.storage value with
  | error f =>
    rw [hsteps] at h
    cases h
  | ok steps => exact ⟨rfl, rfl, rfl⟩

/-- **The steps of a bound plan are well formed**, whatever the storage and the value. -/
theorem bind_wellBound (p : Plan) (value : Json) (h : (p.bind value).1 = .ok ()) :
    WellBound p.slot.storage value (p.bind value).2 := by
  obtain ⟨hsteps, hreads, hbound⟩ := bind_eq_ok h
  have hplaced := writeSteps_wellPlaced hsteps
  constructor
  case marked =>
    rintro c (hc | hc)
    · exact writeSteps_marked hsteps hc
    · rw [hreads] at hc
      exact List.mem_singleton.1 hc ▸ readCommand_marked p.slot.storage
  case placed => exact hplaced
  case runs =>
    obtain ⟨inserts, hinserts, heq⟩ := writeSteps_eq_ok hsteps
    refine ⟨inserts, hinserts, heq, fun store => ?_⟩
    rw [heq]
    exact runs_of_inserts hinserts store
  case faults =>
    intro σ _ evaluate s
    have hreports := execute_reports (I := fun _ => True)
      (P := fun e => e.IsStore ∨ ∃ t ∈ (p.bind value).2.triggers, ∃ s', (outcome (evaluate t) s').1 = .error e)
      (fun step => .trivial _) (fun _ => .inl) hplaced hbound fun t ht s' _ => ⟨⟨⟩, fun e he => .inr ⟨t, ht, s', he⟩⟩
    exact (hreports s ⟨⟩).2
  case hasRows =>
    intro r free e hr
    exact (Registry.execute_hasRows (Registry.setWithin_hasRows free) (genuine_bind p value) r hr).2 e
  case reads => exact ⟨hreads, rfl, fun store => (view_reports hbound store ⟨⟩).2⟩

/-- The plan of a list of texts. -/
def namesPlan : Plan where
  slot := ⟨"A", "names", .list "A" (.wrapper "TEXT") true⟩

/-- A text, a text in a map of members, and an element that leaves all columns to their defaults. -/
def threeNames : Json := .arr [.str "a?", .obj [("value", .str "'")], .obj []]

theorem bind_wellBound_threeNames :
    (namesPlan.bind threeNames).1 = .ok () ∧
      WellBound namesPlan.slot.storage threeNames (namesPlan.bind threeNames).2 :=
  ⟨rfl, bind_wellBound namesPlan threeNames rfl⟩

end GuardedConfig.Plan
