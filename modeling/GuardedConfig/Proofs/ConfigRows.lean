import GuardedConfig.Proofs.Serving

/-!
# `Proofs.ConfigRows` — the row of a config

The table of a config is made to have one row, whose identifier is 1. In a plain schema it has this row from the
beginning, whatever is requested and whatever triggers do, so a scalar field is always read as one row.

The row is inserted without values, and an insertion that violates a constraint is skipped. So a config with a column
that must not be null has no row at all: a value that is set is lost, and nothing reports it.

## Contents

* `Regular.rows_scalar` — a scalar field is read as one row
* `config_keeps_row` — plain schemas
* `required_port_is_lost` — a column that must not be null
-/

namespace GuardedConfig

open Schema Sql

variable {c : Catalog} {s : CompiledSchema} {slot : Slot} {content : Content}

/-- A scalar field is read as one row. -/
theorem Schema.Regular.rows_scalar (h : Regular c s) (hslot : slot ∈ s.slots) {table column : String}
    (hs : slot.storage = .scalar table column) (ho : s.Owned none content) :
    ∃ v, slot.rows content = [Json.object [(column, Plan.ofStored v)]] := by
  obtain ⟨t, ht, rfl, hn, i, col, hi, rfl, -⟩ := h.scalar hslot hs
  obtain ⟨row, hrow, -⟩ := ho.row_of_config (mem_infos ht) hn
  refine ⟨row.value (i + 1), ?_⟩
  rw [Slot.rows_scalar hs, h.column_of_place ht ho.sound hi, show content.rowsOf t.name = [row] from hrow]
  rfl

/-- **The table of a config has exactly the row with the identifier 1**, and a scalar field that has been set is read as
exactly one row, if the declarations are plain. -/
theorem config_keeps_row {a : Artifact} {store : Store} (hstore : store.IsEmpty)
    (hok : Schema.compile a.declarations = .ok s) (hp : s.Plain) {r : Registry} (hr : Registry.Reachable a store r) :
    (∀ config ∈ s.configs, r.store.content.idsOf config = [1]) ∧
      ∀ slot ∈ s.slots, ∀ table column, slot.storage = .scalar table column → ∀ value,
        let (result, after) := outcome (Request.set slot.path value).run r
        result.isOk = true →
          ∃ v, (outcome (Registry.getField slot.path) after).1 = .ok [Json.object [(column, Plan.ofStored v)]] := by
  constructor
  · obtain ⟨c, triggers, hregular, -, hidle⟩ := hr.idle hstore hok hp
    exact (hregular.rowsOwned hidle.content).single
  · intro slot hslot table column hs value _
    have hafter := hr.request (.set slot.path value)
    obtain ⟨c, triggers, hregular, -, hidle⟩ := hafter.idle hstore hok hp
    obtain ⟨v, hv⟩ := hregular.rows_scalar hslot hs hidle.content
    have hget := Registry.getField_outcome hregular (hafter.routed hok) hidle.content hslot
    rw [hv] at hget
    exact ⟨v, congrArg Prod.fst hget⟩

theorem config_keeps_row_server : ∃ r, Registry.Reachable serverArtifact (.ofContent {}) r ∧
    r.store.content.idsOf "Server" = [1] := by
  obtain ⟨r, after, hload⟩ := load_server
  exact ⟨r, .load hload, (config_keeps_row isEmpty_new compile_server plain_server (.load hload)).1 "Server" (by decide)⟩

/-! ### A column that must not be null -/

/-- A server whose port must not be null. -/
def requiredPort : Artifact where
  fingerprint := ""
  declarations := { configs := [⟨"Server", "port INTEGER NOT NULL"⟩] }

/-- Loading the server succeeds, and so does setting the port, but its table has no row: the port is read as none. -/
theorem required_port_is_lost : ∃ r after, Registry.load requiredPort (.ofContent {}) = (.ok r, after) ∧
    r.store.content.idsOf "Server" = [] ∧
    (outcome (Request.set "Server.port" (.int 5)).run r).1.isOk = true ∧
    (outcome (Registry.getField "Server.port") (outcome (Request.set "Server.port" (.int 5)).run r).2).1 = .ok [] := by
  have hrun : (Registry.load requiredPort (.ofContent {})).1.toOption.any (fun r =>
      r.store.content.idsOf "Server" == [] && (outcome (Request.set "Server.port" (.int 5)).run r).1.isOk &&
        (outcome (Registry.getField "Server.port") (outcome (Request.set "Server.port" (.int 5)).run r).2).1.toOption.any
          List.isEmpty) = true := by decide +kernel
  rcases hload : Registry.load requiredPort (.ofContent {}) with ⟨e | r, after⟩
  · rw [hload] at hrun
    cases hrun
  · rw [hload] at hrun
    change (_ && _ && _) = true at hrun
    rw [Bool.and_eq_true, Bool.and_eq_true, beq_iff_eq] at hrun
    obtain ⟨⟨hrow, hset⟩, hget⟩ := hrun
    refine ⟨r, after, rfl, hrow, hset, ?_⟩
    rcases houtcome : (outcome (Registry.getField "Server.port")
      (outcome (Request.set "Server.port" (.int 5)).run r).2).1 with e | rows
    · rw [houtcome] at hget
      cases hget
    · rw [houtcome] at hget
      exact congrArg Except.ok (List.isEmpty_iff.1 hget)

end GuardedConfig
