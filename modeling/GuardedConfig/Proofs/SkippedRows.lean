import GuardedConfig.Proofs.KeptTables
import GuardedConfig.Proofs.Statements
import GuardedConfig.Proofs.Views

/-!
# `Proofs.SkippedRows` — a row that is inserted again is skipped

The row of a config is inserted unless there is one with its identifier. What happens to it before it is compared with
the other rows does not depend on what the tables hold: defaults are constants, and checks have no subqueries. So once
it could be inserted, inserting it again changes no table, whatever the table holds by then besides the row.

One thing can still make the store refuse: a foreign key that refers to no key of the table of the config, which the
store looks at before it looks at any row. Such a key may have come with another table, later than the row.

## Contents

* `Content.info?`, `Content.Extends` — tables by their names
* `fillNulls_ignore`, `passesChecks_ignore` — what does not depend on the tables
* `clearRow_taken`, `decides_of_addRow`, `addRow_taken` — an identifier that is taken
* `configInsert`, `IsConfig`, `TakesRow` — the row of a config
* `HasParents`, `Accepts`, `referenceFault?_eq_none_iff` — foreign keys
* `takesRow_of_perform`, `perform_taken` — inserting the row once, and again
-/

namespace GuardedConfig

open Schema

namespace Sql

variable {t : TableInfo} {c : Content}

/-! ## Tables by their names -/

namespace Content

/-- The definition of the table with a name. -/
def info? (c : Content) (name : String) : Option TableInfo := (c.find? name).map (·.info)

/-- The tables of a content are there in another one. -/
def Extends (c c' : Content) : Prop := ∀ name, ∀ t ∈ c.info? name, t ∈ c'.info? name

theorem info?_eq_some {name : String} : c.info? name = some t ↔ ∃ stored, c.find? name = some stored ∧ stored.info = t :=
  Option.map_eq_some_iff

theorem Extends.refl (c : Content) : c.Extends c := fun _ _ h => h

theorem Extends.trans {c c' c'' : Content} (h : c.Extends c') (h' : c'.Extends c'') : c.Extends c'' :=
  fun name t ht => h' name t (h name t ht)

theorem info?_eq_find? (c : Content) (name : String) :
    c.info? name = c.infos.find? fun t => sameName t.name name := (c.find?_infos name).symm

theorem Extends.of_infos {c c' : Content} (h : c'.infos = c.infos) : c.Extends c' := by
  intro name t ht
  rw [info?_eq_find?] at ht ⊢
  exact h ▸ ht

theorem Extends.of_tables {c c' : Content} (h : c'.tables = c.tables) : c.Extends c' :=
  .of_infos (congrArg (List.map Stored.info) h)

theorem info?_add (c : Content) (info : TableInfo) (name : String) :
    (c.add info).info? name = (c.info? name).or (if sameName info.name name then some info else none) := by
  have hinfos : (c.add info).infos = c.infos ++ [info] := List.map_append
  rw [info?_eq_find?, info?_eq_find?, hinfos, List.find?_append, List.find?_singleton]

theorem extends_add (c : Content) (info : TableInfo) : c.Extends (c.add info) := by
  intro name t ht
  rw [info?_add, show c.info? name = _ from ht]
  exact rfl

/-- A table is also found by its own name. -/
theorem find?_name {name : String} {stored : Stored} (h : c.find? name = some stored) :
    c.find? stored.info.name = some stored := (c.find?_congr (mem_infos_of_find? h |>.2)).trans h

end Content

/-! ## What does not depend on the tables -/

/-- Where a null is refused, the row is skipped. -/
theorem fillNulls_ignore (t : TableInfo) (relevant : Nat → Bool) (i : Nat) (columns : List ColumnInfo)
    (values : List Value) :
    ∃ r, ∀ q, outcome (fillNulls (some .ignore) t relevant i columns values) q = (.ok r, q) := by
  induction columns generalizing i values with
  | nil => exact ⟨some values, fun q => by unfold fillNulls; rfl⟩
  | cons c cs ih =>
    cases values with
    | nil => exact ⟨some [], fun q => by unfold fillNulls; rfl⟩
    | cons v vs =>
      obtain ⟨rest, hrest⟩ := ih (i + 1) vs
      cases hnull : if v == .null && relevant i && t.key != some i then c.notNull else none with
      | none =>
        refine ⟨rest.map (v :: ·), fun q => ?_⟩
        rw [fillNulls, hnull]
        dsimp only
        rw [outcome_bind_ok (hrest q)]
        rfl
      | some own =>
        refine ⟨none, fun q => ?_⟩
        rw [fillNulls, hnull]
        rfl

/-- Checks without subqueries look at their row alone. -/
theorem passesChecks_ignore (t : TableInfo) (row : Row) {checks : List CheckInfo}
    (h : ∀ k ∈ checks, ∀ part ∈ k.condition.parts, part.subquery? = none) :
    ∃ r, ∀ q, outcome (passesChecks (some .ignore) t row checks) q = (r, q) := by
  induction checks with
  | nil => exact ⟨.ok true, fun _ => rfl⟩
  | cons k ks ih =>
    obtain ⟨hk, hks⟩ := List.forall_mem_cons.1 h
    obtain ⟨r, hr⟩ := ih hks
    let scopes : List (List Binding) := [[{ label := t.name, info := t, row }]]
    refine ⟨match eval { content := {}, scopes } k.condition with
      | .error f => .error ⟨f, .abort⟩
      | .ok v => if v.truth? = some false then .ok false else r, fun q => ?_⟩
    rw [passesChecks, outcome_bind_ok (outcome_get q)]
    dsimp only
    rw [eval_congr (.of_none hk q.content {}) scopes]
    cases eval { content := {}, scopes } k.condition with
    | error f => rfl
    | ok v =>
      rw [outcome_bind_ok (show outcome (Change.ofExcept (.ok v)) q = (.ok v, q) from rfl)]
      dsimp only
      split
      · rfl
      · exact hr q

/-! ## An identifier that is taken -/

/-- A row whose identifier is taken is skipped, whichever constraint is looked at first. -/
theorem clearRow_taken {q : Progress} {stored : Stored} (hfind : q.content.find? t.name = some stored) {row : Row}
    (htaken : ∃ other ∈ stored.rows, other.id = row.id) :
    outcome (clearRow actionDepth (some .ignore) t none row (uniquenesses t)) q = (.ok false, q) := by
  have hkey : Uniqueness.key ∈ uniquenesses t := by
    unfold uniquenesses
    dsimp only
    rw [List.partition_eq_filter_filter]
    dsimp only
    rw [List.mem_append, List.mem_filter, List.mem_filter]
    by_cases h : (Uniqueness.key.conflict t == some Conflict.replace) = true
    · exact .inr ⟨List.mem_cons_self .., h⟩
    · exact .inl ⟨List.mem_cons_self .., by simpa using h⟩
  let rivals := fun (u : Uniqueness) => stored.rows.filter fun other => some other.id != none && u.clash row other
  rw [show actionDepth = 2000 + 1 from rfl, clearRow]
  refine (outcome_bind_ok (outcome_forIn_done (some false, ()) (fun u _ => ?_) ⟨.key, hkey, ?_⟩)).trans rfl
  · dsimp only
    rw [outcome_bind_ok (outcome_get q), hfind]
    dsimp only
    cases (rivals u).isEmpty with
    | true => exact .inl rfl
    | false => exact .inr rfl
  · dsimp only
    rw [outcome_bind_ok (outcome_get q), hfind]
    dsimp only
    have hrivals : (rivals .key).isEmpty = false := by
      obtain ⟨other, hother, hid⟩ := htaken
      rw [List.isEmpty_eq_false_iff_exists_mem]
      exact ⟨other, List.mem_filter.2 ⟨hother, by simp [Uniqueness.clash, hid]⟩⟩
    rw [show (stored.rows.filter _).isEmpty = false from hrivals]
    rfl

/-! ## Adding the row -/

/-- The checks of a table come to a result for a row of some values, if no null keeps it from being checked. -/
def TableInfo.Decides (t : TableInfo) (id : Int) (values : List Value) : Prop :=
  ∀ filled q, outcome (fillNulls (some .ignore) t (fun _ => true) 0 t.columns values) q = (.ok (some filled), q) →
    ∃ passed, ∀ q', outcome (passesChecks (some .ignore) t (convert t id filled) t.checks) q' = (.ok passed, q')

/-- The content where a table has used an identifier, if it has automatic ones. -/
def Content.noted (c : Content) (t : TableInfo) (id : Int) : Content := if t.autoincrement then c.note t.name id else c

theorem Content.tables_noted (c : Content) (t : TableInfo) (id : Int) : (c.noted t id).tables = c.tables := by
  unfold noted note
  split
  · split <;> rfl
  · rfl

section AddRow

variable {alone : Bool} {table : String} {id : Int} {values : List Value} {q : Progress} {stored : Stored}
  (hfind : q.content.find? table = some stored)
include hfind

/-- A row that could be added was checked. -/
theorem decides_of_addRow (hchecks : ∀ k ∈ stored.info.checks, ∀ part ∈ k.condition.parts, part.subquery? = none)
    {after : Progress} (hok : outcome (addRow (some .ignore) alone table (.integer id) values) q = (.ok (), after)) :
    stored.info.Decides id values := by
  unfold addRow at hok
  rw [outcome_bind_ok (outcome_get q)] at hok
  extract_lets content at hok
  rw [show content.find? table = _ from hfind] at hok
  dsimp -zeta only at hok
  extract_lets t add at hok
  rw [outcome_bind_ok (show outcome (Change.ofExcept (keyOf (.integer id))) q = (.ok id, q) from rfl)] at hok
  unfold add at hok
  extract_lets insert at hok
  obtain ⟨q₁, hinsert⟩ : ∃ q₁, outcome (insert ()) q₁ = (.ok (), after) := by
    split at hok
    · exact ⟨_, hok⟩
    · exact ⟨q, hok⟩
  obtain ⟨r, q₂, hfill, hchecked⟩ := outcome_bind_eq_ok.1 hinsert
  obtain ⟨r', hfills⟩ := fillNulls_ignore t (fun _ => true) 0 t.columns values
  rw [hfills] at hfill
  cases hfill
  intro filled q' hfilled
  rw [show outcome _ q' = _ from hfills q'] at hfilled
  cases hfilled
  obtain ⟨passed, q₃, hpassed, -⟩ := outcome_bind_eq_ok.1 hchecked
  obtain ⟨checked, hpasses⟩ := passesChecks_ignore t (convert t id filled) hchecks
  rw [hpasses] at hpassed
  cases hpassed
  exact ⟨passed, hpasses⟩

/-- **A row whose identifier is taken changes no row.** Only the identifier is noted once more. -/
theorem addRow_taken (htaken : ∃ row ∈ stored.rows, row.id = id) (hdecides : stored.info.Decides id values) :
    outcome (addRow (some .ignore) alone table (.integer id) values) q =
      (.ok (), { q with content := q.content.noted stored.info id }) := by
  let noted : Progress := { q with content := q.content.noted stored.info id }
  unfold addRow
  rw [outcome_bind_ok (outcome_get q)]
  extract_lets content
  rw [show content.find? table = _ from hfind]
  dsimp -zeta only
  extract_lets t add
  rw [outcome_bind_ok (show outcome (Change.ofExcept (keyOf (.integer id))) q = (.ok id, q) from rfl)]
  unfold add
  extract_lets insert
  have hinsert : outcome (insert ()) noted = (.ok (), noted) := by
    obtain ⟨r, hfills⟩ := fillNulls_ignore t (fun _ => true) 0 t.columns values
    unfold insert
    rw [outcome_bind_ok (hfills noted)]
    cases r with
    | none => rfl
    | some filled =>
      obtain ⟨passed, hpasses⟩ := hdecides filled noted (hfills noted)
      dsimp only
      rw [outcome_bind_ok (hpasses noted)]
      cases passed with
      | false => rfl
      | true =>
        have hclear : outcome (clearRow actionDepth (some .ignore) t none (convert t id filled) (uniquenesses t)) noted =
            (.ok false, noted) := by
          have hnamed : noted.content.find? t.name = some stored := by
            rw [← Content.find?_name hfind]
            unfold Content.find?
            rw [Content.tables_noted]
          exact clearRow_taken hnamed htaken
        rw [if_neg (by simp), outcome_bind_ok hclear]
        rfl
  show outcome (if t.autoincrement = true then _ else insert ()) q = (.ok (), noted)
  cases hauto : t.autoincrement with
  | true =>
    have hnoted : outcome (modifyContent (·.note t.name id)) q = (.ok (), noted) := by
      unfold noted Content.noted
      rw [if_pos hauto]
      rfl
    rw [if_pos rfl, outcome_bind_ok hnoted]
    exact hinsert
  | false =>
    have hnoted : q = noted := by
      unfold noted Content.noted
      rw [if_neg (Bool.eq_false_iff.1 hauto)]
    rw [if_neg (by simp)]
    exact hnoted ▸ hinsert

end AddRow

/-! ## Inserting the row of a config -/

/-- The insertion of the row of a config, unless it is there. -/
def configInsert (config : String) : Insert where
  conflict := some .ignore
  table := config
  columns := some [primaryKey config]
  rows := some [[.int configRow]]

/-- Before the row is added, its table is found, then its column, then the parents of the table, and last the foreign
keys that refer to the table. -/
theorem prepare_configInsert (config : String) (c : Content) :
    (configInsert config).prepare c [] = (do
      let stored ← expectTable c config
      let places ← columnPlaces stored.info config [primaryKey config]
      let row ← newRow stored.info places [.integer configRow]
      reportLast (referenceFault? c stored.info (fun _ => true) (·.deferred)).toList
      return [row].forM fun (key, values) => addRow (some .ignore) true stored.info.name key values) := by
  unfold Insert.prepare configInsert
  dsimp only
  cases expectTable c config with
  | error f => rfl
  | ok stored =>
    rw [except_ok_bind, except_ok_bind]
    cases hplaces : columnPlaces stored.info config [primaryKey config] with
    | error f => rfl
    | ok places =>
      obtain ⟨place, rfl⟩ : ∃ place, places = [place] := by
        obtain ⟨place, rest, -, hrest, rfl⟩ := List.forall₂_cons_left_iff.1 (mapM_eq_ok_iff.1 hplaces)
        exact ⟨place, by rw [List.forall₂_nil_left_iff.1 hrest]⟩
      have hreplace : ∀ keyGiven given, mayReplace (some .ignore) stored.info keyGiven given = false := by
        intro keyGiven given
        unfold mayReplace
        rw [List.any_eq_false]
        intro u _
        simp
      have hrows : (List.mapM (fun r => do return ([place], ← evalAll { content := c } r)) [[Expr.int configRow]] :
          Except Fault _) = .ok [([place], [.integer configRow])] := rfl
      rw [except_ok_bind, except_ok_bind]
      simp only [hreplace]
      rw [if_neg (by simp), hrows, except_ok_bind]
      show (List.mapM (fun row : List (Option Nat) × List Value => newRow stored.info row.1 row.2)
        [([place], [.integer configRow])] >>= _) = _
      rw [List.mapM_cons, List.mapM_nil]
      cases newRow stored.info [place] [.integer configRow] <;> rfl

/-- A table that goes by the name of a config: its first column is the key, under the name that the config expects, and
its checks look at their row alone. -/
structure TableInfo.IsConfig (t : TableInfo) (config : String) : Prop where
  key : t.key = some 0
  column : t.columnIndex? (primaryKey config) = some 0
  checks : ∀ k ∈ t.checks, ∀ part ∈ k.condition.parts, part.subquery? = none

/-- A table of a config into which the row of the config could be inserted. -/
structure TableInfo.TakesRow (t : TableInfo) (config : String) : Prop extends t.IsConfig config where
  row : ∃ values, newRow t [some 0] [.integer configRow] = .ok (.integer configRow, values) ∧ t.Decides configRow values

/-- The foreign keys of a table refer to keys. -/
def Content.HasParents (c : Content) (t : TableInfo) : Prop :=
  ∀ k ∈ t.foreignKeys, ∃ p ∈ c.info? k.parent, (parentKey p k).isSome = true

theorem Content.HasParents.mono {c c' : Content} (h : c.HasParents t) (hc : c.Extends c') : c'.HasParents t := by
  intro k hk
  obtain ⟨p, hp, hkey⟩ := h k hk
  exact ⟨p, hc _ p hp, hkey⟩

theorem parentOf_isOk {c : Content} {k : ForeignKeyInfo} :
    (∃ pair, parentOf c t k = .ok pair) ↔ ∃ p ∈ c.info? k.parent, (parentKey p k).isSome = true := by
  unfold parentOf Content.info?
  cases hfind : c.find? k.parent with
  | none => simp
  | some stored =>
    cases hkey : parentKey stored.info k <;> simp [hkey]

/-- No foreign key of a table refers to what is no key, nor does one refer so to the table that is checked at the end of
a transaction. -/
def Content.Accepts (c : Content) (t : TableInfo) : Prop := c.HasParents t ∧ mismatches c t (·.deferred) = []

/-- What the store looks at before it looks at the row of a config. -/
theorem referenceFault?_eq_none_iff :
    referenceFault? c t (fun _ => true) (·.deferred) = none ↔ c.Accepts t := by
  unfold referenceFault?
  extract_lets fault?
  have hfault : ∀ k, fault? k = none ↔ ∃ p ∈ c.info? k.parent, (parentKey p k).isSome = true := by
    intro k
    rw [← parentOf_isOk (t := t)]
    unfold fault?
    cases parentOf c t k <;> simp
  rw [Option.or_eq_none_iff, List.findSome?_eq_none_iff, List.head?_eq_none_iff]
  simp only [List.filter_true, List.mem_reverse, hfault]
  rfl

theorem columnPlaces_config {config : String} (h : t.IsConfig config) :
    columnPlaces t config [primaryKey config] = .ok [some 0] := by
  unfold columnPlaces
  rw [List.mapM_cons, h.column]
  rfl

/-- What is given for the identifier of a row is its identifier. -/
theorem fst_of_newRow {v : Value} {row : Value × List Value} (hkey : t.key = some 0)
    (hrow : newRow t [some 0] [v] = .ok row) : row.1 = v := by
  unfold newRow at hrow
  obtain ⟨values, -, hrow⟩ := except_bind_eq_ok.1 hrow
  rw [hkey] at hrow
  cases hrow
  rfl

theorem reportLast_toList (f : Option Fault) : reportLast f.toList = match f with
    | some f => .error f
    | none => .ok () := by
  cases f <;> rfl

section ConfigRow

variable {s : Session} {config : String}

/-- What is learned of the table of a config when the row is inserted. -/
theorem takesRow_of_perform {after : Session} {r : Sql.Result} (hconfig : ∀ t ∈ s.content.info? config, t.IsConfig config)
    (hok : s.perform (.insert (configInsert config)) [] = (.ok r, after)) :
    ∃ t ∈ s.content.info? config, t.TakesRow config ∧ s.content.HasParents t := by
  obtain ⟨op, q, hprepare, hop, -⟩ := Session.perform_insert_eq_ok hok
  rw [prepare_configInsert] at hprepare
  cases hfind : s.content.find? config with
  | none =>
    rw [show expectTable s.content config = .error (.noTable config) by unfold expectTable; rw [hfind]] at hprepare
    cases hprepare
  | some stored =>
    have hinfo : stored.info ∈ s.content.info? config := Content.info?_eq_some.2 ⟨stored, hfind, rfl⟩
    have hc := hconfig _ hinfo
    rw [show expectTable s.content config = .ok stored by unfold expectTable; rw [hfind], except_ok_bind,
      columnPlaces_config hc, except_ok_bind, reportLast_toList] at hprepare
    cases hrow : newRow stored.info [some 0] [.integer configRow] with
    | error f =>
      rw [hrow] at hprepare
      cases hprepare
    | ok row =>
      rw [hrow, except_ok_bind] at hprepare
      cases hreference : referenceFault? s.content stored.info (fun _ => true) (·.deferred) with
      | some f =>
        rw [hreference] at hprepare
        cases hprepare
      | none =>
        rw [hreference] at hprepare
        cases hprepare
        obtain ⟨⟨⟩, q', hadd, -⟩ := outcome_bind_eq_ok.1 hop
        obtain ⟨key, values⟩ := row
        obtain rfl : key = .integer configRow := fst_of_newRow hc.key hrow
        have hdecides := decides_of_addRow (Content.find?_name hfind) hc.checks hadd
        exact ⟨stored.info, hinfo, ⟨hc, values, hrow, hdecides⟩, (referenceFault?_eq_none_iff.1 hreference).1⟩

/-- **The row of a config that is there is not inserted again.** The rows of all tables stay. Only a foreign key that
refers to what is no key can make the store refuse. -/
theorem perform_taken {stored : Stored} (hfind : s.content.find? config = some stored) (h : stored.info.TakesRow config)
    (htaken : ∃ row ∈ stored.rows, row.id = configRow) :
    s.perform (.insert (configInsert config)) [] =
      match referenceFault? s.content stored.info (fun _ => true) (·.deferred) with
      | none => (.ok default, { s with content := s.content.noted stored.info configRow, changes := 0 })
      | some f => (.error f, s) := by
  obtain ⟨values, hrow, hdecides⟩ := h.row
  have hprepare : s.prepare (.insert (configInsert config)) [] =
      match referenceFault? s.content stored.info (fun _ => true) (·.deferred) with
      | none => .ok (.change ([(Value.integer configRow, values)].forM fun row =>
          addRow (some .ignore) true stored.info.name row.1 row.2))
      | some f => .error f := by
    show ((configInsert config).prepare s.content []).map Session.Prepared.change = _
    rw [prepare_configInsert, show expectTable s.content config = .ok stored by unfold expectTable; rw [hfind],
      except_ok_bind, columnPlaces_config h.toIsConfig, except_ok_bind, hrow, except_ok_bind, reportLast_toList]
    cases referenceFault? s.content stored.info (fun _ => true) (·.deferred) <;> rfl
  cases hreference : referenceFault? s.content stored.info (fun _ => true) (·.deferred) with
  | none =>
    rw [hreference] at hprepare
    refine Session.perform_eq (q := { content := s.content.noted stored.info configRow, lastRowId := s.lastRowId })
      hprepare ?_ fun hu => nomatch hu
    exact (outcome_bind_ok (addRow_taken (Content.find?_name hfind) htaken hdecides)).trans rfl
  | some f =>
    unfold Session.perform
    rw [hprepare, hreference]

end ConfigRow

end Sql

end GuardedConfig
