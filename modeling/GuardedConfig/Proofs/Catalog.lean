import GuardedConfig.Proofs.Definition
import GuardedConfig.Proofs.Outcome
import GuardedConfig.Schema.Compile
import Mathlib.Data.List.Nodup

/-!
# `Proofs.Catalog` — what fields refer to

Names keep their meaning while declarations are compiled, and a table is recorded once, under its own name, when it is
made. So what a field refers to is a table that exists by then. It stands for items, unless a config is named like a
built-in type, whose lists then have the table of that config.

## Contents

* `ofExcept_bind_eq_ok`, `claim_eq_ok` — steps on a catalog that succeed
* `Catalog.Grows`, `Catalog.Supplies` — what a step leaves of a catalog
* `Catalog.Awaits` — names of tables that are still to be recorded
* `Fields`, `Table.IsBare` — what bodies give to tables
* `Supplied` — a step that supplies a table for items: `instantiate_supplies`, `reference_supplies`,
  `listItem_supplies`
-/

namespace GuardedConfig

variable {σ α β ε : Type}

namespace Schema

open GuardedConfig.Field

/-! ## Steps that succeed -/

theorem outcome_compileOfExcept (r : Except Fault α) (c : Catalog) : outcome (Compile.ofExcept r) c = (r, c) := by
  cases r <;> rfl

theorem ofExcept_bind_eq_ok {r : Except Fault α} {f : α → Compile β} {c c' : Catalog} {b : β} :
    outcome (Compile.ofExcept r >>= f) c = (.ok b, c') ↔ ∃ a, r = .ok a ∧ outcome (f a) c = (.ok b, c') := by
  rw [outcome_bind, outcome_compileOfExcept]
  cases r with
  | error e => exact ⟨fun h => (nomatch h), fun ⟨_, h, _⟩ => (nomatch h)⟩
  | ok a =>
    constructor
    · exact fun h => ⟨a, rfl, h⟩
    · rintro ⟨_, ha, h⟩
      cases ha
      exact h

theorem ofExcept_bind_eq_error {r : Except Fault α} {f : α → Compile β} {c c' : Catalog} {e : Fault} :
    outcome (Compile.ofExcept r >>= f) c = (.error e, c') ↔
      r = .error e ∧ c' = c ∨ ∃ a, r = .ok a ∧ outcome (f a) c = (.error e, c') := by
  rw [outcome_bind, outcome_compileOfExcept]
  cases r <;> simp [eq_comm]

theorem get_bind_eq_ok {f : Catalog → Compile β} {c c' : Catalog} {b : β} :
    outcome ((get : Compile Catalog) >>= f) c = (.ok b, c') ↔ outcome (f c) c = (.ok b, c') := by
  rw [outcome_bind_ok (outcome_get c)]

/-- Naming the field in a fault does not change what succeeds. -/
theorem inField_eq_ok {field config : String} {step : Compile α} {c c' : Catalog} {a : α} :
    outcome (inField field config step) c = (.ok a, c') ↔ outcome step c = (.ok a, c') := by
  unfold inField
  rw [outcome_tryCatch]
  rcases outcome step c with ⟨e | a, c⟩ <;> simp

/-- A name is claimed if it has no meaning yet. -/
theorem claim_eq_ok {name : String} {kind : Resolved} {c c' : Catalog} :
    outcome (claim name kind) c = (.ok (), c') ↔
      c.resolved name = none ∧ c' = { c with names := assign name kind c.names } := by
  unfold claim
  rw [get_bind_eq_ok]
  cases hr : c.resolved name with
  | some existing => exact ⟨fun h => (nomatch h), fun h => (nomatch h.1)⟩
  | none =>
    show ((Except.ok (), _) : Except Fault Unit × Catalog) = _ ↔ _
    simp [eq_comm]

/-! ## Catalogs -/

/-- Whether a name stands for a table of items. -/
def Resolved.isItem : Resolved → Bool
  | struct | template | instantiation | builtin => true
  | junction | config => false

/-! ### Association lists -/

theorem mem_of_lookup {key : String} {value : α} {l : List (String × α)} (h : lookup key l = some value) :
    (key, value) ∈ l := by
  induction l with
  | nil => cases h
  | cons entry l ih =>
    obtain ⟨k, v⟩ := entry
    rw [lookup] at h
    split at h
    · rename_i hk
      cases h
      exact hk ▸ List.mem_cons_self ..
    · exact List.mem_cons_of_mem _ (ih h)

theorem lookup_eq_none {key : String} {l : List (String × α)} : lookup key l = none ↔ ∀ entry ∈ l, entry.1 ≠ key := by
  induction l with
  | nil => simp [lookup]
  | cons entry l ih =>
    obtain ⟨k, v⟩ := entry
    rw [lookup, List.forall_mem_cons, ← ih]
    by_cases hk : k = key <;> simp [hk]

/-- A new key goes to the end. -/
theorem assign_of_lookup_eq_none {key : String} (value : α) {l : List (String × α)} (h : lookup key l = none) :
    assign key value l = l ++ [(key, value)] := by
  induction l with
  | nil => rfl
  | cons entry l ih =>
    obtain ⟨k, v⟩ := entry
    rw [lookup] at h
    split at h
    · cases h
    · rename_i hk
      rw [assign, if_neg hk, ih h]
      rfl

namespace Catalog

/-- A name that stands for a table of items, or for a config that is named like a built-in type. -/
def IsItem (c : Catalog) (name : String) : Prop :=
  ∃ kind, c.resolved name = some kind ∧ (kind.isItem = true ∨ kind = .config ∧ (Builtin.ofName? name).isSome = true)

/-- Names keep their meaning. -/
def Grows (c c' : Catalog) : Prop := ∀ key kind, c.resolved key = some kind → c'.resolved key = some kind

/-- The tables that are made are recorded in their order under their own names, which are claimed and different, and
templates are recorded under their own names as well. Only a built-in type or a config is named like a built-in type. -/
structure Supplies (c : Catalog) (made : List Table) : Prop where
  tables : c.tables = made.map fun t => (t.name, t)
  claimed : ∀ t ∈ made, ∃ kind, c.resolved t.name = some kind
  nodup : (made.map (·.name)).Nodup
  templates : ∀ key t, c.template key = some t → t.name = key
  words : ∀ (b : Builtin) (kind : Resolved), c.resolved b.name = some kind → kind = .builtin ∨ kind = .config

variable {c c' c'' : Catalog} {made more : List Table} {name : String} {kind : Resolved} {t : Table}

theorem Grows.refl (c : Catalog) : c.Grows c := fun _ _ h => h

theorem Grows.trans (h : c.Grows c') (h' : c'.Grows c'') : c.Grows c'' := fun key kind hk => h' key kind (h key kind hk)

theorem IsItem.grows (hi : c.IsItem name) (h : c.Grows c') : c'.IsItem name := by
  obtain ⟨kind, hk, hitem⟩ := hi
  exact ⟨kind, h name kind hk, hitem⟩

theorem grows_claim (kind : Resolved) (h : c.resolved name = none) : c.Grows { c with names := assign name kind c.names } := by
  intro key k hk
  have hne : key ≠ name := by
    rintro rfl
    rw [h] at hk
    cases hk
  exact (lookup_assign_of_ne hne kind c.names).trans hk

theorem resolved_claim : Catalog.resolved { c with names := assign name kind c.names } name = some kind :=
  lookup_assign_self name kind c.names

/-- Every table that is made is recorded under its name. -/
theorem Supplies.table_of_mem (h : c.Supplies made) (ht : t ∈ made) : c.table t.name = some t := by
  cases hrecorded : c.table t.name with
  | none =>
    unfold Catalog.table at hrecorded
    rw [h.tables, lookup_eq_none, List.forall_mem_map] at hrecorded
    exact absurd rfl (hrecorded t ht)
  | some u =>
    unfold Catalog.table at hrecorded
    rw [h.tables] at hrecorded
    obtain ⟨v, hv, he⟩ := List.mem_map.1 (mem_of_lookup hrecorded)
    obtain ⟨hname, rfl⟩ := Prod.mk.inj he
    -- no two of them have the same name
    rw [List.inj_on_of_nodup_map h.nodup hv ht hname]

/-- A table that is recorded is one of those that are made. -/
theorem Supplies.table_eq (h : c.Supplies made) (ht : c.table name = some t) : t ∈ made ∧ t.name = name := by
  unfold Catalog.table at ht
  rw [h.tables] at ht
  obtain ⟨u, hu, he⟩ := List.mem_map.1 (mem_of_lookup ht)
  obtain ⟨rfl, rfl⟩ := Prod.mk.inj he
  exact ⟨hu, rfl⟩

theorem Supplies.table_eq_none (h : c.Supplies made) : c.table name = none ↔ ∀ t ∈ made, t.name ≠ name := by
  unfold Catalog.table
  rw [h.tables, lookup_eq_none]
  exact List.forall_mem_map

/-- No table is recorded under a name without a meaning. -/
theorem Supplies.table_of_unclaimed (h : c.Supplies made) (hnew : c.resolved name = none) : c.table name = none := by
  refine h.table_eq_none.2 ?_
  rintro t ht rfl
  obtain ⟨kind, hk⟩ := h.claimed t ht
  rw [hnew] at hk
  cases hk

/-- Claiming a name that no built-in type has. -/
theorem Supplies.claim (h : c.Supplies made) (kind : Resolved) (hnew : c.resolved name = none)
    (hname : ∀ b : Builtin, name = b.name → kind = .builtin ∨ kind = .config) :
    Catalog.Supplies { c with names := assign name kind c.names } made where
  tables := h.tables
  claimed t ht := by
    obtain ⟨k, hk⟩ := h.claimed t ht
    exact ⟨k, grows_claim kind hnew t.name k hk⟩
  nodup := h.nodup
  templates := h.templates
  words b k hk := by
    by_cases hb : b.name = name
    · have hself : some kind = some k := by
        rw [← hk, hb]
        exact resolved_claim.symm
      rw [← Option.some.inj hself]
      exact hname b hb.symm
    · exact h.words b k ((lookup_assign_of_ne hb kind c.names).symm.trans hk)

/-- Recording one more table under its name. -/
theorem Supplies.record (h : c.Supplies made) (hname : t.name = name) (hk : c.resolved name = some kind)
    (hnew : c.table name = none) : Catalog.Supplies { c with tables := assign name t c.tables } (made ++ [t]) where
  tables := by
    show assign name t c.tables = _
    rw [assign_of_lookup_eq_none t hnew, h.tables, List.map_append, hname.symm]
    rfl
  claimed u hu := by
    rcases List.mem_append.1 hu with hu | hu
    · exact h.claimed u hu
    · rw [List.mem_singleton.1 hu, hname]
      exact ⟨kind, hk⟩
  nodup := by
    rw [List.map_append, List.nodup_append]
    refine ⟨h.nodup, List.pairwise_singleton _ _, fun a ha b hb => ?_⟩
    obtain ⟨u, hu, rfl⟩ := List.mem_map.1 ha
    rw [List.map_singleton, hname] at hb
    rw [List.mem_singleton.1 hb]
    exact h.table_eq_none.1 hnew u hu
  templates := h.templates
  words := h.words

/-- Recording a template under its name. -/
theorem Supplies.recordTemplate {template : Template} (h : c.Supplies made) (hname : template.name = name) :
    Catalog.Supplies { c with templates := assign name template c.templates } made where
  tables := h.tables
  claimed := h.claimed
  nodup := h.nodup
  templates key u hu := by
    by_cases hkey : key = name
    · have hself : some template = some u := by
        rw [← hu, hkey]
        exact (lookup_assign_self name template c.templates).symm
      rw [← Option.some.inj hself]
      exact hname.trans hkey.symm
    · exact h.templates key u ((lookup_assign_of_ne hkey template c.templates).symm.trans hu)
  words := h.words

/-! ### Names that wait for their table -/

/-- A name that is claimed for a table, where the table is still to be recorded. -/
structure Awaits (c : Catalog) (name : String) : Prop where
  unrecorded : c.table name = none
  claimed : ∃ kind, c.resolved name = some kind ∧ kind ≠ .template

/-- A name without a meaning waits for its table once it is claimed. -/
theorem awaits_claim (h : c.Supplies made) (hnew : c.resolved name = none) (hkind : kind ≠ .template) :
    Catalog.Awaits { c with names := assign name kind c.names } name :=
  ⟨h.table_of_unclaimed hnew, kind, resolved_claim, hkind⟩

theorem Awaits.claim {other : String} (ha : c.Awaits other) (kind : Resolved) (hnew : c.resolved name = none) :
    Catalog.Awaits { c with names := assign name kind c.names } other := by
  obtain ⟨k, hk, hkind⟩ := ha.claimed
  exact ⟨ha.unrecorded, k, grows_claim kind hnew other k hk, hkind⟩

/-- Recording a table under another name. -/
theorem Awaits.record {other : String} (ha : c.Awaits other) (t : Table) (hne : other ≠ name) :
    Catalog.Awaits { c with tables := assign name t c.tables } other :=
  ⟨(lookup_assign_of_ne hne t c.tables).trans ha.unrecorded, ha.claimed⟩

end Catalog

/-- No built-in type has an underscore in its name. -/
theorem ne_builtin (base suffix : String) (b : Builtin) : base ++ "_" ++ suffix ≠ b.name := by
  intro h
  have hmem : '_' ∈ (base ++ "_" ++ suffix).toList := by simp
  rw [h] at hmem
  cases b <;> revert hmem <;> decide

/-! ## Bodies -/

/-- The fields of a body have field names, and no two the same one. -/
structure Fields (fields : List FieldDef) : Prop where
  names : ∀ f ∈ fields, isFieldName f.name = true
  nodup : (fields.map (·.name)).Nodup

theorem addEntry_fields {owner entry : String} {body b : Body} (h : addEntry owner body entry = .ok b)
    (hf : Fields body.fields) : Fields b.fields := by
  unfold addEntry at h
  dsimp only at h
  split at h
  · cases h
    exact hf
  split at h
  · cases h
  rename_i hname
  split at h
  · cases h
  split at h
  · cases h
  split at h
  · cases h
  rename_i hdup
  cases h
  rw [List.any_eq_true] at hdup
  constructor
  · intro f hmem
    rcases List.mem_append.1 hmem with hmem | hmem
    · exact hf.names f hmem
    · rw [List.mem_singleton.1 hmem]
      simpa using hname
  · rw [List.map_append, List.nodup_append]
    refine ⟨hf.nodup, List.pairwise_singleton _ _, ?_⟩
    rintro a ha b hb rfl
    obtain ⟨f, hmem, rfl⟩ := List.mem_map.1 ha
    refine hdup ⟨f, hmem, ?_⟩
    simpa using hb

/-- What every entry keeps, holds of the whole body. -/
theorem parseBody_keeps {owner text : String} {b : Body} {P : Body → Prop} (h : parseBody owner text = .ok b) (hnil : P {})
    (hentry : ∀ {entry body b}, addEntry owner body entry = .ok b → P body → P b) : P b := by
  suffices hgen : ∀ (entries : List String) (body : Body), P body →
      entries.foldlM (addEntry owner) body = .ok b → P b from hgen _ {} hnil h
  intro entries
  induction entries with
  | nil =>
    intro body hb h
    cases h
    exact hb
  | cons entry entries ih =>
    intro body hb h
    rw [List.foldlM_cons] at h
    obtain ⟨body', hadd, h⟩ := except_bind_eq_ok.1 h
    exact ih body' (hentry hadd hb) h

theorem parseBody_fields {owner text : String} {b : Body} (h : parseBody owner text = .ok b) : Fields b.fields :=
  parseBody_keeps h ⟨fun _ h => (nomatch h), List.nodup_nil⟩ addEntry_fields

/-- No field of a body is named like the primary key of its owner. -/
def Unreserved (owner : String) (b : Body) : Prop := ∀ f ∈ b.fields, f.name ≠ primaryKey owner

theorem addEntry_unreserved {owner entry : String} {body b : Body} (h : addEntry owner body entry = .ok b)
    (hbody : Unreserved owner body) : Unreserved owner b := by
  unfold addEntry at h
  dsimp only at h
  split at h
  · cases h
    exact hbody
  split at h
  · cases h
  split at h
  · cases h
  split at h
  · cases h
  rename_i hreserved
  split at h
  · cases h
  cases h
  intro f hf
  rcases List.mem_append.1 hf with hf | hf
  · exact hbody f hf
  · rw [List.mem_singleton.1 hf]
    exact fun hname => hreserved (beq_iff_eq.2 hname)

theorem parseBody_unreserved {owner text : String} {b : Body} (h : parseBody owner text = .ok b) : Unreserved owner b :=
  parseBody_keeps h (fun _ h => nomatch h) addEntry_unreserved

/-- A table without foreign keys whose columns have field names. -/
structure Table.IsBare (t : Table) : Prop where
  foreignKeys : t.foreignKeys = []
  columns : ∀ c ∈ t.columns, isFieldName c.name = true

theorem structTable_eq_ok {name body : String} {t : Table} (h : structTable name body = .ok t) :
    t.name = name ∧ t.IsBare := by
  obtain ⟨parsed, hparse, h⟩ := except_bind_eq_ok.1 h
  split at h
  · cases h
  split at h
  · cases h
  cases h
  refine ⟨rfl, rfl, fun c hc => ?_⟩
  obtain ⟨f, hf, rfl⟩ := List.mem_map.1 hc
  exact (parseBody_fields hparse).names f hf

/-- All characters of a field name are those of words. -/
theorem notMem_of_isFieldName {name : String} (h : isFieldName name = true) {d : Char}
    (hletter : Text.isAsciiLetter d = false) (hunderscore : d ≠ '_') (hword : Text.isWord d = false) :
    d ∉ name.toList := by
  intro hd
  unfold isFieldName at h
  split at h
  · cases h
  · rename_i first rest hchars
    rw [Bool.and_eq_true, Bool.or_eq_true, List.all_eq_true] at h
    rw [hchars] at hd
    rcases List.mem_cons.1 hd with rfl | hd
    · rcases h.1 with hfirst | hfirst
      · rw [hletter] at hfirst
        cases hfirst
      · exact hunderscore (beq_iff_eq.1 hfirst)
    · have hchar := h.2 d hd
      rw [hword] at hchar
      cases hchar

theorem isFieldName_value : isFieldName valueColumn = true := by decide +kernel

theorem isBare_wrapper (b : Builtin) : (Table.wrapper b.name).IsBare :=
  ⟨rfl, fun c hc => by rw [List.mem_singleton.1 hc]; exact isFieldName_value⟩

/-! ## Tables that fields refer to -/

/-- What a step adds to a catalog to supply a table for items: the tables that it makes. Their names have had no meaning
before, or that of a template. -/
structure Supplied (c : Catalog) (made : List Table) (target : Target) (c' : Catalog) : Prop where
  grows : c.Grows c'
  supplies : c'.Supplies (made ++ target.made)
  mem : target.table ∈ made ++ target.made
  item : c'.IsItem target.table.name
  bare : ∀ t ∈ target.made, t.IsBare ∧ c'.IsItem t.name
  new : ∀ t ∈ target.made, ∀ kind, c.resolved t.name = some kind → kind = .template

variable {c c' : Catalog} {made : List Table} {target : Target} {name : String}

/-- A table that is there already. -/
theorem Supplied.found {t : Table} {kind : Resolved} (h : c.Supplies made) (ht : c.table name = some t)
    (hk : c.resolved name = some kind)
    (hitem : kind.isItem = true ∨ kind = .config ∧ (Builtin.ofName? name).isSome = true) :
    Supplied c made { table := t } c := by
  obtain ⟨hmem, rfl⟩ := h.table_eq ht
  have hmade : made ++ ([] : List Table) = made := List.append_nil made
  refine ⟨.refl c, ?_, ?_, ⟨kind, hk, hitem⟩, fun _ ht => (nomatch ht), fun _ ht => (nomatch ht)⟩
  · rw [hmade]
    exact h
  · rw [hmade]
    exact hmem

/-- A table that is made and recorded under a name that stands for items. -/
theorem Supplied.fresh {t : Table} {kind : Resolved} (hgrows : c.Grows c') (h : c'.Supplies made)
    (hname : t.name = name) (hbare : t.IsBare) (hk : c'.resolved name = some kind) (hitem : kind.isItem = true)
    (hnew : c'.table name = none) (hold : ∀ kind, c.resolved name = some kind → kind = .template) :
    Supplied c made { table := t, made := [t] } { c' with tables := assign name t c'.tables } := by
  have hmem : t ∈ made ++ [t] := List.mem_append_right _ (List.mem_singleton_self t)
  have hkind : Catalog.IsItem { c' with tables := assign name t c'.tables } t.name :=
    ⟨kind, by rw [hname]; exact hk, .inl hitem⟩
  refine ⟨hgrows, h.record hname hk hnew, hmem, hkind, fun u hu => ?_, fun u hu => ?_⟩
  · rw [List.mem_singleton.1 hu]
    exact ⟨hbare, hkind⟩
  · rw [List.mem_singleton.1 hu, hname]
    exact hold

/-- A table that is made and recorded under a name that is claimed for it. -/
theorem Supplied.claimed {t : Table} {kind : Resolved} (h : c.Supplies made) (hunclaimed : c.resolved name = none)
    (hword : ∀ b : Builtin, name = b.name → kind = .builtin ∨ kind = .config) (hname : t.name = name) (hbare : t.IsBare)
    (hitem : kind.isItem = true) :
    Supplied c made { table := t, made := [t] }
      { c with names := assign name kind c.names, tables := assign name t c.tables } := by
  have hnew : ∀ k, c.resolved name = some k → k = .template := fun k hk => by
    rw [hunclaimed] at hk
    cases hk
  have hfresh := Supplied.fresh (Catalog.grows_claim kind hunclaimed) (h.claim kind hunclaimed hword) hname hbare
    Catalog.resolved_claim hitem (h.table_of_unclaimed hunclaimed) hnew
  exact hfresh

/-- A name that waits for its table is not that of a table for items that is made. -/
theorem Supplied.awaits (hs : Supplied c made target c') (h : c.Supplies made) (ha : c.Awaits name) : c'.Awaits name := by
  obtain ⟨kind, hk, hkind⟩ := ha.claimed
  refine ⟨hs.supplies.table_eq_none.2 fun t ht => ?_, kind, hs.grows name kind hk, hkind⟩
  rcases List.mem_append.1 ht with ht | ht
  · exact h.table_eq_none.1 ha.unrecorded t ht
  · rintro rfl
    exact hkind (hs.new t ht kind hk)

theorem make_supplies {template : Template} {argument : Argument} (h : c.Supplies made) :
    (∀ suffix, outcome (instantiate.make template argument (instanceName name suffix) true) c = (.ok target, c') →
      Supplied c made target c') ∧
    (c.resolved name = some .template → c.table name = none →
      outcome (instantiate.make template argument name false) c = (.ok target, c') → Supplied c made target c') := by
  constructor
  · intro suffix hmake
    unfold instantiate.make at hmake
    obtain ⟨t, ht, hmake⟩ := ofExcept_bind_eq_ok.1 hmake
    rw [if_pos rfl] at hmake
    obtain ⟨⟨⟩, c₁, hclaim, hmake⟩ := outcome_bind_eq_ok.1 hmake
    obtain ⟨hnew, rfl⟩ := claim_eq_ok.1 hclaim
    obtain ⟨hname, hbare⟩ := structTable_eq_ok ht
    cases hmake
    exact .claimed h hnew (fun b hb => absurd hb (ne_builtin _ _ b)) hname hbare rfl
  · intro hk hnew hmake
    unfold instantiate.make at hmake
    obtain ⟨t, ht, hmake⟩ := ofExcept_bind_eq_ok.1 hmake
    obtain ⟨hname, hbare⟩ := structTable_eq_ok ht
    cases hmake
    exact .fresh (.refl c) h hname hbare hk rfl hnew fun kind hkind => Option.some.inj (hkind.symm.trans hk)

/-- The table of an instantiation. -/
theorem instantiate_supplies {raw : Option String} (h : c.Supplies made) (hk : c.resolved name = some .template)
    (hok : outcome (instantiate name raw) c = (.ok target, c')) : Supplied c made target c' := by
  unfold instantiate at hok
  rw [get_bind_eq_ok] at hok
  cases htemplate : c.template name with
  | none =>
    rw [htemplate] at hok
    cases hok
  | some template =>
    rw [htemplate] at hok
    dsimp only at hok
    have hname := h.templates name template htemplate
    cases raw with
    | some raw =>
      obtain ⟨argument, -, hok⟩ := ofExcept_bind_eq_ok.1 hok
      split at hok
      · rename_i hinstance
        split at hok
        · rename_i table htable
          cases hok
          exact .found h htable hinstance (.inl rfl)
        · exact (make_supplies h).1 argument.suffix hok
      · cases hok
      · exact (make_supplies h).1 argument.suffix hok
    | none =>
      dsimp only at hok
      split at hok
      · rename_i hresolved htable
        cases hok
        exact .found h htable hresolved (.inl rfl)
      · rename_i hunmade
        rw [hname] at hok hunmade
        refine (make_supplies h).2 hk (Option.eq_none_iff_forall_ne_some.2 fun t ht => ?_) hok
        exact hunmade t hk ht

/-- The table of a struct, an instantiation or a template call. -/
theorem reference_supplies {ref : TypeRef} (h : c.Supplies made)
    (hok : outcome (reference ref) c = (.ok target, c')) : Supplied c made target c' := by
  unfold reference at hok
  rw [get_bind_eq_ok] at hok
  split at hok
  · rename_i hk _
    split at hok
    · rename_i t ht
      cases hok
      exact .found h ht hk (.inl rfl)
    · cases hok
  · rename_i hk _
    split at hok
    · rename_i t ht
      cases hok
      exact .found h ht hk (.inl rfl)
    · cases hok
  · cases hok
  · cases hok
  · rename_i argument hk
    exact instantiate_supplies h hk hok
  · cases hok

/-- The table of the items of a list. -/
theorem listItem_supplies {ref : TypeRef} {scalarItems : Bool} (h : c.Supplies made)
    (hok : outcome (listItem ref) c = (.ok (target, scalarItems), c')) : Supplied c made target c' := by
  unfold listItem at hok
  rw [get_bind_eq_ok] at hok
  split at hok
  · rename_i b _ _
    cases ht : c.table b.name with
    | some t =>
      rw [ht] at hok
      cases hok
      obtain ⟨hmem, hname⟩ := h.table_eq ht
      obtain ⟨kind, hk⟩ := h.claimed t hmem
      rw [hname] at hk
      refine .found h ht hk ?_
      rcases h.words b kind hk with rfl | rfl
      · exact .inl rfl
      · exact .inr ⟨rfl, by rw [Builtin.ofName?_name]; rfl⟩
    | none =>
      rw [ht] at hok
      obtain ⟨⟨⟩, c₁, hclaim, hok⟩ := outcome_bind_eq_ok.1 hok
      obtain ⟨hnew, rfl⟩ := claim_eq_ok.1 hclaim
      cases hok
      exact .claimed h hnew (fun _ _ => .inl rfl) rfl (isBare_wrapper b) rfl
  · split at hok
    · obtain ⟨t, c₁, hreference, hok⟩ := outcome_bind_eq_ok.1 hok
      cases hok
      exact reference_supplies h hreference
    · cases hok

end Schema

end GuardedConfig
