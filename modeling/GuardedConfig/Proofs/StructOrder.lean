import GuardedConfig.Proofs.Compilation
import Mathlib.Data.List.Perm.Basic

/-!
# `Proofs.StructOrder` — structs may be declared in any order

A struct is compiled on its own: other structs matter only by their names, each of which can be taken once. And what
is compiled after the structs looks names up and never sees in which order they were recorded. So two catalogs in which
every name means the same are as good as one, and structs may change places.

## Contents

* `Catalog.Alike` — every name means the same
* `Blind` — steps that do not see the order of names: `blind_compileStructs`, `blind_compileConfigs`
* `Entry`, `entryOf`, `compileStruct_eq_ok` — what a struct is on its own
* `structUnit?`, `units_compileStructs` — the units of structs
* `compileStructs_perm` — structs that change places
* `Reordered`, `compile_perm` — declarations whose structs stand in another order
-/

namespace GuardedConfig.Schema

open GuardedConfig.Field

/-! ## Catalogs with the same meanings -/

/-- Every name means the same in two catalogs, in whatever order the names have been recorded. -/
structure Catalog.Alike (c d : Catalog) : Prop where
  resolved : ∀ name, c.resolved name = d.resolved name
  table : ∀ name, c.table name = d.table name
  template : ∀ name, c.template name = d.template name

namespace Catalog.Alike

variable {c d e : Catalog}

theorem refl (c : Catalog) : c.Alike c := ⟨fun _ => rfl, fun _ => rfl, fun _ => rfl⟩

theorem symm (h : c.Alike d) : d.Alike c :=
  ⟨fun n => (h.resolved n).symm, fun n => (h.table n).symm, fun n => (h.template n).symm⟩

theorem trans (h : c.Alike d) (h' : d.Alike e) : c.Alike e :=
  ⟨fun n => (h.resolved n).trans (h'.resolved n), fun n => (h.table n).trans (h'.table n),
    fun n => (h.template n).trans (h'.template n)⟩

theorem isStruct (h : c.Alike d) (name : String) : c.isStruct name = d.isStruct name := by
  unfold Catalog.isStruct
  rw [h.resolved]

end Catalog.Alike

/-! ## Steps that do not see the order of names -/

variable {α β : Type}

/-- A step that ends the same from catalogs with the same meanings, with the same result or the same fault. -/
structure Blind (step : Compile α) : Prop where
  mimics : Mimics Catalog.Alike step step

namespace Blind

theorem pure (a : α) : Blind (Pure.pure a) := ⟨Relates.pure a⟩

theorem throw (e : Fault) : Blind (MonadExcept.throw e : Compile α) := ⟨Relates.throw fun _ _ h => ⟨rfl, h⟩⟩

theorem ofExcept (r : Except Fault α) : Blind (Compile.ofExcept r) := by
  cases r with
  | ok a => exact .pure a
  | error e => exact .throw e

theorem bind {step : Compile α} {f : α → Compile β} (h : Blind step) (hf : ∀ a, Blind (f a)) : Blind (step >>= f) :=
  ⟨Relates.bind h.mimics fun a => (hf a).mimics⟩

/-- What is done with the catalog depends on the meanings alone. -/
theorem get_bind {f : Catalog → Compile α} (hf : ∀ c d, c.Alike d → f c = f d) (h : ∀ c, Blind (f c)) :
    Blind (get >>= f) where
  mimics c d hcd := by
    rw [outcome_bind_ok (outcome_get c), outcome_bind_ok (outcome_get d), hf d c hcd.symm]
    exact (h c).mimics c d hcd

theorem modify {f : Catalog → Catalog} (h : ∀ c d, c.Alike d → (f c).Alike (f d)) : Blind (modify f : Compile Unit) :=
  ⟨fun c d hcd => ⟨rfl, h c d hcd⟩⟩

theorem inField {field config : String} {step : Compile α} (h : Blind step) : Blind (inField field config step) :=
  ⟨Mimics.tryCatch h.mimics fun e => (throw (.inField e field config)).mimics⟩

/-- A step that is refused in some cases. -/
theorem refused (p : Prop) [Decidable p] (e : Fault) {step : Compile α} (h : Blind step) :
    Blind (if p then MonadExcept.throw e >>= fun _ : PUnit => step else step) := by
  split
  · exact .bind (.throw e) fun _ => h
  · exact h

/-- A blind step that succeeds from one catalog gives the same from any other one with the same meanings. -/
theorem alike {step : Compile α} (h : Blind step) {c d c' : Catalog} (hcd : c.Alike d) {a : α}
    (hok : outcome step c = (.ok a, c')) : ∃ d', outcome step d = (.ok a, d') ∧ c'.Alike d' := by
  have hend := h.mimics c d hcd
  rw [hok] at hend
  rcases hd : outcome step d with ⟨e | b, d'⟩ <;> rw [hd] at hend
  · exact hend.elim
  · exact ⟨d', by rw [hend.1], hend.2⟩

end Blind

theorem Catalog.Alike.assign {l l' : List (String × α)} (h : ∀ name, lookup name l = lookup name l') (key : String)
    (a : α) (name : String) : lookup name (assign key a l) = lookup name (assign key a l') := by
  by_cases hname : name = key
  · rw [hname, lookup_assign_self, lookup_assign_self]
  · rw [lookup_assign_of_ne hname, lookup_assign_of_ne hname, h]

theorem blind_recordTable (name : String) (t : Table) : Blind (recordTable name t) :=
  .modify fun _ _ h => ⟨h.resolved, Catalog.Alike.assign h.table name t, h.template⟩

theorem blind_claim (name : String) (kind : Resolved) : Blind (claim name kind) := by
  refine ⟨fun c d h => ?_⟩
  unfold claim
  rw [outcome_bind_ok (outcome_get c), outcome_bind_ok (outcome_get d), ← h.resolved]
  cases c.resolved name with
  | some existing => exact ⟨rfl, h⟩
  | none => exact ⟨rfl, Catalog.Alike.assign h.resolved name kind, h.table, h.template⟩

theorem blind_recordTemplate (name : String) (t : Template) : Blind (recordTemplate name t) :=
  .modify fun _ _ h => ⟨h.resolved, h.table, Catalog.Alike.assign h.template name t⟩

/-! ### Structs, fields and configs -/

theorem blind_compileStruct (decl : StructDecl) : Blind (compileStruct decl) := by
  unfold compileStruct
  dsimp only
  refine .refused _ _ ?_
  cases decl.argument with
  | some text =>
    exact .bind (.ofExcept _) fun _ => .bind (.ofExcept _) fun _ => .bind (blind_claim _ _) fun _ =>
      .bind (blind_recordTemplate _ _) fun _ => .pure _
  | none =>
    exact .bind (.ofExcept _) fun _ => .bind (blind_claim _ _) fun _ => .bind (blind_recordTable _ _) fun _ => .pure _

theorem blind_compileStructs (decls : List StructDecl) : Blind (compileStructs decls) := by
  induction decls with
  | nil => exact .pure _
  | cons decl decls ih => exact .bind (blind_compileStruct decl) fun _ => .bind ih fun _ => .pure _

theorem blind_make (template : Template) (argument : Argument) (name : String) (claims : Bool) :
    Blind (instantiate.make template argument name claims) := by
  unfold instantiate.make
  refine .bind (.ofExcept _) fun table => ?_
  cases claims with
  | true => exact .bind (blind_claim _ _) fun _ => .bind (blind_recordTable _ _) fun _ => .pure _
  | false => exact .bind (blind_recordTable _ _) fun _ => .pure _

theorem blind_instantiate (name : String) (raw : Option String) : Blind (instantiate name raw) := by
  unfold instantiate
  refine .get_bind (fun c d h => by simp only [h.template, h.resolved, h.table]) fun c => ?_
  cases c.template name with
  | none => exact .throw _
  | some template =>
    cases raw with
    | some raw =>
      dsimp only
      refine .bind (.ofExcept _) fun argument => ?_
      split
      · split
        · exact .pure _
        · exact blind_make _ _ _ _
      · exact .throw _
      · exact blind_make _ _ _ _
    | none =>
      dsimp only
      split
      · exact .pure _
      · exact blind_make _ _ _ _

theorem blind_reference (target : TypeRef) : Blind (reference target) := by
  unfold reference
  refine .get_bind (fun c d h => by simp only [h.resolved, h.table]) fun c => ?_
  split
  · split
    · exact .pure _
    · exact .throw _
  · split
    · exact .pure _
    · exact .throw _
  · exact .throw _
  · exact .throw _
  · exact blind_instantiate _ _
  · exact .throw _

theorem blind_listItem (item : TypeRef) : Blind (listItem item) := by
  unfold listItem
  refine .get_bind (fun c d h => by simp only [h.table, h.isStruct]) fun c => ?_
  split
  · split
    · exact .pure _
    · exact .bind (blind_claim _ _) fun _ => .bind (blind_recordTable _ _) fun _ => .pure _
  · split
    · exact .bind (blind_reference item) fun _ => .pure _
    · exact .throw _

theorem blind_addField (draft : ConfigDraft) (field : FieldDef) : Blind (draft.addField field) := by
  unfold ConfigDraft.addField
  refine .get_bind (fun c d h => by simp only [h.isStruct]) fun c => .bind (.ofExcept _) fun sort => ?_
  cases sort with
  | list item =>
    refine .bind (.inField (blind_listItem item)) fun found => ?_
    dsimp only
    split
    · exact .bind (.throw _) fun _ => .bind (blind_claim _ _) fun _ => .pure _
    · exact .bind (blind_claim _ _) fun _ => .pure _
  | named ref =>
    dsimp only
    split
    · exact .bind (.inField (blind_reference ref)) fun target => .pure _
    · exact .pure _
  | sql =>
    dsimp only
    split
    · exact .throw _
    · split
      · exact .throw _
      · exact .pure _

theorem blind_addFields (draft : ConfigDraft) (fields : List FieldDef) : Blind (draft.addFields fields) := by
  induction fields generalizing draft with
  | nil => exact .pure draft
  | cons field fields ih => exact .bind (blind_addField draft field) fun d => ih d

theorem blind_recordTables (ts : List Table) : Blind (recordTables ts) := by
  induction ts with
  | nil => exact .pure ()
  | cons t ts ih => exact .bind (blind_recordTable _ _) fun _ => ih

theorem blind_compileConfig (decl : ConfigDecl) : Blind (compileConfig decl) :=
  .bind (.ofExcept _) fun _ => .bind (blind_claim _ _) fun _ => .bind (blind_addFields _ _) fun _ =>
    .bind (blind_recordTable _ _) fun _ => .bind (blind_recordTables _) fun _ => .pure _

theorem blind_compileConfigs (decls : List ConfigDecl) : Blind (compileConfigs decls) := by
  induction decls with
  | nil => exact .pure _
  | cons decl decls ih => exact .bind (blind_compileConfig decl) fun _ => .bind ih fun _ => .pure _

/-! ## Structs on their own -/

/-- What a struct is recorded as. -/
inductive Entry where
  | table (t : Table)
  | template (t : Template)

/-- What a struct is on its own, whatever else is declared. -/
def entryOf (d : StructDecl) : Except Fault Entry := do
  if (Builtin.ofName? d.name).isSome then throw (.builtinName d.name)
  match d.argument with
  | some text =>
    let rule ← ArgumentRule.parse text
    let _ ← structTable d.name (Template.instantiate ⟨d.name, d.body, rule⟩ rule.default)
    return .template ⟨d.name, d.body, rule⟩
  | none => return .table (← structTable d.name d.body)

/-- The unit of a struct; a template has none. -/
def Entry.unit? (name : String) : Entry → Option SchemaUnit
  | table t => some ⟨name, [.create t]⟩
  | template _ => none

/-- A catalog with one more struct. -/
def Catalog.enter (c : Catalog) (name : String) : Entry → Catalog
  | .table t => { c with names := assign name .struct c.names, tables := assign name t c.tables }
  | .template t => { c with names := assign name .template c.names, templates := assign name t c.templates }

variable {c d c' d' : Catalog} {decl : StructDecl} {decls decls' : List StructDecl}

/-- A struct is compiled if it is something on its own and its name is free. -/
theorem compileStruct_eq_ok {unit : Option SchemaUnit} : outcome (compileStruct decl) c = (.ok unit, c') ↔
    ∃ e, entryOf decl = .ok e ∧ c.resolved decl.name = none ∧ unit = e.unit? decl.name ∧
      c' = c.enter decl.name e := by
  unfold compileStruct entryOf
  dsimp only
  by_cases hname : (Builtin.ofName? decl.name).isSome = true
  · rw [if_pos hname, if_pos hname]
    constructor
    · intro h
      cases decl.argument <;> cases h
    · rintro ⟨_, h, _⟩
      cases decl.argument <;> cases h
  rw [if_neg hname, if_neg hname]
  cases decl.argument with
  | some text =>
    dsimp only
    rw [ofExcept_bind_eq_ok]
    constructor
    · rintro ⟨rule, hrule, h⟩
      obtain ⟨t, ht, h⟩ := ofExcept_bind_eq_ok.1 h
      obtain ⟨⟨⟩, _, hclaim, h⟩ := outcome_bind_eq_ok.1 h
      obtain ⟨hfree, rfl⟩ := claim_eq_ok.1 hclaim
      cases h
      refine ⟨.template ⟨decl.name, decl.body, rule⟩, ?_, hfree, rfl, rfl⟩
      rw [hrule, except_ok_bind, ht]
      rfl
    · rintro ⟨e, he, hfree, rfl, rfl⟩
      obtain ⟨rule, hrule, he⟩ := except_bind_eq_ok.1 he
      obtain ⟨t, ht, he⟩ := except_bind_eq_ok.1 he
      cases he
      refine ⟨rule, hrule, ofExcept_bind_eq_ok.2 ⟨t, ht, ?_⟩⟩
      exact outcome_bind_eq_ok.2 ⟨(), _, claim_eq_ok.2 ⟨hfree, rfl⟩, rfl⟩
  | none =>
    dsimp only
    rw [ofExcept_bind_eq_ok]
    constructor
    · rintro ⟨t, ht, h⟩
      obtain ⟨⟨⟩, _, hclaim, h⟩ := outcome_bind_eq_ok.1 h
      obtain ⟨hfree, rfl⟩ := claim_eq_ok.1 hclaim
      cases h
      refine ⟨.table t, ?_, hfree, rfl, rfl⟩
      rw [ht]
      rfl
    · rintro ⟨e, he, hfree, rfl, rfl⟩
      obtain ⟨t, ht, he⟩ := except_bind_eq_ok.1 he
      cases he
      exact ⟨t, ht, outcome_bind_eq_ok.2 ⟨(), _, claim_eq_ok.2 ⟨hfree, rfl⟩, rfl⟩⟩

theorem compileStructs_cons_eq_ok {units : List SchemaUnit} :
    outcome (compileStructs (decl :: decls)) c = (.ok units, c') ↔
      ∃ e more, entryOf decl = .ok e ∧ c.resolved decl.name = none ∧
        outcome (compileStructs decls) (c.enter decl.name e) = (.ok more, c') ∧
        units = (e.unit? decl.name).toList ++ more := by
  rw [compileStructs, outcome_bind_eq_ok]
  constructor
  · rintro ⟨unit, _, hunit, h⟩
    obtain ⟨e, he, hfree, rfl, rfl⟩ := compileStruct_eq_ok.1 hunit
    obtain ⟨more, _, hmore, h⟩ := outcome_bind_eq_ok.1 h
    cases h
    exact ⟨e, more, he, hfree, hmore, rfl⟩
  · rintro ⟨e, more, he, hfree, hmore, rfl⟩
    exact ⟨_, _, compileStruct_eq_ok.2 ⟨e, he, hfree, rfl, rfl⟩, outcome_bind_eq_ok.2 ⟨more, c', hmore, rfl⟩⟩

/-- The unit that a struct gives. -/
def structUnit? (d : StructDecl) : Option SchemaUnit := (entryOf d).toOption.bind (·.unit? d.name)

/-- The units of structs are those that each of them gives. -/
theorem units_compileStructs {units : List SchemaUnit} (h : outcome (compileStructs decls) c = (.ok units, c')) :
    units = decls.filterMap structUnit? := by
  induction decls generalizing c units with
  | nil =>
    cases h
    rfl
  | cons decl decls ih =>
    obtain ⟨e, more, he, -, hmore, rfl⟩ := compileStructs_cons_eq_ok.1 h
    have hunit : structUnit? decl = e.unit? decl.name := by
      unfold structUnit?
      rw [he]
      rfl
    rw [ih hmore, List.filterMap_cons, hunit]
    cases e <;> rfl

/-! ## Structs that change places -/

theorem Catalog.Alike.enter (h : c.Alike d) (name : String) (e : Entry) : (c.enter name e).Alike (d.enter name e) := by
  cases e with
  | table t =>
    exact ⟨assign h.resolved name Resolved.struct, assign h.table name t, h.template⟩
  | template t =>
    exact ⟨assign h.resolved name Resolved.template, h.table, assign h.template name t⟩

/-- The name of a struct is taken, and no other. -/
theorem Catalog.resolved_enter (c : Catalog) (name other : String) (e : Entry) :
    (c.enter name e).resolved other = none ↔ other ≠ name ∧ c.resolved other = none := by
  by_cases hname : other = name
  · subst hname
    cases e <;> simp [Catalog.enter, Catalog.resolved]
  · cases e <;> simp [Catalog.enter, Catalog.resolved, lookup_assign_of_ne hname, hname]

theorem lookup_assign_comm {key other : String} (h : key ≠ other) (a b : α) (l : List (String × α)) (name : String) :
    lookup name (assign key a (assign other b l)) = lookup name (assign other b (assign key a l)) := by
  by_cases hkey : name = key
  · subst hkey
    rw [lookup_assign_self, lookup_assign_of_ne h, lookup_assign_self]
  · rw [lookup_assign_of_ne hkey]
    by_cases hother : name = other
    · subst hother
      rw [lookup_assign_self, lookup_assign_self]
    · rw [lookup_assign_of_ne hother, lookup_assign_of_ne hother, lookup_assign_of_ne hkey]

/-- Two structs with different names may be entered in either order. -/
theorem Catalog.enter_comm {name other : String} (h : name ≠ other) (c : Catalog) (e f : Entry) :
    ((c.enter name e).enter other f).Alike ((c.enter other f).enter name e) := by
  cases e <;> cases f <;>
    exact ⟨fun _ => lookup_assign_comm h.symm _ _ _ _, fun _ => by first | rfl | exact lookup_assign_comm h.symm _ _ _ _,
      fun _ => by first | rfl | exact lookup_assign_comm h.symm _ _ _ _⟩

/-- Structs in another order are compiled from any catalog in which names mean the same, and to such a catalog. -/
theorem compileStructs_perm (hperm : decls.Perm decls') (halike : c.Alike d) {units : List SchemaUnit}
    (h : outcome (compileStructs decls) c = (.ok units, c')) :
    ∃ units' d', outcome (compileStructs decls') d = (.ok units', d') ∧ c'.Alike d' := by
  induction hperm generalizing c d c' units with
  | nil =>
    cases h
    exact ⟨[], d, rfl, halike⟩
  | cons decl _ ih =>
    obtain ⟨e, more, he, hfree, hmore, -⟩ := compileStructs_cons_eq_ok.1 h
    obtain ⟨more', d', hmore', halike'⟩ := ih (halike.enter decl.name e) hmore
    exact ⟨_, d', compileStructs_cons_eq_ok.2 ⟨e, more', he, halike.resolved decl.name ▸ hfree, hmore', rfl⟩, halike'⟩
  | swap first second rest =>
    obtain ⟨e, _, he, hsecond, hmore, -⟩ := compileStructs_cons_eq_ok.1 h
    obtain ⟨f, more, hf, htaken, hmore, -⟩ := compileStructs_cons_eq_ok.1 hmore
    obtain ⟨hne, hfirst⟩ := (c.resolved_enter second.name first.name e).1 htaken
    have hswapped : ((c.enter second.name e).enter first.name f).Alike ((d.enter first.name f).enter second.name e) :=
      (c.enter_comm hne.symm e f).trans ((halike.enter first.name f).enter second.name e)
    obtain ⟨d', hmore', halike'⟩ := (blind_compileStructs rest).alike hswapped hmore
    have hfree : (d.enter first.name f).resolved second.name = none :=
      (d.resolved_enter first.name second.name f).2 ⟨hne.symm, halike.resolved second.name ▸ hsecond⟩
    exact ⟨_, d', compileStructs_cons_eq_ok.2 ⟨f, _, hf, halike.resolved first.name ▸ hfirst,
      compileStructs_cons_eq_ok.2 ⟨e, more, he, hfree, hmore', rfl⟩, rfl⟩, halike'⟩
  | trans _ _ ih ih' =>
    obtain ⟨_, _, hmiddle, halike'⟩ := ih halike h
    obtain ⟨units', d', hlast, halike''⟩ := ih' (.refl d) hmiddle
    exact ⟨units', d', hlast, halike'.trans halike''⟩

/-- The units of configs are named like them. -/
theorem names_compileConfigs {configs : List ConfigDecl} {units : List SchemaUnit} {slots : List Slot}
    (h : outcome (compileConfigs configs) c = (.ok (units, slots), c')) :
    units.map (·.name) = configs.map (·.name) := by
  induction configs generalizing c units slots with
  | nil =>
    cases h
    rfl
  | cons config configs ih =>
    obtain ⟨⟨unit, _⟩, _, hunit, h⟩ := outcome_bind_eq_ok.1 h
    obtain ⟨⟨more, _⟩, _, hmore, h⟩ := outcome_bind_eq_ok.1 h
    cases h
    obtain ⟨_, -, hunit⟩ := ofExcept_bind_eq_ok.1 hunit
    obtain ⟨_, _, -, hunit⟩ := outcome_bind_eq_ok.1 hunit
    obtain ⟨draft, _, -, hunit⟩ := outcome_bind_eq_ok.1 hunit
    obtain ⟨_, _, -, hunit⟩ := outcome_bind_eq_ok.1 hunit
    obtain ⟨_, _, -, hunit⟩ := outcome_bind_eq_ok.1 hunit
    cases hunit
    rw [List.map_cons, List.map_cons, ih hmore]

/-- Declarations are compiled if their structs are, and then their configs. -/
theorem compileDeclarations_eq_ok {decls : Declarations} {s : CompiledSchema} :
    outcome (compileDeclarations decls) c = (.ok s, c') ↔
      ∃ structs c₁ units slots, outcome (compileStructs decls.structs) c = (.ok structs, c₁) ∧
        outcome (compileConfigs decls.configs) c₁ = (.ok (units, slots), c') ∧
        s = ⟨structs ++ units, decls.configs.map (·.name), slots⟩ := by
  constructor
  · intro h
    obtain ⟨structs, c₁, hstructs, h⟩ := outcome_bind_eq_ok.1 h
    obtain ⟨⟨units, slots⟩, c₂, hconfigs, h⟩ := outcome_bind_eq_ok.1 h
    cases h
    exact ⟨structs, c₁, units, slots, hstructs, hconfigs, rfl⟩
  · rintro ⟨structs, c₁, units, slots, hstructs, hconfigs, rfl⟩
    exact outcome_bind_eq_ok.2 ⟨structs, c₁, hstructs, outcome_bind_eq_ok.2 ⟨(units, slots), c', hconfigs, rfl⟩⟩

/-- What declarations compile to, and what they compile to with their structs in another order. -/
structure Reordered (a b : Declarations) (s t : CompiledSchema) : Prop where
  units : ∃ units, units.map (·.name) = a.configs.map (·.name) ∧
    s.units = a.structs.filterMap structUnit? ++ units ∧ t.units = b.structs.filterMap structUnit? ++ units
  configs : s.configs = t.configs
  slots : s.slots = t.slots
  alike : (({} : Catalog).compile a).2.Alike (({} : Catalog).compile b).2

variable {a b : Declarations}

theorem reordered_of_perm (hstructs : a.structs.Perm b.structs) (hconfigs : a.configs = b.configs) {s : CompiledSchema}
    (h : compile a = .ok s) : ∃ t, compile b = .ok t ∧ Reordered a b s t := by
  obtain ⟨structs, c, units, slots, ha, hunits, rfl⟩ := compileDeclarations_eq_ok.1 (outcome_of_compile h)
  obtain ⟨structs', d, hb, halike⟩ := compileStructs_perm hstructs (.refl {}) ha
  obtain ⟨d', hunits', halike'⟩ := (blind_compileConfigs a.configs).alike halike hunits
  have houtcome : outcome (compileDeclarations b) {} = (.ok ⟨structs' ++ units, a.configs.map (·.name), slots⟩, d') :=
    compileDeclarations_eq_ok.2 ⟨structs', d, units, slots, hb, hconfigs ▸ hunits', by rw [hconfigs]⟩
  refine ⟨_, congrArg Prod.fst houtcome, ⟨units, names_compileConfigs hunits, ?_, ?_⟩, rfl, rfl, ?_⟩
  · rw [units_compileStructs ha]
  · rw [units_compileStructs hb]
  · have hcatalog : (({} : Catalog).compile b).2 = d' := congrArg Prod.snd houtcome
    rw [hcatalog]
    exact halike'

/-- **The order of structs does not matter.** Declarations whose structs stand in another order compile if and only if
the others do. Then each struct gives the same unit, at its own place, the units of the configs, the configs and the
slots are the same, and every name means the same in both catalogs. -/
theorem compile_perm (hstructs : a.structs.Perm b.structs) (hconfigs : a.configs = b.configs) :
    ((∃ s, compile a = .ok s) ↔ ∃ t, compile b = .ok t) ∧
      ∀ s t, compile a = .ok s → compile b = .ok t → Reordered a b s t := by
  refine ⟨⟨fun ⟨s, h⟩ => ?_, fun ⟨t, h⟩ => ?_⟩, fun s t hs ht => ?_⟩
  · obtain ⟨t, ht, -⟩ := reordered_of_perm hstructs hconfigs h
    exact ⟨t, ht⟩
  · obtain ⟨s, hs, -⟩ := reordered_of_perm hstructs.symm hconfigs.symm h
    exact ⟨s, hs⟩
  · obtain ⟨t', ht', hreordered⟩ := reordered_of_perm hstructs hconfigs hs
    cases ht.symm.trans ht'
    exact hreordered

/-- Two structs and a template that one config refers to, lists and calls. -/
def zones : Declarations where
  structs := [⟨"Zone", "name TEXT", none⟩, ⟨"Window", "minute INTEGER CHECK(minute < size)", some "size:INTEGER=5"⟩,
    ⟨"Host", "port INTEGER NOT NULL", none⟩]
  configs := [⟨"Alpha", "zone Zone, window Window(3), hosts LIST(Host), port INTEGER"⟩, ⟨"Beta", "window Window(03)"⟩]

/-- The same, with the structs in another order. -/
def zonesReordered : Declarations :=
  { zones with structs := [zones.structs[2], zones.structs[0], zones.structs[1]] }

theorem compile_perm_zones : zones.structs.Perm zonesReordered.structs ∧ zones.configs = zonesReordered.configs ∧
    ∃ s t, compile zones = .ok s ∧ compile zonesReordered = .ok t ∧ Reordered zones zonesReordered s t := by
  have hstructs : zones.structs.Perm zonesReordered.structs := by decide
  obtain ⟨hiff, hall⟩ := compile_perm hstructs rfl
  have hrun : (compile zones).isOk = true := by decide +kernel
  rcases hs : compile zones with e | s
  · rw [hs] at hrun
    cases hrun
  · obtain ⟨t, ht⟩ := hiff.1 ⟨s, hs⟩
    exact ⟨hstructs, rfl, s, t, rfl, ht, hall s t hs ht⟩

end GuardedConfig.Schema
