import GuardedConfig.Proofs.Compilation
import GuardedConfig.Proofs.Suffix
import Mathlib.Data.List.Nodup
import Mathlib.Data.List.Pairwise

/-!
# `Proofs.Instances` — the tables that calls of templates get

A field may call a template with an argument, and refers then to the table of the template for this argument. The table
is made on the first call and shared by all calls that give it the same name. Within one template the name tells the
argument. But a name is only the name of the template and the suffix of the argument with an underscore between them,
so templates whose own names have underscores can give their tables the same name. Then the calls of one template get
the table of the other.

## Contents

* `StructDecl.expansion?`, `Table.IsInstance`, `Call` — calls, and the tables they should get
* `Catalog.Knows`, `Catalog.Holds` — what a catalog has of templates and instances
* `instantiate_holds`, `reference_holds`, `listItem_holds`, `addField_holds` — one reference
* `holds_compileStructs`, `holds_compileConfigs` — all declarations
* `InstancesApart`, `own_instances_iff`, `shared_instance`
-/

namespace GuardedConfig

open GuardedConfig.Schema GuardedConfig.Field

/-! ## Calls -/

/-- The table that a template has for an argument: its name and its body. -/
structure Expansion where
  name : String
  body : String
deriving DecidableEq, Repr

/-- The expansion of a template for a written argument: the literal of the argument replaces the placeholder. -/
def StructDecl.expansion? (d : StructDecl) (raw : String) : Option Expansion := do
  let text ← d.argument
  let rule ← (ArgumentRule.parse text).toOption
  let argument ← (coerce rule.type raw).toOption
  return ⟨instanceName d.name argument.suffix, substitute rule.placeholder argument.literal d.body⟩

/-- A field of a config that calls a template. -/
structure Call where
  config : String
  field : String
  template : StructDecl
  raw : String
deriving DecidableEq, Repr

/-- A field whose type is a call of a template, or a list of such calls. -/
def Field.FieldDef.Calls (f : FieldDef) (d : StructDecl) (raw : String) : Prop :=
  f.classify = .ok (.named ⟨d.name, some raw⟩) ∨ f.classify = .ok (.list ⟨d.name, some raw⟩)

/-- The calls in declarations: fields of configs that call declared templates. -/
def Declarations.HasCall (ds : Declarations) (call : Call) : Prop :=
  call.template ∈ ds.structs ∧ call.template.isTemplate = true ∧
    ∃ decl ∈ ds.configs, ∃ body, parseBody decl.name decl.body = .ok body ∧ decl.name = call.config ∧
      ∃ f ∈ body.fields, f.name = call.field ∧ f.Calls call.template call.raw

namespace Schema

/-- A table that has exactly the columns and the constraints of a body. -/
def Table.HasBody (t : Table) (body : String) : Prop :=
  ∃ parsed, parseBody t.name body = .ok parsed ∧ t.columns = parsed.fields.map (fun f => ⟨f.name, f.type⟩) ∧
    t.constraints = parsed.constraints ∧ t.foreignKeys = []

/-- The table that a template should have for an argument. -/
def Table.IsInstance (t : Table) (d : StructDecl) (raw : String) : Prop :=
  ∃ body, d.expansion? raw = some ⟨t.name, body⟩ ∧ t.HasBody body

/-- The table that a slot refers to. -/
def Slot.target? (s : Slot) : Option Table :=
  match s.storage with
  | .scalar .. => none
  | .reference _ _ target => some target
  | .list _ item _ => some item

/-- A call gets a table: the slot of its field refers to it. -/
def CompiledSchema.Gives (s : CompiledSchema) (call : Call) (t : Table) : Prop :=
  ∃ slot ∈ s.slots, slot.config = call.config ∧ slot.field = call.field ∧ slot.target? = some t

/-- No two templates give the same name to their tables. -/
def InstancesApart (ds : Declarations) : Prop :=
  ∀ call other, ds.HasCall call → ds.HasCall other → ∀ name body body',
    call.template.expansion? call.raw = some ⟨name, body⟩ → other.template.expansion? other.raw = some ⟨name, body'⟩ →
      call.template = other.template

/-! ## Expansions -/

variable {d : StructDecl} {raw raw' name : String} {t : Table}

/-- A template as a catalog keeps it. -/
structure Template.Of (template : Template) (d : StructDecl) : Prop where
  name : template.name = d.name
  body : template.body = d.body
  rule : ∃ text, d.argument = some text ∧ ArgumentRule.parse text = .ok template.rule

theorem Template.Of.expansion {template : Template} (h : template.Of d) {argument : Argument}
    (hargument : coerce template.rule.type raw = .ok argument) :
    d.expansion? raw = some ⟨instanceName template.name argument.suffix, template.instantiate argument⟩ := by
  obtain ⟨text, htext, hrule⟩ := h.rule
  simp [StructDecl.expansion?, htext, hrule, hargument, h.name, h.body, Except.toOption, Template.instantiate]

theorem eq_ok_of_toOption {ε α : Type} {x : Except ε α} {a : α} (h : x.toOption = some a) : x = .ok a := by
  cases x with
  | error e => cases h
  | ok b =>
    cases h
    rfl

theorem expansion_eq_some {e : Expansion} (h : d.expansion? raw = some e) :
    ∃ text rule argument, d.argument = some text ∧ ArgumentRule.parse text = .ok rule ∧
      coerce rule.type raw = .ok argument ∧
      e = ⟨instanceName d.name argument.suffix, substitute rule.placeholder argument.literal d.body⟩ := by
  obtain ⟨text, htext, h⟩ := Option.bind_eq_some_iff.1 h
  obtain ⟨rule, hrule, h⟩ := Option.bind_eq_some_iff.1 h
  obtain ⟨argument, hargument, h⟩ := Option.bind_eq_some_iff.1 h
  cases h
  exact ⟨text, rule, argument, htext, eq_ok_of_toOption hrule, eq_ok_of_toOption hargument, rfl⟩

/-- Within one template the name of the table tells the argument. -/
theorem expansion_unique {e e' : Expansion} (h : d.expansion? raw = some e) (h' : d.expansion? raw' = some e')
    (hname : e.name = e'.name) : e = e' := by
  obtain ⟨text, rule, argument, htext, hrule, hargument, rfl⟩ := expansion_eq_some h
  obtain ⟨text', rule', argument', htext', hrule', hargument', rfl⟩ := expansion_eq_some h'
  cases htext.symm.trans htext'
  cases hrule.symm.trans hrule'
  have hsuffix : argument.suffix = argument'.suffix := by
    have hchars := congrArg String.toList hname
    simp only [instanceName, String.toList_append, List.append_assoc, List.append_cancel_left_eq] at hchars
    exact String.toList_inj.1 hchars
  rw [argument_eq_of_suffix hargument hargument' hsuffix]

theorem structTable_hasBody {body : String} (h : structTable name body = .ok t) : t.HasBody body := by
  obtain ⟨parsed, hparsed, h⟩ := except_bind_eq_ok.1 h
  split at h
  · cases h
  split at h
  · cases h
  cases h
  exact ⟨parsed, hparsed, rfl, rfl, rfl⟩

/-! ## What a catalog has -/

namespace Catalog

variable {c c' : Catalog} {structs : List StructDecl} {Called : StructDecl → String → Prop} {kind : Resolved}

/-- A catalog has the templates of some structs under their names, and no others. -/
structure Knows (c : Catalog) (structs : List StructDecl) : Prop where
  declared : ∀ d ∈ structs, ∃ kind, c.resolved d.name = some kind
  templates : ∀ d ∈ structs, d.isTemplate = true →
    c.resolved d.name = some .template ∧ ∃ template, c.template d.name = some template ∧ template.Of d
  only : ∀ name template, c.template name = some template →
    ∃ d ∈ structs, d.name = name ∧ d.isTemplate = true ∧ template.Of d
  nodup : (structs.map (·.name)).Nodup

/-- A catalog has instances for calls alone. -/
structure Holds (c : Catalog) (structs : List StructDecl) (Called : StructDecl → String → Prop) : Prop
    extends Knows c structs where
  instances : ∀ name t, c.resolved name = some .instantiation → c.table name = some t →
    ∃ d ∈ structs, ∃ raw, Called d raw ∧ t.IsInstance d raw

/-- The table of a call stands under the name that it should have. -/
def Answers (c : Catalog) (d : StructDecl) (raw : String) (t : Table) : Prop :=
  c.resolved t.name = some .instantiation ∧ ∃ body, d.expansion? raw = some ⟨t.name, body⟩

theorem Answers.grows (h : c.Answers d raw t) (hgrows : c.Grows c') : c'.Answers d raw t :=
  ⟨hgrows _ _ h.1, h.2⟩

/-- What a catalog knows depends on names and templates, and names only become more. -/
theorem Knows.mono (h : c.Knows structs) (hgrows : c.Grows c') (htemplates : c'.templates = c.templates) :
    c'.Knows structs where
  declared d hd := by
    obtain ⟨kind, hk⟩ := h.declared d hd
    exact ⟨kind, hgrows _ _ hk⟩
  templates d hd ht := by
    obtain ⟨hk, htemplate⟩ := h.templates d hd ht
    refine ⟨hgrows _ _ hk, ?_⟩
    unfold Catalog.template
    rw [htemplates]
    exact htemplate
  only name template ht := by
    unfold Catalog.template at ht
    rw [htemplates] at ht
    exact h.only name template ht
  nodup := h.nodup

/-- Claiming a name for anything but an instance. -/
theorem Holds.claim (h : c.Holds structs Called) (hkind : kind ≠ .instantiation) (hnew : c.resolved name = none) :
    Holds { c with names := assign name kind c.names } structs Called where
  toKnows := h.toKnows.mono (grows_claim kind hnew) rfl
  instances other t hk ht := by
    refine h.instances other t ?_ ht
    by_cases hother : other = name
    · subst hother
      rw [resolved_claim] at hk
      exact absurd (Option.some.inj hk) hkind
    · exact (lookup_assign_of_ne hother kind c.names).symm.trans hk

/-- Recording a table under a name that is not for an instance. -/
theorem Holds.record (h : c.Holds structs Called) (hk : c.resolved name = some kind) (hkind : kind ≠ .instantiation)
    (t : Table) : Holds { c with tables := assign name t c.tables } structs Called where
  toKnows := h.toKnows.mono (.refl c) rfl
  instances other u hother hu := by
    refine h.instances other u hother ((lookup_assign_of_ne ?_ t c.tables).symm.trans hu)
    rintro rfl
    exact hkind (Option.some.inj (hk.symm.trans hother))

/-- Claiming a name for the instance of a call, and recording its table. -/
theorem Holds.addInstance (h : c.Holds structs Called) (hnew : c.resolved name = none) (hd : d ∈ structs)
    (hcalled : Called d raw) (ht : t.IsInstance d raw) :
    Holds { c with names := assign name .instantiation c.names, tables := assign name t c.tables } structs Called where
  toKnows := h.toKnows.mono (grows_claim .instantiation hnew) rfl
  instances other u hk hu := by
    by_cases hother : other = name
    · subst hother
      cases (lookup_assign_self other t c.tables).symm.trans hu
      exact ⟨d, hd, raw, hcalled, ht⟩
    · exact h.instances other u ((lookup_assign_of_ne hother _ c.names).symm.trans hk)
        ((lookup_assign_of_ne hother t c.tables).symm.trans hu)

end Catalog

/-! ## Structs -/

section Steps

variable {c c' : Catalog} {structs : List StructDecl} {Called : StructDecl → String → Prop} {made : List Table}

namespace Catalog

/-- The structs so far have other names than one whose name has no meaning yet. -/
theorem Knows.name_ne (h : c.Knows structs) (hnew : c.resolved name = none) : ∀ d ∈ structs, d.name ≠ name := by
  rintro d hd rfl
  obtain ⟨kind, hk⟩ := h.declared d hd
  rw [hnew] at hk
  cases hk

theorem Knows.nodup_concat (h : c.Knows structs) (hnew : c.resolved d.name = none) :
    ((structs ++ [d]).map (·.name)).Nodup := by
  rw [List.map_append, List.nodup_append]
  refine ⟨h.nodup, List.pairwise_singleton _ _, fun a ha b hb => ?_⟩
  obtain ⟨other, hother, rfl⟩ := List.mem_map.1 ha
  rw [List.map_singleton, List.mem_singleton] at hb
  exact hb ▸ h.name_ne hnew other hother

/-- One more struct without an argument. -/
theorem Knows.addPlain (h : c.Knows structs) (hnew : c.resolved d.name = none) (hd : d.isTemplate = false) :
    Knows { c with names := assign d.name .struct c.names } (structs ++ [d]) := by
  have hmono : Knows { c with names := assign d.name .struct c.names } structs :=
    h.mono (grows_claim .struct hnew) rfl
  refine ⟨fun other hother => ?_, fun other hother htemplate => ?_, fun name template ht => ?_, h.nodup_concat hnew⟩
  · rcases List.mem_append.1 hother with hother | hother
    · exact hmono.declared other hother
    · rw [List.mem_singleton.1 hother]
      exact ⟨.struct, resolved_claim⟩
  · rcases List.mem_append.1 hother with hother | hother
    · exact hmono.templates other hother htemplate
    · rw [List.mem_singleton.1 hother, hd] at htemplate
      cases htemplate
  · obtain ⟨other, hother, hrest⟩ := hmono.only name template ht
    exact ⟨other, List.mem_append_left _ hother, hrest⟩

/-- One more template. -/
theorem Knows.addTemplate (h : c.Knows structs) (hnew : c.resolved d.name = none) (hd : d.isTemplate = true)
    {template : Template} (hof : template.Of d) :
    Knows { c with names := assign d.name .template c.names, templates := assign d.name template c.templates }
      (structs ++ [d]) := by
  have hgrows := grows_claim .template hnew
  refine ⟨fun other hother => ?_, fun other hother htemplate => ?_, fun name u hu => ?_, h.nodup_concat hnew⟩
  · rcases List.mem_append.1 hother with hother | hother
    · obtain ⟨kind, hk⟩ := h.declared other hother
      exact ⟨kind, hgrows _ _ hk⟩
    · rw [List.mem_singleton.1 hother]
      exact ⟨.template, resolved_claim⟩
  · rcases List.mem_append.1 hother with hother | hother
    · obtain ⟨hk, u, hu, huof⟩ := h.templates other hother htemplate
      exact ⟨hgrows _ _ hk, u, (lookup_assign_of_ne (h.name_ne hnew other hother) _ _).trans hu, huof⟩
    · rw [List.mem_singleton.1 hother]
      exact ⟨resolved_claim, template, lookup_assign_self _ _ _, hof⟩
  · by_cases hname : name = d.name
    · subst hname
      cases (lookup_assign_self d.name template c.templates).symm.trans hu
      exact ⟨d, List.mem_append_right _ (List.mem_singleton_self d), rfl, hd, hof⟩
    · obtain ⟨other, hother, hrest⟩ := h.only name u ((lookup_assign_of_ne hname template c.templates).symm.trans hu)
      exact ⟨other, List.mem_append_left _ hother, hrest⟩

/-- Instances stay where templates and structs are added. -/
theorem Holds.addStruct {kind : Resolved} (h : c.Holds structs Called) (hkind : kind ≠ .instantiation)
    {tables : List (String × Table)} {templates : List (String × Template)}
    (htables : ∀ name, name ≠ d.name → lookup name tables = c.table name)
    (hknows : Knows ⟨assign d.name kind c.names, tables, templates⟩ (structs ++ [d])) :
    Holds ⟨assign d.name kind c.names, tables, templates⟩ (structs ++ [d]) Called where
  toKnows := hknows
  instances name t hk ht := by
    by_cases hname : name = d.name
    · subst hname
      cases (lookup_assign_self d.name kind c.names).symm.trans hk
      exact absurd rfl hkind
    · obtain ⟨other, hother, hrest⟩ :=
        h.instances name t ((lookup_assign_of_ne hname kind c.names).symm.trans hk) ((htables name hname).symm.trans ht)
      exact ⟨other, List.mem_append_left _ hother, hrest⟩

end Catalog

theorem holds_compileStruct {unit : Option SchemaUnit} (h : c.Holds structs Called)
    (hok : outcome (compileStruct d) c = (.ok unit, c')) : c'.Holds (structs ++ [d]) Called := by
  unfold compileStruct at hok
  by_cases hname : (Builtin.ofName? d.name).isSome = true
  · dsimp only at hok
    rw [if_pos hname] at hok
    cases d.argument <;> cases hok
  dsimp only at hok
  rw [if_neg hname] at hok
  cases hargument : d.argument with
  | some text =>
    rw [hargument] at hok
    obtain ⟨rule, hrule, hok⟩ := ofExcept_bind_eq_ok.1 hok
    obtain ⟨t, -, hok⟩ := ofExcept_bind_eq_ok.1 hok
    obtain ⟨⟨⟩, c₁, hclaim, hok⟩ := outcome_bind_eq_ok.1 hok
    obtain ⟨hnew, rfl⟩ := claim_eq_ok.1 hclaim
    cases hok
    have htemplate : d.isTemplate = true := by rw [StructDecl.isTemplate, hargument]; rfl
    have hof : Template.Of ⟨d.name, d.body, rule⟩ d := ⟨rfl, rfl, text, hargument, hrule⟩
    exact h.addStruct (by decide) (fun _ _ => rfl) (h.addTemplate hnew htemplate hof)
  | none =>
    rw [hargument] at hok
    obtain ⟨t, ht, hok⟩ := ofExcept_bind_eq_ok.1 hok
    obtain ⟨⟨⟩, c₁, hclaim, hok⟩ := outcome_bind_eq_ok.1 hok
    obtain ⟨hnew, rfl⟩ := claim_eq_ok.1 hclaim
    cases hok
    have hplain : d.isTemplate = false := by rw [StructDecl.isTemplate, hargument]; rfl
    have hknows := h.addPlain hnew hplain
    exact h.addStruct (by decide) (fun _ hne => lookup_assign_of_ne hne t c.tables)
      (hknows.mono (.refl _) rfl)

theorem holds_compileStructs {decls : List StructDecl} {units : List SchemaUnit} (h : c.Holds structs Called)
    (hok : outcome (compileStructs decls) c = (.ok units, c')) : c'.Holds (structs ++ decls) Called := by
  induction decls generalizing c structs units with
  | nil =>
    cases hok
    rw [List.append_nil]
    exact h
  | cons decl decls ih =>
    obtain ⟨unit, c₁, hunit, hok⟩ := outcome_bind_eq_ok.1 hok
    obtain ⟨more, c₂, hmore, hok⟩ := outcome_bind_eq_ok.1 hok
    cases hok
    rw [List.append_cons]
    exact ih (holds_compileStruct h hunit) hmore

/-! ## References -/

variable {target : Target} {draft draft' : ConfigDraft} {config : String}

/-- The table of a call. -/
theorem instantiate_holds (hs : c.Supplies made) (h : c.Holds structs Called) (hd : d ∈ structs)
    (htemplate : d.isTemplate = true) (hcalled : Called d raw)
    (hok : outcome (instantiate d.name (some raw)) c = (.ok target, c')) :
    c'.Holds structs Called ∧ c'.Answers d raw target.table := by
  obtain ⟨-, template, hfound, hof⟩ := h.templates d hd htemplate
  unfold instantiate at hok
  rw [get_bind_eq_ok, hfound] at hok
  obtain ⟨argument, hargument, hok⟩ := ofExcept_bind_eq_ok.1 hok
  have hexpansion := hof.expansion hargument
  have hmake : ∀ {c' : Catalog},
      outcome (instantiate.make template argument (instanceName template.name argument.suffix) true) c =
        (.ok target, c') → c'.Holds structs Called ∧ c'.Answers d raw target.table := by
    intro c' hmake
    unfold instantiate.make at hmake
    obtain ⟨t, ht, hmake⟩ := ofExcept_bind_eq_ok.1 hmake
    rw [if_pos rfl] at hmake
    obtain ⟨⟨⟩, c₁, hclaim, hmake⟩ := outcome_bind_eq_ok.1 hmake
    obtain ⟨hnew, rfl⟩ := claim_eq_ok.1 hclaim
    obtain ⟨hname, -⟩ := structTable_eq_ok ht
    cases hmake
    rw [← hname] at hexpansion hnew ht ⊢
    exact ⟨h.addInstance hnew hd hcalled ⟨_, hexpansion, structTable_hasBody ht⟩, Catalog.resolved_claim, _, hexpansion⟩
  dsimp only at hok
  split at hok
  · rename_i hinstance
    split at hok
    · rename_i t ht
      cases hok
      rw [← (hs.table_eq ht).2] at hexpansion hinstance
      exact ⟨h, hinstance, _, hexpansion⟩
    · exact hmake hok
  · cases hok
  · exact hmake hok

/-- The table of a template without an argument. -/
theorem instantiate_default_holds (h : c.Holds structs Called) {name : String} (hk : c.resolved name = some .template)
    (hok : outcome (instantiate name none) c = (.ok target, c')) : c'.Holds structs Called := by
  unfold instantiate at hok
  rw [get_bind_eq_ok] at hok
  cases htemplate : c.template name with
  | none =>
    rw [htemplate] at hok
    cases hok
  | some template =>
    rw [htemplate] at hok
    dsimp only at hok
    split at hok
    · cases hok
      exact h
    · unfold instantiate.make at hok
      obtain ⟨t, ht, hok⟩ := ofExcept_bind_eq_ok.1 hok
      cases hok
      obtain ⟨d, -, hd, -, hof⟩ := h.only name template htemplate
      rw [hof.name, hd]
      exact h.record hk (by decide) t

/-- Only templates that the catalog knows are instantiated. -/
theorem Catalog.Knows.of_instantiate {name : String} {argument : Option String} (h : c.Knows structs)
    (hok : outcome (instantiate name argument) c = (.ok target, c')) :
    ∃ d ∈ structs, d.name = name ∧ d.isTemplate = true := by
  unfold instantiate at hok
  rw [get_bind_eq_ok] at hok
  cases htemplate : c.template name with
  | none =>
    rw [htemplate] at hok
    cases hok
  | some template =>
    obtain ⟨d, hd, hname, hisTemplate, -⟩ := h.only name template htemplate
    exact ⟨d, hd, hname, hisTemplate⟩

/-- The table of a reference; if it is a call, the one that answers it. -/
theorem reference_holds {ref : TypeRef} (hs : c.Supplies made) (h : c.Holds structs Called)
    (hcalled : ∀ d ∈ structs, d.isTemplate = true → ∀ raw, ref = ⟨d.name, some raw⟩ → Called d raw)
    (hok : outcome (reference ref) c = (.ok target, c')) :
    c'.Holds structs Called ∧
      ∀ d ∈ structs, d.isTemplate = true → ∀ raw, ref = ⟨d.name, some raw⟩ → c'.Answers d raw target.table := by
  unfold reference at hok
  rw [get_bind_eq_ok] at hok
  split at hok
  case h_1 hk hargument | h_2 hk hargument =>
    split at hok
    · cases hok
      refine ⟨h, fun d _ _ raw href => ?_⟩
      rw [href] at hargument
      cases hargument
    · cases hok
  case h_3 | h_4 => cases hok
  case h_5 argument hk =>
    cases hargument : ref.argument with
    | none =>
      rw [hargument] at hok
      refine ⟨instantiate_default_holds h hk hok, fun d _ _ raw href => ?_⟩
      rw [href] at hargument
      cases hargument
    | some raw =>
      rw [hargument] at hok
      have href : ∀ d : StructDecl, d.name = ref.name → ref = ⟨d.name, some raw⟩ := by
        rintro d hname
        rw [hname, ← hargument]
      constructor
      · obtain ⟨d, hd, hname, htemplate⟩ := h.of_instantiate hok
        rw [← hname] at hok
        exact (instantiate_holds hs h hd htemplate (hcalled d hd htemplate raw (href d hname)) hok).1
      · intro d hd htemplate other heq
        rw [heq] at hok hargument
        cases hargument
        exact (instantiate_holds hs h hd htemplate (hcalled d hd htemplate raw heq) hok).2
  case h_6 => cases hok

/-- The table of the items of a list, likewise. -/
theorem listItem_holds {item : TypeRef} {scalarItems : Bool} (hs : c.Supplies made) (h : c.Holds structs Called)
    (hcalled : ∀ d ∈ structs, d.isTemplate = true → ∀ raw, item = ⟨d.name, some raw⟩ → Called d raw)
    (hok : outcome (listItem item) c = (.ok (target, scalarItems), c')) :
    c'.Holds structs Called ∧
      ∀ d ∈ structs, d.isTemplate = true → ∀ raw, item = ⟨d.name, some raw⟩ → c'.Answers d raw target.table := by
  unfold listItem at hok
  rw [get_bind_eq_ok] at hok
  split at hok
  case h_1 b hb hargument =>
    refine ⟨?_, fun d _ _ raw hitem => ?_⟩
    · split at hok
      · cases hok
        exact h
      · obtain ⟨⟨⟩, c₁, hclaim, hok⟩ := outcome_bind_eq_ok.1 hok
        obtain ⟨hnew, rfl⟩ := claim_eq_ok.1 hclaim
        cases hok
        have hclaimed : Catalog.Holds { c with names := assign b.name .builtin c.names } structs Called :=
          h.claim (by decide) hnew
        exact hclaimed.record Catalog.resolved_claim (by decide) _
    · rw [hitem] at hargument
      cases hargument
  case h_2 =>
    split at hok
    · obtain ⟨t, c₁, hreference, hok⟩ := outcome_bind_eq_ok.1 hok
      cases hok
      exact reference_holds hs h hcalled hreference
    · cases hok

/-! ## Fields -/

/-- The slot of a field in a config; if the type of the field calls a template, it refers to the table that answers. -/
def Slot.Follows (c : Catalog) (structs : List StructDecl) (config : String) (f : FieldDef) (slot : Slot) : Prop :=
  slot.config = config ∧ slot.field = f.name ∧ ∀ d ∈ structs, d.isTemplate = true → ∀ raw, f.Calls d raw →
    ∃ t, slot.target? = some t ∧ c.Answers d raw t

theorem Slot.Follows.grows {slot : Slot} {f : FieldDef} (h : slot.Follows c structs config f) (hgrows : c.Grows c') :
    slot.Follows c' structs config f := by
  refine ⟨h.1, h.2.1, fun d hd htemplate raw hcall => ?_⟩
  obtain ⟨t, ht, hanswers⟩ := h.2.2 d hd htemplate raw hcall
  exact ⟨t, ht, hanswers.grows hgrows⟩

theorem addField_holds {field : FieldDef} (hs : c.Supplies made) (h : c.Holds structs Called)
    (hcalled : ∀ d ∈ structs, d.isTemplate = true → ∀ raw, field.Calls d raw → Called d raw)
    (hok : outcome (draft.addField field) c = (.ok draft', c')) :
    c'.Holds structs Called ∧ c.Grows c' ∧
      ∃ slot, draft'.slots = draft.slots ++ [slot] ∧ slot.Follows c' structs draft.table.name field := by
  unfold ConfigDraft.addField at hok
  dsimp only at hok
  rw [get_bind_eq_ok] at hok
  obtain ⟨type, htype, hok⟩ := ofExcept_bind_eq_ok.1 hok
  have hscalar : (∀ d ∈ structs, d.isTemplate = true → ∀ raw, ¬ field.Calls d raw) → ∃ slot,
      (draft.addScalar field).slots = draft.slots ++ [slot] ∧ slot.Follows c structs draft.table.name field :=
    fun hno => ⟨_, rfl, rfl, rfl, fun d hd htemplate raw hcall => absurd hcall (hno d hd htemplate raw)⟩
  cases type with
  | list item =>
    have hcall : ∀ {d : StructDecl} {raw}, field.Calls d raw ↔ item = ⟨d.name, some raw⟩ := by
      simp [FieldDef.Calls, htype]
    obtain ⟨⟨target, scalarItems⟩, c₁, htarget, hok⟩ := outcome_bind_eq_ok.1 hok
    obtain ⟨hholds, hanswers⟩ := listItem_holds hs h
      (fun d hd htemplate raw hitem => hcalled d hd htemplate raw (hcall.2 hitem)) (inField_eq_ok.1 htarget)
    dsimp only at hok
    split at hok
    · cases hok
    · obtain ⟨⟨⟩, c₂, hclaim, hok⟩ := outcome_bind_eq_ok.1 hok
      obtain ⟨hnew, rfl⟩ := claim_eq_ok.1 hclaim
      cases hok
      have hgrows := Catalog.grows_claim .junction hnew
      refine ⟨hholds.claim (by decide) hnew, (listItem_supplies hs (inField_eq_ok.1 htarget)).grows.trans hgrows,
        _, rfl, rfl, rfl, fun d hd htemplate raw hc => ⟨_, rfl, ?_⟩⟩
      exact (hanswers d hd htemplate raw (hcall.1 hc)).grows hgrows
  | named ref =>
    have hcall : ∀ {d : StructDecl} {raw}, field.Calls d raw ↔ ref = ⟨d.name, some raw⟩ := by
      simp [FieldDef.Calls, htype]
    dsimp only at hok
    split at hok
    · obtain ⟨target, c₁, htarget, hok⟩ := outcome_bind_eq_ok.1 hok
      obtain ⟨hholds, hanswers⟩ := reference_holds hs h
        (fun d hd htemplate raw href => hcalled d hd htemplate raw (hcall.2 href)) (inField_eq_ok.1 htarget)
      cases hok
      exact ⟨hholds, (reference_supplies hs (inField_eq_ok.1 htarget)).grows, _, rfl, rfl, rfl,
        fun d hd htemplate raw hc => ⟨_, rfl, hanswers d hd htemplate raw (hcall.1 hc)⟩⟩
    · rename_i hsql
      cases hok
      refine ⟨h, .refl _, hscalar fun d hd htemplate raw hc => hsql ?_⟩
      rw [hcall.1 hc, Catalog.isStruct, (h.templates d hd htemplate).1]
      rfl
  | sql =>
    have hno : ∀ d ∈ structs, d.isTemplate = true → ∀ raw, ¬ field.Calls d raw := by
      simp [FieldDef.Calls, htype]
    dsimp only at hok
    split at hok
    · cases hok
    · split at hok
      · cases hok
      · cases hok
        exact ⟨h, .refl _, hscalar hno⟩

theorem addFields_holds {known : Catalog} {fields : List FieldDef} {done : List String}
    (hd : Drafted known c made config done draft) (hnodup : (done ++ fields.map (·.name)).Nodup)
    (h : c.Holds structs Called)
    (hcalled : ∀ f ∈ fields, ∀ d ∈ structs, d.isTemplate = true → ∀ raw, f.Calls d raw → Called d raw)
    (hok : outcome (draft.addFields fields) c = (.ok draft', c')) :
    c'.Holds structs Called ∧ c.Grows c' ∧ draft.slots ⊆ draft'.slots ∧
      ∀ f ∈ fields, ∃ slot ∈ draft'.slots, slot.Follows c' structs config f := by
  induction fields generalizing c done draft with
  | nil =>
    cases hok
    exact ⟨h, .refl _, List.Subset.refl _, fun _ hf => nomatch hf⟩
  | cons field fields ih =>
    obtain ⟨next, c₁, hfield, hok⟩ := outcome_bind_eq_ok.1 hok
    obtain ⟨hfirst, hrest⟩ := List.forall_mem_cons.1 hcalled
    obtain ⟨hholds, hgrows, slot, hslots, hfollows⟩ := addField_holds hd.supplies h hfirst hfield
    have hnotMem := notMem_of_nodup hnodup
    rw [List.map_cons, List.append_cons] at hnodup
    have hnext := hd.addField hnotMem hfield
    obtain ⟨hlast, hlater, hsub, hall⟩ := ih hnext hnodup hholds hrest hok
    rw [hslots] at hsub
    refine ⟨hlast, hgrows.trans hlater, List.Subset.trans (List.subset_append_left _ _) hsub,
      List.forall_mem_cons.2 ⟨?_, hall⟩⟩
    rw [hd.name] at hfollows
    exact ⟨slot, hsub (List.mem_append_right _ (List.mem_singleton_self _)), hfollows.grows hlater⟩

/-! ## Configs -/

/-- Recording tables under names that are not for instances. -/
theorem recordTables_holds {ts : List Table} (h : c.Holds structs Called)
    (hts : ∀ t ∈ ts, ∃ kind, c.resolved t.name = some kind ∧ kind ≠ .instantiation)
    (hok : outcome (recordTables ts) c = (.ok (), c')) : c'.Holds structs Called := by
  induction ts generalizing c with
  | nil =>
    cases hok
    exact h
  | cons t ts ih =>
    obtain ⟨⟨kind, hk, hkind⟩, hts⟩ := List.forall_mem_cons.1 hts
    obtain ⟨⟨⟩, c₁, hrecord, hok⟩ := outcome_bind_eq_ok.1 hok
    cases hrecord
    exact ih (h.record hk hkind t) hts hok

/-- What configs call in their bodies. -/
def Calling (structs : List StructDecl) (decl : ConfigDecl) (Called : StructDecl → String → Prop) : Prop :=
  ∀ body, parseBody decl.name decl.body = .ok body → ∀ f ∈ body.fields, ∀ d ∈ structs, d.isTemplate = true →
    ∀ raw, f.Calls d raw → Called d raw

/-- The slots of a config: every field has one. -/
def Followed (c : Catalog) (structs : List StructDecl) (decl : ConfigDecl) (slots : List Slot) : Prop :=
  ∀ body, parseBody decl.name decl.body = .ok body → ∀ f ∈ body.fields,
    ∃ slot ∈ slots, slot.Follows c structs decl.name f

theorem holds_compileConfig {s : CompiledSchema} {decl : ConfigDecl} {unit : SchemaUnit} {slots : List Slot}
    (ho : Outlined c s) (h : c.Holds structs Called) (hcalled : Calling structs decl Called)
    (hok : outcome (compileConfig decl) c = (.ok (unit, slots), c')) :
    c'.Holds structs Called ∧ c.Grows c' ∧ Followed c' structs decl slots := by
  obtain ⟨body, d, last, hbody, hnew, hfields, hd, hrecord, -, rfl⟩ := drafted_compileConfig ho hok
  have hclaimed : Catalog.Holds { c with names := assign decl.name .config c.names } structs Called :=
    h.claim (by decide) hnew
  obtain ⟨hholds, hgrows, -, hfollows⟩ :=
    addFields_holds (drafted_bare ho hnew body.constraints) (parseBody_fields hbody).nodup hclaimed (hcalled body hbody)
      hfields
  have hlast := (recordTables_supplies hd.supplies hd.awaits hd.distinct hrecord).1
  refine ⟨recordTables_holds hholds (fun t ht => ?_) hrecord, ?_, fun other hother f hf => ?_⟩
  · -- the config and its junctions have names that were claimed for them
    rcases List.mem_cons.1 ht with rfl | ht
    · rw [hd.name]
      exact ⟨.config, hd.grows _ _ Catalog.resolved_claim, by decide⟩
    · rw [hd.junctions, List.mem_filterMap] at ht
      obtain ⟨slot, hslot, hj⟩ := ht
      exact ⟨.junction, (hd.slots slot hslot).2.junction hj, by decide⟩
  · exact ((Catalog.grows_claim .config hnew).trans hgrows).trans hlast
  · cases hbody.symm.trans hother
    obtain ⟨slot, hslot, hslotFollows⟩ := hfollows f hf
    exact ⟨slot, hslot, hslotFollows.grows hlast⟩

theorem holds_compileConfigs {s : CompiledSchema} {decls : List ConfigDecl} {units : List SchemaUnit}
    {slots : List Slot} (ho : Outlined c s) (h : c.Holds structs Called)
    (hcalled : ∀ decl ∈ decls, Calling structs decl Called)
    (hok : outcome (compileConfigs decls) c = (.ok (units, slots), c')) :
    c'.Holds structs Called ∧ c.Grows c' ∧ ∀ decl ∈ decls, Followed c' structs decl slots := by
  induction decls generalizing c s units slots with
  | nil =>
    cases hok
    exact ⟨h, .refl _, fun _ hdecl => nomatch hdecl⟩
  | cons decl decls ih =>
    obtain ⟨⟨unit, own⟩, c₁, hunit, hok⟩ := outcome_bind_eq_ok.1 hok
    obtain ⟨⟨more, others⟩, c₂, hmore, hok⟩ := outcome_bind_eq_ok.1 hok
    cases hok
    obtain ⟨hfirst, hrest⟩ := List.forall_mem_cons.1 hcalled
    obtain ⟨hholds, hgrows, hfollowed⟩ := holds_compileConfig ho h hfirst hunit
    obtain ⟨hlast, hlater, hall⟩ := ih (outlined_compileConfig ho hunit) hholds hrest hmore
    refine ⟨hlast, hgrows.trans hlater, List.forall_mem_cons.2 ⟨fun body hbody f hf => ?_, fun other hother => ?_⟩⟩
    · obtain ⟨slot, hslot, hfollows⟩ := hfollowed body hbody f hf
      exact ⟨slot, List.mem_append_left _ hslot, hfollows.grows hlater⟩
    · intro body hbody f hf
      obtain ⟨slot, hslot, hfollows⟩ := hall other hother body hbody f hf
      exact ⟨slot, List.mem_append_right _ hslot, hfollows⟩

end Steps

/-! ## All declarations -/

variable {c : Catalog} {s : CompiledSchema} {ds : Declarations}

/-- A template is called with an argument somewhere in declarations. -/
def CalledIn (ds : Declarations) (d : StructDecl) (raw : String) : Prop :=
  ∃ call, ds.HasCall call ∧ call.template = d ∧ call.raw = raw

theorem calling_calledIn {decl : ConfigDecl} (hdecl : decl ∈ ds.configs) : Calling ds.structs decl (CalledIn ds) :=
  fun body hbody f hf d hd htemplate raw hcall =>
    ⟨⟨decl.name, f.name, d, raw⟩, ⟨hd, htemplate, decl, hdecl, body, hbody, rfl, f, hf, rfl, hcall⟩, rfl, rfl⟩

/-- The table that a slot refers to is one of the schema. -/
theorem Outlined.target_mem (h : Outlined c s) {slot : Slot} (hslot : slot ∈ s.slots) (ht : slot.target? = some t) :
    t ∈ s.tables := by
  have hplaced := (h.slots slot hslot).2.1
  unfold Slot.Placed at hplaced
  unfold Slot.target? at ht
  cases hs : slot.storage with
  | scalar table column =>
    rw [hs] at ht
    cases ht
  | reference table column target =>
    rw [hs] at ht hplaced
    cases ht
    exact hplaced.2.2.1
  | list table item scalarItems =>
    rw [hs] at ht hplaced
    cases ht
    exact hplaced.2.1

/-- A field has one slot. -/
theorem Outlined.slot_eq (h : Outlined c s) {a b : Slot} (ha : a ∈ s.slots) (hb : b ∈ s.slots)
    (hconfig : a.config = b.config) (hfield : a.field = b.field) : a = b := by
  have hsymm : Std.Symm Slot.Apart := ⟨fun _ _ => Slot.Apart.symm⟩
  by_contra hne
  exact (h.apart.forall ha hb hne).fields hconfig hfield

theorem Outlined.table_eq_of_name (h : Outlined c s) {u : Table} (ht : t ∈ s.tables) (hu : u ∈ s.tables)
    (hname : t.name = u.name) : t = u :=
  List.inj_on_of_nodup_map h.supplies.nodup ht hu hname

/-- The tables of a schema are recorded under their names. -/
theorem Outlined.table_name (h : Outlined c s) (ht : t ∈ s.tables) : c.table t.name = some t := by
  cases hfound : c.table t.name with
  | none => exact absurd rfl (h.supplies.table_eq_none.1 hfound t ht)
  | some u =>
    obtain ⟨hu, hname⟩ := h.supplies.table_eq hfound
    rw [h.table_eq_of_name hu ht hname]

theorem holds_empty (Called : StructDecl → String → Prop) : Catalog.Holds {} [] Called where
  declared _ hd := nomatch hd
  templates _ hd := nomatch hd
  only _ _ ht := nomatch ht
  nodup := List.nodup_nil
  instances _ _ hk := nomatch hk

/-- Every call gets one table, which has the name that it should have. -/
theorem answered_of_compile (hok : compile ds = .ok s) :
    ∃ c, Outlined c s ∧ c.Holds ds.structs (CalledIn ds) ∧ ∀ call, ds.HasCall call →
      ∃ t, (∀ u, s.Gives call u ↔ u = t) ∧ t ∈ s.tables ∧ c.Answers call.template call.raw t := by
  obtain ⟨structs, c₁, hstructs, hrest⟩ := outcome_bind_eq_ok.1 (outcome_of_compile hok)
  obtain ⟨⟨configs, slots⟩, c₂, hconfigs, hrest⟩ := outcome_bind_eq_ok.1 hrest
  have houtlined := outlined_of_compile hok
  obtain ⟨hholds, -, hfollowed⟩ := holds_compileConfigs (outlined_compileStructs outlined_empty hstructs)
    (holds_compileStructs (holds_empty (CalledIn ds)) hstructs) (fun _ => calling_calledIn) hconfigs
  cases hrest
  refine ⟨_, houtlined, hholds, fun call ⟨hd, htemplate, decl, hdecl, body, hbody, hname, f, hf, hfield, hcall⟩ => ?_⟩
  obtain ⟨slot, hslot, hconfig, hslotField, hanswers⟩ := hfollowed decl hdecl body hbody f hf
  obtain ⟨t, ht, hanswer⟩ := hanswers call.template hd htemplate call.raw hcall
  refine ⟨t, fun u => ⟨fun ⟨other, hother, hotherConfig, hotherField, hu⟩ => ?_, ?_⟩, houtlined.target_mem hslot ht,
    hanswer⟩
  · rw [houtlined.slot_eq hother hslot (hotherConfig.trans (hname.symm.trans hconfig.symm))
      (hotherField.trans (hfield.symm.trans hslotField.symm)), ht] at hu
    exact (Option.some.inj hu).symm
  · rintro rfl
    exact ⟨slot, hslot, hconfig.trans hname, hslotField.trans hfield, ht⟩

/-- **Calls get the tables of their own templates exactly if no two templates give the same name to their tables.**
Otherwise calls of two templates share a table. -/
theorem own_instances_iff (hok : compile ds = .ok s) :
    InstancesApart ds ↔
      (∀ call, ds.HasCall call → ∃ t, (∀ u, s.Gives call u ↔ u = t) ∧ t.IsInstance call.template call.raw) ∧
        ∀ call other, ds.HasCall call → ds.HasCall other → ∀ t, s.Gives call t → s.Gives other t →
          call.template = other.template := by
  obtain ⟨c, houtlined, hholds, hall⟩ := answered_of_compile hok
  constructor
  · intro hapart
    constructor
    · intro call hcall
      obtain ⟨t, hgives, ht, hk, body, hexpansion⟩ := hall call hcall
      -- the table was made for some call, and only one of the same template gives it this name
      obtain ⟨-, -, -, ⟨other, hother, rfl, rfl⟩, body', hexpansion', hbody⟩ :=
        hholds.instances t.name t hk (houtlined.table_name ht)
      have htemplate := hapart call other hcall hother _ _ _ hexpansion hexpansion'
      rw [← htemplate] at hexpansion'
      cases expansion_unique hexpansion hexpansion' rfl
      exact ⟨t, hgives, body, hexpansion, hbody⟩
    · intro call other hcall hother t ht hu
      obtain ⟨t', hgives, -, -, body, hexpansion⟩ := hall call hcall
      obtain ⟨u', hgives', -, -, body', hexpansion'⟩ := hall other hother
      cases (hgives t).1 ht
      cases (hgives' t).1 hu
      exact hapart call other hcall hother _ _ _ hexpansion hexpansion'
  · rintro ⟨-, hdifferent⟩ call other hcall hother name body body' hname hname'
    obtain ⟨t, hgives, ht, -, _, hexpansion⟩ := hall call hcall
    obtain ⟨u, hgives', hu, -, _, hexpansion'⟩ := hall other hother
    cases hname.symm.trans hexpansion
    have hsame : u.name = t.name := congrArg Expansion.name (Option.some.inj (hexpansion'.symm.trans hname'))
    rw [houtlined.table_eq_of_name hu ht hsame] at hgives'
    exact hdifferent call other hcall hother t ((hgives t).2 rfl) ((hgives' t).2 rfl)

/-- One template, called by a field and by a list. -/
def greetings : Declarations where
  structs := [⟨"Greeting", "text TEXT DEFAULT who", some "who:TEXT=you"⟩]
  configs := [⟨"Room", "first Greeting(all), others LIST(Greeting(each))"⟩]

theorem own_instances_greetings : ∃ s, compile greetings = .ok s ∧ ∀ call, greetings.HasCall call →
    ∃ t, (∀ u, s.Gives call u ↔ u = t) ∧ t.IsInstance call.template call.raw := by
  have hrun : (compile greetings).isOk = true := by decide +kernel
  rcases hok : compile greetings with e | s
  · rw [hok] at hrun
    cases hrun
  · have hapart : InstancesApart greetings := fun call other hcall hother _ _ _ _ _ =>
      (List.mem_singleton.1 hcall.1).trans (List.mem_singleton.1 hother.1).symm
    exact ⟨s, rfl, ((own_instances_iff hok).1 hapart).1⟩

/-! ### Two templates with one name -/

/-- Two templates, where the first one is called with an argument that begins like the rest of the name of the
second one. -/
def underscores : Declarations where
  structs := [⟨"A", "v TEXT DEFAULT x", some "x:TEXT=q"⟩, ⟨"A_b", "w TEXT DEFAULT x", some "x:TEXT=q"⟩]
  configs := [⟨"C", "p A(b_c), q A_b(c)"⟩]

/-- The call of the first template. -/
def longCall : Call := ⟨"C", "p", ⟨"A", "v TEXT DEFAULT x", some "x:TEXT=q"⟩, "b_c"⟩

/-- The call of the second template. -/
def shortCall : Call := ⟨"C", "q", ⟨"A_b", "w TEXT DEFAULT x", some "x:TEXT=q"⟩, "c"⟩

/-- The table that is made for the first call. -/
def sharedTable : Table := { name := "A_b_c", columns := [⟨"v", "TEXT DEFAULT 'b_c'"⟩] }

/-- Both calls get the same table, which is not the one that the second call should get. -/
theorem shared_instance : underscores.HasCall longCall ∧ underscores.HasCall shortCall ∧
    ∃ s, compile underscores = .ok s ∧ s.Gives longCall sharedTable ∧ s.Gives shortCall sharedTable ∧
      ¬ sharedTable.IsInstance shortCall.template shortCall.raw := by
  have hbody : parseBody "C" "p A(b_c), q A_b(c)" = .ok ⟨[⟨"p", "A(b_c)"⟩, ⟨"q", "A_b(c)"⟩], []⟩ := by decide +kernel
  refine ⟨⟨by decide, rfl, _, List.mem_singleton_self _, _, hbody, rfl, ⟨"p", "A(b_c)"⟩, by decide, rfl, .inl ?_⟩,
    ⟨by decide, rfl, _, List.mem_singleton_self _, _, hbody, rfl, ⟨"q", "A_b(c)"⟩, by decide, rfl, .inl ?_⟩, ?_⟩
  · decide +kernel
  · decide +kernel
  have hslots : (compile underscores).map (·.slots) = .ok
      [⟨"C", "p", .reference "C" "p" sharedTable⟩, ⟨"C", "q", .reference "C" "q" sharedTable⟩] := by decide +kernel
  have hexpansion : shortCall.template.expansion? shortCall.raw = some ⟨"A_b_c", "w TEXT DEFAULT 'c'"⟩ := by
    decide +kernel
  have hown : parseBody "A_b_c" "w TEXT DEFAULT 'c'" = .ok ⟨[⟨"w", "TEXT DEFAULT 'c'"⟩], []⟩ := by decide +kernel
  rcases hok : compile underscores with e | s
  · rw [hok] at hslots
    cases hslots
  · rw [hok] at hslots
    have hslots := Except.ok.inj hslots
    refine ⟨s, rfl, ⟨_, hslots ▸ List.mem_cons_self .., rfl, rfl, rfl⟩,
      ⟨_, hslots ▸ List.mem_cons_of_mem _ (List.mem_singleton_self _), rfl, rfl, rfl⟩, ?_⟩
    rintro ⟨body, hbody, parsed, hparsed, hcolumns, -⟩
    cases hexpansion.symm.trans hbody
    cases hown.symm.trans hparsed
    revert hcolumns
    decide

end Schema

end GuardedConfig
