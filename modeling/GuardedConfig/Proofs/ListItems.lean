import GuardedConfig.Proofs.Agreement
import GuardedConfig.Proofs.Instances

/-!
# `Proofs.ListItems` — the tables of the items of lists

Names of all kinds have their tables in one catalog, and a list finds the table of its items there by name. A struct, a
template, an instantiation and a built-in type each give their table what it has to have, and so a list finds what its
type says. Only a config may also be named like a built-in type: then a list of that type finds the table of the config,
and writes its items into it.

## Contents

* `Table.IsItemOf`, `Catalog.Furnished` — what a table for items is, and catalogs whose tables are what they should be
* `Slot.Draws`, `listItem_furnished`, `addField_furnished` — where a list finds the table of its items
* `Drawn`, `furnished_compileConfigs`, `drawn_of_compile` — all declarations
* `ItemsApart`, `ItemsInConfig`, `items_apart_iff`, `list_in_config_table`
-/

namespace GuardedConfig.Schema

open GuardedConfig.Field

/-! ## Tables for items -/

/-- A table for items of a kind: that of a struct, of a template without an argument or with one, or of a built-in
type. -/
inductive Table.IsItemOf (structs : List StructDecl) (t : Table) : Resolved → Prop where
  | struct {d : StructDecl} : d ∈ structs → d.argument = none → t.name = d.name → t.HasBody d.body →
      IsItemOf structs t .struct
  | template {d : StructDecl} {text : String} {rule : ArgumentRule} : d ∈ structs → d.argument = some text →
      ArgumentRule.parse text = .ok rule → t.name = d.name →
      t.HasBody (substitute rule.placeholder rule.default.literal d.body) → IsItemOf structs t .template
  | instantiation {d : StructDecl} {raw : String} : d ∈ structs → t.IsInstance d raw →
      IsItemOf structs t .instantiation
  | builtin {b : Builtin} : t = .wrapper b.name → IsItemOf structs t .builtin

variable {c c' : Catalog} {structs more : List StructDecl} {configs : List String} {name : String} {kind : Resolved}
  {t : Table} {made : List Table} {target : Target}

theorem Table.IsItemOf.mono (h : t.IsItemOf structs kind) (hsub : structs ⊆ more) : t.IsItemOf more kind := by
  cases h with
  | struct hd hargument hname hbody => exact .struct (hsub hd) hargument hname hbody
  | template hd hargument hrule hname hbody => exact .template (hsub hd) hargument hrule hname hbody
  | instantiation hd hinstance => exact .instantiation (hsub hd) hinstance
  | builtin ht => exact .builtin ht

/-! ## Catalogs -/

namespace Catalog

/-- The tables of structs, templates, instantiations and built-in types are what they should be, and there are no other
configs than these. -/
structure Furnished (c : Catalog) (structs : List StructDecl) (configs : List String) : Prop
    extends Knows c structs where
  configs : ∀ name, c.resolved name = some .config → name ∈ configs
  items : ∀ name t kind, kind.isItem = true → c.resolved name = some kind → c.table name = some t →
    t.IsItemOf structs kind

/-- Claiming a name, which has no table yet. -/
theorem Furnished.claim (h : c.Furnished structs configs) (hs : c.Supplies made) (hnew : c.resolved name = none)
    (kind : Resolved) (hkind : kind = .config → name ∈ configs) :
    Furnished { c with names := assign name kind c.names } structs configs where
  toKnows := h.toKnows.mono (grows_claim kind hnew) rfl
  configs other hother := by
    by_cases hsame : other = name
    · subst hsame
      exact hkind (Option.some.inj (resolved_claim.symm.trans hother))
    · exact h.configs other ((lookup_assign_of_ne hsame kind c.names).symm.trans hother)
  items other t k hk hother ht := by
    refine h.items other t k hk ((lookup_assign_of_ne ?_ kind c.names).symm.trans hother) ht
    rintro rfl
    exact nomatch (hs.table_of_unclaimed hnew).symm.trans ht

/-- Recording a table that is what its name says. -/
theorem Furnished.record (h : c.Furnished structs configs) (hk : c.resolved name = some kind)
    (ht : kind.isItem = true → t.IsItemOf structs kind) :
    Furnished { c with tables := assign name t c.tables } structs configs where
  toKnows := h.toKnows.mono (.refl c) rfl
  configs := h.configs
  items other u k hitem hother hu := by
    by_cases hsame : other = name
    · subst hsame
      cases (lookup_assign_self other t c.tables).symm.trans hu
      cases hk.symm.trans hother
      exact ht hitem
    · exact h.items other u k hitem hother ((lookup_assign_of_ne hsame t c.tables).symm.trans hu)

/-- One more struct, whose table is what its name says, if it has one. -/
theorem Furnished.addStruct {d : StructDecl} (h : c.Furnished structs configs) (kind : Resolved)
    (hkind : kind ≠ .config) {tables : List (String × Table)}
    {templates : List (String × Template)} (htables : ∀ name, name ≠ d.name → lookup name tables = c.table name)
    (htable : ∀ t, lookup d.name tables = some t → t.IsItemOf (structs ++ [d]) kind)
    (hknows : Knows ⟨assign d.name kind c.names, tables, templates⟩ (structs ++ [d])) :
    Furnished ⟨assign d.name kind c.names, tables, templates⟩ (structs ++ [d]) configs where
  toKnows := hknows
  configs name hk := by
    by_cases hname : name = d.name
    · subst hname
      exact absurd (Option.some.inj ((lookup_assign_self d.name kind c.names).symm.trans hk)) hkind
    · exact h.configs name ((lookup_assign_of_ne hname kind c.names).symm.trans hk)
  items name t k hitem hk ht := by
    by_cases hname : name = d.name
    · subst hname
      cases (lookup_assign_self d.name kind c.names).symm.trans hk
      exact htable t ht
    · exact (h.items name t k hitem ((lookup_assign_of_ne hname kind c.names).symm.trans hk)
        ((htables name hname).symm.trans ht)).mono (List.subset_append_left _ _)

end Catalog

/-! ## Structs -/

theorem furnished_compileStruct {d : StructDecl} {unit : Option SchemaUnit} (hs : c.Supplies made)
    (h : c.Furnished structs configs) (hok : outcome (compileStruct d) c = (.ok unit, c')) :
    c'.Furnished (structs ++ [d]) configs := by
  unfold compileStruct at hok
  by_cases hname : (Builtin.ofName? d.name).isSome = true
  · dsimp only at hok
    rw [if_pos hname] at hok
    cases d.argument <;> cases hok
  dsimp only at hok
  rw [if_neg hname] at hok
  cases hargument : d.argument with
  | some text =>
    rw [hargument] at hok
    obtain ⟨rule, hrule, hok⟩ := ofExcept_bind_eq_ok.1 hok
    obtain ⟨t, -, hok⟩ := ofExcept_bind_eq_ok.1 hok
    obtain ⟨⟨⟩, c₁, hclaim, hok⟩ := outcome_bind_eq_ok.1 hok
    obtain ⟨hnew, rfl⟩ := claim_eq_ok.1 hclaim
    cases hok
    have htemplate : d.isTemplate = true := by rw [StructDecl.isTemplate, hargument]; rfl
    have hof : Template.Of ⟨d.name, d.body, rule⟩ d := ⟨rfl, rfl, text, hargument, hrule⟩
    refine h.addStruct .template (by decide) (fun _ _ => rfl) (fun u hu => ?_) (h.addTemplate hnew htemplate hof)
    cases (hs.table_of_unclaimed hnew).symm.trans hu
  | none =>
    rw [hargument] at hok
    obtain ⟨t, ht, hok⟩ := ofExcept_bind_eq_ok.1 hok
    obtain ⟨⟨⟩, c₁, hclaim, hok⟩ := outcome_bind_eq_ok.1 hok
    obtain ⟨hnew, rfl⟩ := claim_eq_ok.1 hclaim
    cases hok
    have hplain : d.isTemplate = false := by rw [StructDecl.isTemplate, hargument]; rfl
    refine h.addStruct .struct (by decide) (fun _ hne => lookup_assign_of_ne hne t c.tables) (fun u hu => ?_)
      ((h.addPlain hnew hplain).mono (.refl _) rfl)
    cases (lookup_assign_self d.name t c.tables).symm.trans hu
    exact .struct (List.mem_append_right _ (List.mem_singleton_self d)) hargument (structTable_eq_ok ht).1
      (structTable_hasBody ht)

theorem furnished_compileStructs {s : CompiledSchema} {decls : List StructDecl} {units : List SchemaUnit}
    (ho : Outlined c s) (h : c.Furnished structs configs) (hok : outcome (compileStructs decls) c = (.ok units, c')) :
    c'.Furnished (structs ++ decls) configs := by
  induction decls generalizing c s structs units with
  | nil =>
    cases hok
    rw [List.append_nil]
    exact h
  | cons decl decls ih =>
    obtain ⟨unit, c₁, hunit, hok⟩ := outcome_bind_eq_ok.1 hok
    obtain ⟨more, c₂, hmore, hok⟩ := outcome_bind_eq_ok.1 hok
    cases hok
    rw [List.append_cons]
    exact ih (outlined_compileStruct ho hunit) (furnished_compileStruct ho.supplies h hunit) hmore

/-! ## References -/

/-- What a reference finds: a table for items, under its own name. -/
def Catalog.Offers (c : Catalog) (structs : List StructDecl) (t : Table) : Prop :=
  ∃ kind, kind.isItem = true ∧ c.resolved t.name = some kind ∧ t.IsItemOf structs kind

theorem Catalog.Offers.grows (h : c.Offers structs t) (hgrows : c.Grows c') : c'.Offers structs t := by
  obtain ⟨kind, hitem, hk, ht⟩ := h
  exact ⟨kind, hitem, hgrows _ _ hk, ht⟩

/-- A table that is there already. -/
theorem Catalog.Furnished.offers (h : c.Furnished structs configs) (hs : c.Supplies made) (ht : c.table name = some t)
    (hk : c.resolved name = some kind) (hitem : kind.isItem = true) : c.Offers structs t := by
  obtain ⟨-, rfl⟩ := hs.table_eq ht
  exact ⟨kind, hitem, hk, h.items _ t kind hitem hk ht⟩

/-- The table that is made for a template with an argument. -/
theorem make_furnished {d : StructDecl} {template : Template} {argument : Argument} {raw : String}
    (hs : c.Supplies made) (h : c.Furnished structs configs) (hd : d ∈ structs) (hof : template.Of d)
    (hargument : coerce template.rule.type raw = .ok argument)
    (hok : outcome (instantiate.make template argument (instanceName template.name argument.suffix) true) c =
      (.ok target, c')) : c'.Furnished structs configs ∧ c'.Offers structs target.table := by
  unfold instantiate.make at hok
  obtain ⟨t, ht, hok⟩ := ofExcept_bind_eq_ok.1 hok
  rw [if_pos rfl] at hok
  obtain ⟨⟨⟩, c₁, hclaim, hok⟩ := outcome_bind_eq_ok.1 hok
  obtain ⟨hnew, rfl⟩ := claim_eq_ok.1 hclaim
  obtain ⟨hname, -⟩ := structTable_eq_ok ht
  cases hok
  have hexpansion := hof.expansion hargument
  rw [← hname] at hexpansion hnew ht ⊢
  have hinstance : t.IsItemOf structs .instantiation := .instantiation hd ⟨_, hexpansion, structTable_hasBody ht⟩
  exact ⟨(h.claim hs hnew .instantiation nofun).record Catalog.resolved_claim fun _ => hinstance,
    .instantiation, rfl, Catalog.resolved_claim, hinstance⟩

/-- The table of a template, with an argument or without one. -/
theorem instantiate_furnished {raw : Option String} (hs : c.Supplies made) (h : c.Furnished structs configs)
    (hk : c.resolved name = some .template) (hok : outcome (instantiate name raw) c = (.ok target, c')) :
    c'.Furnished structs configs ∧ c'.Offers structs target.table := by
  unfold instantiate at hok
  rw [get_bind_eq_ok] at hok
  cases hfound : c.template name with
  | none =>
    rw [hfound] at hok
    cases hok
  | some template =>
    rw [hfound] at hok
    obtain ⟨d, hd, rfl, -, hof⟩ := h.only name template hfound
    cases raw with
    | some raw =>
      obtain ⟨argument, hargument, hok⟩ := ofExcept_bind_eq_ok.1 hok
      dsimp only at hok
      split at hok
      · rename_i hresolved
        split at hok
        · rename_i htable
          cases hok
          exact ⟨h, h.offers hs htable hresolved rfl⟩
        · exact make_furnished hs h hd hof hargument hok
      · cases hok
      · exact make_furnished hs h hd hof hargument hok
    | none =>
      dsimp only at hok
      split at hok
      · rename_i hresolved htable
        cases hok
        exact ⟨h, h.offers hs htable hresolved rfl⟩
      · unfold instantiate.make at hok
        obtain ⟨t, ht, hok⟩ := ofExcept_bind_eq_ok.1 hok
        obtain ⟨hname, -⟩ := structTable_eq_ok ht
        cases hok
        obtain ⟨text, hargument, hrule⟩ := hof.rule
        rw [hof.name] at hname ⊢
        have hbody := structTable_hasBody ht
        rw [Template.instantiate, hof.body] at hbody
        have hdefault : t.IsItemOf structs .template := .template hd hargument hrule hname hbody
        refine ⟨h.record hk fun _ => hdefault, .template, rfl, ?_, hdefault⟩
        rw [hname]
        exact hk

theorem reference_furnished {ref : TypeRef} (hs : c.Supplies made) (h : c.Furnished structs configs)
    (hok : outcome (reference ref) c = (.ok target, c')) :
    c'.Furnished structs configs ∧ c'.Offers structs target.table := by
  unfold reference at hok
  rw [get_bind_eq_ok] at hok
  split at hok
  case h_1 hk _ | h_2 hk _ =>
    split at hok
    · rename_i ht
      cases hok
      exact ⟨h, h.offers hs ht hk rfl⟩
    · cases hok
  case h_3 | h_4 | h_6 => cases hok
  case h_5 hk => exact instantiate_furnished hs h hk hok

/-! ## Lists -/

theorem eq_name_of_ofName? {b : Builtin} (h : Builtin.ofName? name = some b) : name = b.name :=
  (eq_of_beq (List.find?_some (p := fun b : Builtin => b.name == name) h)).symm

/-- What a list finds: a table for items, which is that of a built-in type where items may be scalars, or the table of a
config that is named like the built-in type of the list. -/
inductive Catalog.Draws (c : Catalog) (structs : List StructDecl) (item : TypeRef) (t : Table) : Bool → Prop where
  | items : c.Offers structs t → (∀ b : Builtin, item ≠ ⟨b.name, none⟩) → Draws c structs item t false
  | values {b : Builtin} : item = ⟨b.name, none⟩ → t = .wrapper b.name → c.resolved b.name = some .builtin →
      Draws c structs item t true
  | config {b : Builtin} : item = ⟨b.name, none⟩ → t.name = b.name → c.resolved b.name = some .config →
      Draws c structs item t true

theorem Catalog.Draws.grows {item : TypeRef} {scalarItems : Bool} (h : c.Draws structs item t scalarItems)
    (hgrows : c.Grows c') : c'.Draws structs item t scalarItems := by
  cases h with
  | items hoffers hitem => exact .items (hoffers.grows hgrows) hitem
  | values hitem ht hk => exact .values hitem ht (hgrows _ _ hk)
  | config hitem ht hk => exact .config hitem ht (hgrows _ _ hk)

theorem listItem_furnished {item : TypeRef} {scalarItems : Bool} (hs : c.Supplies made)
    (h : c.Furnished structs configs) (hok : outcome (listItem item) c = (.ok (target, scalarItems), c')) :
    c'.Furnished structs configs ∧ c'.Draws structs item target.table scalarItems := by
  unfold listItem at hok
  rw [get_bind_eq_ok] at hok
  split at hok
  case h_1 b hb hargument =>
    have hitem : item = ⟨b.name, none⟩ := by
      rw [← eq_name_of_ofName? hb, ← hargument]
    split at hok
    · rename_i t ht
      cases hok
      obtain ⟨hmem, hname⟩ := hs.table_eq ht
      obtain ⟨kind, hk⟩ := hs.claimed t hmem
      rw [hname] at hk
      -- only a built-in type or a config has such a name
      rcases hs.words b kind hk with rfl | rfl
      · cases h.items _ t .builtin rfl hk ht with
        | builtin hwrapper =>
          rw [hwrapper] at hname
          exact ⟨h, .values hitem (hwrapper.trans (congrArg Table.wrapper hname)) hk⟩
      · exact ⟨h, .config hitem hname hk⟩
    · obtain ⟨⟨⟩, c₁, hclaim, hok⟩ := outcome_bind_eq_ok.1 hok
      obtain ⟨hnew, rfl⟩ := claim_eq_ok.1 hclaim
      cases hok
      exact ⟨(h.claim hs hnew .builtin nofun).record Catalog.resolved_claim fun _ => .builtin rfl,
        .values hitem rfl Catalog.resolved_claim⟩
  case h_2 hnone =>
    split at hok
    · obtain ⟨t, c₁, hreference, hok⟩ := outcome_bind_eq_ok.1 hok
      cases hok
      obtain ⟨hfurnished, hoffers⟩ := reference_furnished hs h hreference
      refine ⟨hfurnished, .items hoffers ?_⟩
      rintro b rfl
      exact hnone b (Builtin.ofName?_name b) rfl
    · cases hok

/-! ## Fields -/

/-- The slot of a field is for a list exactly if the type of the field is one, and then it has the table that the list
finds. -/
def Slot.Draws (c : Catalog) (structs : List StructDecl) (field : FieldDef) (slot : Slot) : Prop :=
  match slot.storage with
  | .list _ item scalarItems => ∃ ref, field.classify = .ok (.list ref) ∧ c.Draws structs ref item scalarItems
  | _ => ∀ ref, field.classify ≠ .ok (.list ref)

theorem Slot.Draws.grows {field : FieldDef} {slot : Slot} (h : slot.Draws c structs field) (hgrows : c.Grows c') :
    slot.Draws c' structs field := by
  unfold Slot.Draws at *
  split
  · rename_i hs
    rw [hs] at h
    obtain ⟨ref, hclass, hdraws⟩ := h
    exact ⟨ref, hclass, hdraws.grows hgrows⟩
  · rename_i hs
    split at h
    · rename_i hlist
      exact absurd hlist (hs _ _ _)
    · exact h

/-- Of two lists in step, every member of one has its partner in the other. -/
theorem exists_of_forall₂ {α β : Type} {R : α → β → Prop} {as : List α} {bs : List β} (h : List.Forall₂ R as bs) :
    (∀ a ∈ as, ∃ b ∈ bs, R a b) ∧ ∀ b ∈ bs, ∃ a ∈ as, R a b := by
  induction h with
  | nil => simp
  | cons hab _ ih =>
    constructor
    · refine List.forall_mem_cons.2 ⟨⟨_, List.mem_cons_self, hab⟩, fun a ha => ?_⟩
      obtain ⟨b, hb, hr⟩ := ih.1 a ha
      exact ⟨b, List.mem_cons_of_mem _ hb, hr⟩
    · refine List.forall_mem_cons.2 ⟨⟨_, List.mem_cons_self, hab⟩, fun b hb => ?_⟩
      obtain ⟨a, ha, hr⟩ := ih.2 b hb
      exact ⟨a, List.mem_cons_of_mem _ ha, hr⟩

variable {draft draft' : ConfigDraft} {config : String}

theorem addField_furnished {field : FieldDef} (hs : c.Supplies made) (h : c.Furnished structs configs)
    (hok : outcome (draft.addField field) c = (.ok draft', c')) :
    c'.Furnished structs configs ∧ c.Grows c' ∧
      ∃ slot, draft'.slots = draft.slots ++ [slot] ∧ slot.Draws c' structs field := by
  unfold ConfigDraft.addField at hok
  dsimp only at hok
  rw [get_bind_eq_ok] at hok
  obtain ⟨type, htype, hok⟩ := ofExcept_bind_eq_ok.1 hok
  cases type with
  | list item =>
    obtain ⟨⟨target, scalarItems⟩, c₁, htarget, hok⟩ := outcome_bind_eq_ok.1 hok
    have htarget := inField_eq_ok.1 htarget
    obtain ⟨hfurnished, hdraws⟩ := listItem_furnished hs h htarget
    have hsupplied := listItem_supplies hs htarget
    dsimp only at hok
    split at hok
    · cases hok
    · obtain ⟨⟨⟩, c₂, hclaim, hok⟩ := outcome_bind_eq_ok.1 hok
      obtain ⟨hnew, rfl⟩ := claim_eq_ok.1 hclaim
      cases hok
      have hgrows := Catalog.grows_claim .junction hnew
      exact ⟨hfurnished.claim hsupplied.supplies hnew .junction nofun, hsupplied.grows.trans hgrows, _, rfl, item,
        htype, hdraws.grows hgrows⟩
  | named ref =>
    have hno : ∀ item, field.classify ≠ .ok (.list item) := by simp [htype]
    dsimp only at hok
    split at hok
    · obtain ⟨target, c₁, htarget, hok⟩ := outcome_bind_eq_ok.1 hok
      have htarget := inField_eq_ok.1 htarget
      cases hok
      exact ⟨(reference_furnished hs h htarget).1, (reference_supplies hs htarget).grows, _, rfl, hno⟩
    · cases hok
      exact ⟨h, .refl _, _, rfl, hno⟩
  | sql =>
    have hno : ∀ item, field.classify ≠ .ok (.list item) := by simp [htype]
    dsimp only at hok
    split at hok
    · cases hok
    · split at hok
      · cases hok
      · cases hok
        exact ⟨h, .refl _, _, rfl, hno⟩

theorem addFields_furnished {known : Catalog} {fields : List FieldDef} {done : List String}
    (hd : Drafted known c made config done draft) (hnodup : (done ++ fields.map (·.name)).Nodup)
    (h : c.Furnished structs configs) (hok : outcome (draft.addFields fields) c = (.ok draft', c')) :
    c'.Furnished structs configs ∧ c.Grows c' ∧ ∃ slots, draft'.slots = draft.slots ++ slots ∧
      List.Forall₂ (Slot.Draws c' structs) fields slots := by
  induction fields generalizing c done draft with
  | nil =>
    cases hok
    exact ⟨h, .refl _, [], (List.append_nil _).symm, .nil⟩
  | cons field fields ih =>
    obtain ⟨next, c₁, hfield, hok⟩ := outcome_bind_eq_ok.1 hok
    obtain ⟨hfurnished, hgrows, slot, hslot, hdraws⟩ := addField_furnished hd.supplies h hfield
    have hnotMem := notMem_of_nodup hnodup
    rw [List.map_cons, List.append_cons] at hnodup
    obtain ⟨hlast, hlater, slots, hslots, hall⟩ := ih (hd.addField hnotMem hfield) hnodup hfurnished hok
    refine ⟨hlast, hgrows.trans hlater, slot :: slots, ?_, .cons (hdraws.grows hlater) hall⟩
    rw [hslots, hslot, List.append_assoc]
    rfl

/-! ## Configs -/

/-- Recording tables under names that are not for items. -/
theorem recordTables_furnished {ts : List Table} (h : c.Furnished structs configs)
    (hts : ∀ t ∈ ts, ∃ kind, c.resolved t.name = some kind ∧ kind.isItem = false)
    (hok : outcome (recordTables ts) c = (.ok (), c')) : c'.Furnished structs configs := by
  induction ts generalizing c with
  | nil =>
    cases hok
    exact h
  | cons t ts ih =>
    obtain ⟨⟨kind, hk, hitem⟩, hts⟩ := List.forall_mem_cons.1 hts
    obtain ⟨⟨⟩, c₁, hrecord, hok⟩ := outcome_bind_eq_ok.1 hok
    cases hrecord
    exact ih (h.record hk fun htrue => nomatch hitem.symm.trans htrue) hts hok

/-- The fields of configs have slots, and these have what the fields find. -/
structure Drawn (c : Catalog) (structs : List StructDecl) (decls : List ConfigDecl) (slots : List Slot) : Prop where
  fields : ∀ decl ∈ decls, ∀ body, parseBody decl.name decl.body = .ok body → ∀ field ∈ body.fields,
    ∃ slot ∈ slots, slot.Draws c structs field
  slots : ∀ slot ∈ slots, ∃ decl ∈ decls, ∃ body, parseBody decl.name decl.body = .ok body ∧
    ∃ field ∈ body.fields, slot.Draws c structs field

theorem Drawn.grows {decls : List ConfigDecl} {slots : List Slot} (h : Drawn c structs decls slots)
    (hgrows : c.Grows c') : Drawn c' structs decls slots where
  fields decl hdecl body hbody field hfield := by
    obtain ⟨slot, hslot, hdraws⟩ := h.fields decl hdecl body hbody field hfield
    exact ⟨slot, hslot, hdraws.grows hgrows⟩
  slots slot hslot := by
    obtain ⟨decl, hdecl, body, hbody, field, hfield, hdraws⟩ := h.slots slot hslot
    exact ⟨decl, hdecl, body, hbody, field, hfield, hdraws.grows hgrows⟩

theorem Drawn.append {decls others : List ConfigDecl} {slots rest : List Slot} (h : Drawn c structs decls slots)
    (h' : Drawn c structs others rest) : Drawn c structs (decls ++ others) (slots ++ rest) where
  fields decl hdecl body hbody field hfield := by
    rcases List.mem_append.1 hdecl with hdecl | hdecl
    · obtain ⟨slot, hslot, hdraws⟩ := h.fields decl hdecl body hbody field hfield
      exact ⟨slot, List.mem_append_left _ hslot, hdraws⟩
    · obtain ⟨slot, hslot, hdraws⟩ := h'.fields decl hdecl body hbody field hfield
      exact ⟨slot, List.mem_append_right _ hslot, hdraws⟩
  slots slot hslot := by
    rcases List.mem_append.1 hslot with hslot | hslot
    · obtain ⟨decl, hdecl, hrest⟩ := h.slots slot hslot
      exact ⟨decl, List.mem_append_left _ hdecl, hrest⟩
    · obtain ⟨decl, hdecl, hrest⟩ := h'.slots slot hslot
      exact ⟨decl, List.mem_append_right _ hdecl, hrest⟩

theorem furnished_compileConfig {s : CompiledSchema} {decl : ConfigDecl} {unit : SchemaUnit} {slots : List Slot}
    (ho : Outlined c s) (h : c.Furnished structs configs) (hname : decl.name ∈ configs)
    (hok : outcome (compileConfig decl) c = (.ok (unit, slots), c')) :
    c'.Furnished structs configs ∧ c.Grows c' ∧ Drawn c' structs [decl] slots := by
  obtain ⟨body, d, last, hbody, hnew, hfields, hd, hrecord, -, rfl⟩ := drafted_compileConfig ho hok
  obtain ⟨hfurnished, hgrows, slots, hslots, hdraws⟩ := addFields_furnished (drafted_bare ho hnew body.constraints)
    (parseBody_fields hbody).nodup (h.claim ho.supplies hnew .config fun _ => hname) hfields
  obtain rfl : d.slots = slots := hslots
  obtain ⟨hleft, hright⟩ := exists_of_forall₂ hdraws
  have hlast := (recordTables_supplies hd.supplies hd.awaits hd.distinct hrecord).1
  refine ⟨recordTables_furnished hfurnished (fun t ht => ?_) hrecord,
    ((Catalog.grows_claim .config hnew).trans hgrows).trans hlast, Drawn.grows ⟨?_, ?_⟩ hlast⟩
  · -- the config and its junctions have names that were claimed for them
    rcases List.mem_cons.1 ht with rfl | ht
    · rw [hd.name]
      exact ⟨.config, hd.grows _ _ Catalog.resolved_claim, rfl⟩
    · rw [hd.junctions, List.mem_filterMap] at ht
      obtain ⟨slot, hslot, hj⟩ := ht
      exact ⟨.junction, (hd.slots slot hslot).2.junction hj, rfl⟩
  · intro other hother body' hbody' field hfield
    obtain rfl := List.mem_singleton.1 hother
    cases hbody.symm.trans hbody'
    exact hleft field hfield
  · intro slot hslot
    exact ⟨decl, List.mem_singleton_self _, body, hbody, hright slot hslot⟩

theorem furnished_compileConfigs {s : CompiledSchema} {decls : List ConfigDecl} {units : List SchemaUnit}
    {slots : List Slot} (ho : Outlined c s) (h : c.Furnished structs configs)
    (hnames : ∀ decl ∈ decls, decl.name ∈ configs) (hok : outcome (compileConfigs decls) c = (.ok (units, slots), c')) :
    c'.Furnished structs configs ∧ c.Grows c' ∧ Drawn c' structs decls slots := by
  induction decls generalizing c s units slots with
  | nil =>
    cases hok
    exact ⟨h, .refl _, ⟨fun _ hdecl => (nomatch hdecl), fun _ hslot => (nomatch hslot)⟩⟩
  | cons decl decls ih =>
    obtain ⟨⟨unit, own⟩, c₁, hunit, hok⟩ := outcome_bind_eq_ok.1 hok
    obtain ⟨⟨more, others⟩, c₂, hmore, hok⟩ := outcome_bind_eq_ok.1 hok
    cases hok
    obtain ⟨hname, hnames⟩ := List.forall_mem_cons.1 hnames
    obtain ⟨hfurnished, hgrows, hdrawn⟩ := furnished_compileConfig ho h hname hunit
    obtain ⟨hlast, hlater, hrest⟩ := ih (outlined_compileConfig ho hunit) hfurnished hnames hmore
    exact ⟨hlast, hgrows.trans hlater, (hdrawn.grows hlater).append hrest⟩

/-! ## All declarations -/

variable {s : CompiledSchema} {ds : Declarations}

theorem furnished_empty (configs : List String) : Catalog.Furnished {} [] configs where
  toKnows := (holds_empty fun _ _ => False).toKnows
  configs _ hk := nomatch hk
  items _ _ _ _ hk := nomatch hk

theorem drawn_of_compile (hok : compile ds = .ok s) :
    ∃ c, Outlined c s ∧ c.Furnished ds.structs (ds.configs.map (·.name)) ∧ Drawn c ds.structs ds.configs s.slots := by
  obtain ⟨structs, c₁, hstructs, hrest⟩ := outcome_bind_eq_ok.1 (outcome_of_compile hok)
  obtain ⟨⟨configs, slots⟩, c₂, hconfigs, hrest⟩ := outcome_bind_eq_ok.1 hrest
  have houtlined := outlined_of_compile hok
  obtain ⟨hfurnished, -, hdrawn⟩ := furnished_compileConfigs (outlined_compileStructs outlined_empty hstructs)
    (furnished_compileStructs outlined_empty (furnished_empty _) hstructs) (fun _ => List.mem_map_of_mem) hconfigs
  cases hrest
  exact ⟨_, houtlined, hfurnished, hdrawn⟩

/-- A config has a list of a built-in type. -/
def HasListOf (ds : Declarations) (b : Builtin) : Prop :=
  ∃ decl ∈ ds.configs, ∃ body, parseBody decl.name decl.body = .ok body ∧
    ∃ field ∈ body.fields, field.classify = .ok (.list ⟨b.name, none⟩)

/-- The items of a list are apart from the configs: their table is that of a struct, of an instantiation or of a
built-in type, and items may be scalars only where the table has one column for their value. -/
structure ItemsApart (ds : Declarations) (s : CompiledSchema) (item : Table) (scalarItems : Bool) : Prop where
  isItem : ∃ kind, item.IsItemOf ds.structs kind
  config : item.name ∉ s.configs
  value : scalarItems = true → item.columnNames = [valueColumn]

/-- The items of a list are rows of the table of a config, which is named like the type of the list. -/
def ItemsInConfig (ds : Declarations) (s : CompiledSchema) (item : Table) : Prop :=
  ∃ b, HasListOf ds b ∧ ∃ decl ∈ ds.configs, decl.name = b.name ∧ ∃ body, parseBody decl.name decl.body = .ok body ∧
    item.name = decl.name ∧ item.Follows body (s.slotsOf decl.name)

/-- A list finds the table that its type says, or that of a config. -/
theorem Catalog.Draws.items_apart {c : Catalog} (ho : Outlined c s)
    (hf : c.Furnished ds.structs (ds.configs.map (·.name))) (hformed : s.Formed ds.configs) {decl : ConfigDecl}
    (hdecl : decl ∈ ds.configs) {body : Body} (hbody : parseBody decl.name decl.body = .ok body) {field : FieldDef}
    (hfield : field ∈ body.fields) {ref : TypeRef} (hclass : field.classify = .ok (.list ref)) {item : Table}
    (hitem : item ∈ s.tables) {scalarItems : Bool} (h : c.Draws ds.structs ref item scalarItems) :
    ItemsApart ds s item scalarItems ∨ scalarItems = true ∧ ItemsInConfig ds s item := by
  have hapart {kind : Resolved} (hk : c.resolved item.name = some kind) (hkind : kind ≠ .config) :
      item.name ∉ s.configs := fun hmem => hkind (Option.some.inj (hk.symm.trans (ho.configs _ hmem)))
  cases h with
  | items hoffers _ =>
    obtain ⟨kind, hisItem, hk, hkind⟩ := hoffers
    exact .inl ⟨⟨kind, hkind⟩, hapart hk (by rintro rfl; cases hisItem), nofun⟩
  | values _ hwrapper hk =>
    subst hwrapper
    exact .inl ⟨⟨.builtin, .builtin rfl⟩, hapart hk nofun, fun _ => rfl⟩
  | @config b href hname hk =>
    subst href
    obtain ⟨other, hother, hotherName⟩ := List.mem_map.1 (hf.configs _ hk)
    obtain ⟨otherBody, hotherBody, t, ht, htname, hfollows⟩ := hformed.tables other hother
    rw [ho.table_eq_of_name ht hitem (htname.trans (hotherName.trans hname.symm))] at hfollows htname
    exact .inr ⟨rfl, b, ⟨decl, hdecl, body, hbody, field, hfield, hclass⟩, other, hother, hotherName, otherBody,
      hotherBody, htname, hfollows⟩

/-- **Lists write apart from configs exactly if no list is of a built-in type that a config is named like.** Such a
list, and no other, writes into the table of that config. -/
theorem items_apart_iff (hok : compile ds = .ok s) :
    ((∀ slot ∈ s.slots, ∀ table item scalarItems, slot.storage = .list table item scalarItems →
        ItemsApart ds s item scalarItems) ↔ ∀ b, HasListOf ds b → b.name ∉ s.configs) ∧
      ∀ slot ∈ s.slots, ∀ table item scalarItems, slot.storage = .list table item scalarItems →
        ItemsApart ds s item scalarItems ∨ scalarItems = true ∧ ItemsInConfig ds s item := by
  obtain ⟨c, houtlined, hfurnished, hdrawn⟩ := drawn_of_compile hok
  have hformed := formed_of_compile hok
  have hall : ∀ slot ∈ s.slots, ∀ table item scalarItems, slot.storage = .list table item scalarItems →
      ItemsApart ds s item scalarItems ∨ scalarItems = true ∧ ItemsInConfig ds s item := by
    intro slot hslot table item scalarItems hstorage
    obtain ⟨decl, hdecl, body, hbody, field, hfield, hdraws⟩ := hdrawn.slots slot hslot
    unfold Slot.Draws at hdraws
    rw [hstorage] at hdraws
    obtain ⟨ref, hclass, hdraws⟩ := hdraws
    have htarget : slot.target? = some item := by rw [Slot.target?, hstorage]
    exact hdraws.items_apart houtlined hfurnished hformed hdecl hbody hfield hclass (houtlined.target_mem hslot htarget)
  refine ⟨⟨fun hapart b ⟨decl, hdecl, body, hbody, field, hfield, hclass⟩ hconfig => ?_, fun hnone => ?_⟩, hall⟩
  · -- the list finds the name of a config, so it is not one of the other kinds
    obtain ⟨slot, hslot, hdraws⟩ := hdrawn.fields decl hdecl body hbody field hfield
    unfold Slot.Draws at hdraws
    split at hdraws
    · rename_i table item scalarItems hstorage
      obtain ⟨ref, href, hdraws⟩ := hdraws
      cases hclass.symm.trans href
      cases hdraws with
      | items _ hother => exact hother b rfl
      | @values b' hitem _ hk =>
        rw [← (TypeRef.mk.inj hitem).1] at hk
        exact nomatch hk.symm.trans (houtlined.configs _ hconfig)
      | @config b' hitem hname =>
        rw [← (TypeRef.mk.inj hitem).1] at hname
        exact (hapart slot hslot table item true hstorage).config (hname ▸ hconfig)
    · exact hdraws _ hclass
  · intro slot hslot table item scalarItems hstorage
    refine (hall slot hslot table item scalarItems hstorage).resolve_right ?_
    rintro ⟨-, b, hlist, decl, hdecl, hname, -⟩
    refine hnone b hlist ?_
    rw [hformed.configs, ← hname]
    exact List.mem_map_of_mem hdecl

/-- Lists of a struct, of a template with and without an argument, and of a built-in type. -/
def shelves : Declarations where
  structs := [⟨"Book", "title TEXT", none⟩, ⟨"Label", "text TEXT DEFAULT word", some "word:TEXT=new"⟩]
  configs := [⟨"Shelf", "books LIST(Book), labels LIST(Label(old)), more LIST(Label), notes LIST(TEXT)"⟩,
    ⟨"Desk", "notes LIST(TEXT)"⟩]

theorem items_apart_shelves : ∃ s, compile shelves = .ok s ∧ ∀ slot ∈ s.slots, ∀ table item scalarItems,
    slot.storage = .list table item scalarItems → ItemsApart shelves s item scalarItems := by
  have hrun : (compile shelves).map (·.configs) = .ok ["Shelf", "Desk"] := by decide +kernel
  rcases hok : compile shelves with e | s
  · rw [hok] at hrun
    cases hrun
  · rw [hok] at hrun
    have hconfigs : s.configs = ["Shelf", "Desk"] := Except.ok.inj hrun
    refine ⟨s, rfl, (items_apart_iff hok).1.2 fun b _ => ?_⟩
    rw [hconfigs]
    cases b <;> decide

/-! ### A config that is named like a built-in type -/

/-- A config with the name of a built-in type, and a list of that type. -/
def textConfig : Declarations where
  configs := [⟨"TEXT", "a INTEGER"⟩, ⟨"C", "p LIST(TEXT)"⟩]

/-- The list writes its items, and takes scalars for them, in the table of the config, which has no column for a
value. -/
theorem list_in_config_table : ∃ s, compile textConfig = .ok s ∧ ∃ slot ∈ s.slots, ∃ item,
    slot.storage = .list "C" item true ∧ item.name ∈ s.configs ∧ item.columnNames = ["a"] ∧
      ¬ItemsApart textConfig s item true := by
  have hconfigs : (compile textConfig).map (·.configs) = .ok ["TEXT", "C"] := by decide +kernel
  have hslots : (compile textConfig).map (·.slots) = .ok [⟨"TEXT", "a", .scalar "TEXT" "a"⟩,
      ⟨"C", "p", .list "C" { name := "TEXT", columns := [⟨"a", "INTEGER"⟩] } true⟩] := by decide +kernel
  rcases hok : compile textConfig with e | s
  · rw [hok] at hslots
    cases hslots
  · rw [hok] at hconfigs hslots
    have hconfigs : s.configs = ["TEXT", "C"] := Except.ok.inj hconfigs
    have hslots : s.slots = _ := Except.ok.inj hslots
    have hmem : "TEXT" ∈ s.configs := by simp [hconfigs]
    refine ⟨s, rfl, ⟨"C", "p", .list "C" { name := "TEXT", columns := [⟨"a", "INTEGER"⟩] } true⟩, by simp [hslots], _,
      rfl, hmem, rfl, fun hapart => hapart.config hmem⟩

end GuardedConfig.Schema
