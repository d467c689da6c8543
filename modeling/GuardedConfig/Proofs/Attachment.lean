import GuardedConfig.Proofs.Agreement
import GuardedConfig.Proofs.FailedLoad
import GuardedConfig.Proofs.InUse

/-!
# `Proofs.Attachment` — the plans that a trigger is attached to

A trigger is registered for a config and attached to the plans of its fields. These are found by the text of their
paths, which begin with the name of the config and a dot. The name of a field has no dot, but the name of a config can
have any character. So the paths of `A.b` begin like those of `A`, and a trigger for `A` is attached to the fields of
both.

What a registration does is therefore told by the configs that the trigger reaches. A trigger stays with its own config
exactly if no config with fields goes on after the name of that one with a dot.

## Contents

* `Trigger.Overreaches`, `Trigger.Reaches` — names of configs and beginnings of paths
* `Registry.Gains` — one trigger more, for certain configs
* `Attached`, `Attached.gains`, `Attached.of_gains`, `attached_of_load` — the triggers of each plan
* `Registered`, `Registered.attached` — whatever has been registered since the artifact was loaded
* `registration_by_reach`, `registration_overreaches`
-/

namespace GuardedConfig

open Registry Schema

/-! ## Names and paths -/

/-- Where a rest has no mark, a text in front of a mark and this rest decides whether all of it begins with some start
and a mark: it is that start, or it begins like that itself. -/
theorem prefix_append_mark_iff {α : Type} {mark : α} {start l rest : List α} (hrest : mark ∉ rest) :
    start ++ [mark] <+: l ++ mark :: rest ↔ l = start ∨ start ++ [mark] <+: l := by
  constructor
  · rintro ⟨tail, htail⟩
    rw [← List.append_cons] at htail
    rcases List.append_eq_append_iff.1 htail with ⟨more, rfl, hmore⟩ | ⟨more, rfl, hmore⟩
    · cases more with
      | nil => exact .inl (List.append_nil _)
      | cons first more =>
        obtain ⟨rfl, rfl⟩ := List.cons.inj hmore
        exact .inr ⟨more, List.append_assoc ..⟩
    · cases more with
      | nil => exact .inl (List.append_nil _).symm
      | cons first more =>
        -- the mark after the start would be in the rest
        obtain ⟨-, rfl⟩ := List.cons.inj hmore
        exact absurd (List.mem_append_right _ (List.mem_cons_self ..)) hrest
  · rintro (rfl | hl)
    · exact ⟨rest, (List.append_cons ..).symm⟩
    · exact hl.trans (List.prefix_append ..)

namespace Trigger

/-- The name of a config goes on after the condition of a trigger with a dot. -/
def Overreaches (t : Trigger) (config : String) : Prop := t.condition.toList ++ ['.'] <+: config.toList

/-- A trigger is attached to the fields of a config. -/
def Reaches (t : Trigger) (config : String) : Prop := config = t.condition ∨ t.Overreaches config

instance (t : Trigger) : DecidablePred t.Overreaches :=
  fun config => inferInstanceAs (Decidable (t.condition.toList ++ ['.'] <+: config.toList))

instance (t : Trigger) : DecidablePred t.Reaches :=
  fun config => inferInstanceAs (Decidable (config = t.condition ∨ t.Overreaches config))

variable {t : Trigger}

/-- A name does not go on after itself. -/
theorem not_overreaches_condition (t : Trigger) : ¬ t.Overreaches t.condition := by
  intro h
  have hlength := h.length_le
  rw [List.length_append, List.length_singleton] at hlength
  omega

/-- Among the configs that a trigger reaches, its own is the one that it does not overreach. -/
theorem reaches_iff_eq {config : String} : (t.Reaches config ↔ config = t.condition) ↔ ¬ t.Overreaches config := by
  constructor
  · intro h hover
    have hown := h.1 (.inr hover)
    exact not_overreaches_condition t (hown ▸ hover)
  · exact fun hnot => ⟨fun h => h.resolve_right hnot, .inl⟩

/-- The paths that begin with a config and a dot are those of the configs that its triggers reach. -/
theorem isPrefixOf_path {slot : Slot} (hdot : '.' ∉ slot.field.toList) :
    (t.condition ++ ".").toList.isPrefixOf slot.path.toList = true ↔ t.Reaches slot.config := by
  have hpath : slot.path.toList = slot.config.toList ++ '.' :: slot.field.toList := by simp [Slot.path]
  have hcondition : (t.condition ++ ".").toList = t.condition.toList ++ ['.'] := by simp
  rw [List.isPrefixOf_iff_prefix, hpath, hcondition, prefix_append_mark_iff hdot, String.toList_inj]
  exact Iff.rfl

end Trigger

namespace Registry

/-! ## One trigger more -/

/-- A trigger has been registered: it comes after the others, the plans of certain configs have it after theirs, and
nothing else has changed. -/
structure Gains (r : Registry) (t : Trigger) (configs : String → Prop) (r' : Registry) : Prop where
  rest : r' = { r with plans := r'.plans, triggers := r.triggers ++ [t] }
  attached : ∀ path p, lookup path r.plans = some p → configs p.slot.config → lookup path r'.plans = some (p.attach t)
  others : ∀ path p, lookup path r.plans = some p → ¬ configs p.slot.config → lookup path r'.plans = some p
  absent : ∀ path, lookup path r.plans = none → lookup path r'.plans = none

variable {r r' : Registry} {t : Trigger} {configs configs' : String → Prop}

theorem Gains.congr (h : r.Gains t configs r')
    (hconfigs : ∀ path p, lookup path r.plans = some p → (configs p.slot.config ↔ configs' p.slot.config)) :
    r.Gains t configs' r' where
  rest := h.rest
  attached path p hp hown := h.attached path p hp ((hconfigs path p hp).2 hown)
  others path p hp hother := h.others path p hp fun hown => hother ((hconfigs path p hp).1 hown)
  absent := h.absent

/-- It can be told of every plan whether it has been attached to, since it has one trigger more then. -/
theorem Gains.iff_of_lookup (h : r.Gains t configs r') (h' : r.Gains t configs' r') {path : String} {p : Plan}
    (hp : lookup path r.plans = some p) : configs p.slot.config ↔ configs' p.slot.config := by
  have hmore : p.attach t ≠ p := by
    intro heq
    have hlength := congrArg (fun q : Plan => q.triggers.length) heq
    change (p.triggers ++ [t]).length = p.triggers.length at hlength
    rw [List.length_append, List.length_singleton] at hlength
    omega
  constructor
  · intro hown
    by_contra hother
    exact hmore (Option.some.inj ((h.attached path p hp hown).symm.trans (h'.others path p hp hother)))
  · intro hown
    by_contra hother
    exact hmore (Option.some.inj ((h'.attached path p hp hown).symm.trans (h.others path p hp hother)))

/-- Every plan is one from before, with the trigger if its config is one of those. -/
theorem Gains.exists_of_lookup (h : r.Gains t configs r') {path : String} {q : Plan}
    (hq : lookup path r'.plans = some q) :
    ∃ p, lookup path r.plans = some p ∧
      (configs p.slot.config ∧ q = p.attach t ∨ ¬ configs p.slot.config ∧ q = p) := by
  cases hp : lookup path r.plans with
  | none =>
    rw [h.absent path hp] at hq
    cases hq
  | some p =>
    by_cases hown : configs p.slot.config
    · exact ⟨p, rfl, .inl ⟨hown, Option.some.inj (hq.symm.trans (h.attached path p hp hown))⟩⟩
    · exact ⟨p, rfl, .inr ⟨hown, Option.some.inj (hq.symm.trans (h.others path p hp hown))⟩⟩

/-- Each plan is changed once if no path is listed twice. -/
theorem lookup_modifyPlans (f : Plan → Plan) {paths : List String} (hnodup : paths.Nodup) (r : Registry)
    (other : String) :
    lookup other (paths.foldl (fun r path => r.modifyPlan path f) r).plans =
      if other ∈ paths then (lookup other r.plans).map f else lookup other r.plans := by
  induction paths generalizing r with
  | nil => rw [if_neg List.not_mem_nil, List.foldl_nil]
  | cons path paths ih =>
    obtain ⟨hpath, hnodup⟩ := List.nodup_cons.1 hnodup
    rw [List.foldl_cons, ih hnodup, lookup_modifyPlan]
    by_cases ho : other = path
    · subst ho
      rw [if_neg hpath, if_pos rfl, if_pos (List.mem_cons_self ..)]
    · rw [if_neg ho]
      exact if_congr (by rw [List.mem_cons, or_iff_right ho]) rfl rfl

/-! ## The triggers of each plan -/

/-- A registry of a schema where some triggers have been registered: the triggers of each plan are those that reach its
config, in the order in which they have been registered. -/
structure Attached (s : CompiledSchema) (ts : List Trigger) (r : Registry) : Prop where
  configs : r.configs = s.configs
  paths : r.paths = s.slots.map (·.path)
  routed : Routed s.slots r.plans
  triggers : ∀ path p, lookup path r.plans = some p → p.triggers = ts.filter (·.Reaches p.slot.config)

variable {c : Catalog} {s : CompiledSchema} {ts : List Trigger}

/-- Neither the store nor the values that are bound matter for what is attached. -/
theorem Attached.steady : Steady (Attached s ts) where
  store _ _ h := ⟨h.configs, h.paths, h.routed, h.triggers⟩
  warnings _ _ h := ⟨h.configs, h.paths, h.routed, h.triggers⟩
  bind r path p value hp h := by
    have hplans : (r.modifyPlan path fun _ => (p.bind value).2).plans = assign path (p.bind value).2 r.plans := by
      unfold modifyPlan
      rw [hp]
    refine ⟨(configs_modifyPlan ..).trans h.configs, (paths_modifyPlan ..).trans h.paths, ?_, fun other q hq => ?_⟩
    · rw [hplans]
      exact Routed.kept s.slots r.plans path p value hp h.routed
    · obtain ⟨q', hq', rfl | ⟨rfl, rfl⟩⟩ := lookup_modifyPlan_eq_some hq
      · exact h.triggers other q hq'
      · have htriggers : (p.bind value).2.triggers = p.triggers := by
          unfold Plan.bind
          cases Plan.writeSteps p.path p.slot.storage value <;> rfl
        rw [htriggers, Plan.slot_bind]
        exact h.triggers other p hp

/-- Of the slots, as many are counted as the trigger reaches. -/
theorem Attached.length_pathsOf (hs : Outlined c s) (h : Attached s ts r) (t : Trigger) :
    (r.pathsOf t.condition).length = s.slots.countP fun slot => t.Reaches slot.config := by
  unfold pathsOf
  rw [h.paths, ← List.countP_eq_length_filter, List.countP_map]
  refine List.countP_congr fun slot hslot => ?_
  rw [decide_eq_true_iff]
  exact Trigger.isPrefixOf_path (hs.notMem_field hslot)

/-- A plan is under a path that is selected exactly if the trigger reaches its config. -/
theorem Attached.mem_pathsOf (hs : Outlined c s) (h : Attached s ts r) (t : Trigger) {path : String} {p : Plan}
    (hp : lookup path r.plans = some p) : path ∈ r.pathsOf t.condition ↔ t.Reaches p.slot.config := by
  obtain ⟨hslot, rfl⟩ := h.routed.slot path p hp
  have hpath : p.slot.path ∈ r.paths := by
    rw [h.paths]
    exact List.mem_map_of_mem hslot
  unfold pathsOf
  rw [List.mem_filter, and_iff_right hpath]
  exact Trigger.isPrefixOf_path (hs.notMem_field hslot)

/-- A trigger that is registered gets to the plans that it reaches. -/
theorem Attached.gains (hs : Outlined c s) (h : Attached s ts r) {t : Trigger} (ht : t.condition ∈ s.configs) :
    ∃ r', outcome (register t) r = (.ok (s.slots.countP fun slot => t.Reaches slot.config), r') ∧
      r.Gains t t.Reaches r' := by
  have hnodup : (r.pathsOf t.condition).Nodup := by
    unfold pathsOf
    rw [h.paths]
    exact hs.nodup_paths.filter _
  have hlookup := lookup_modifyPlans (·.attach t) hnodup r
  obtain ⟨plans, hplans⟩ := modifyPlans_eq (·.attach t) (r.pathsOf t.condition) r
  rw [hplans] at hlookup
  refine ⟨{ r with plans, triggers := r.triggers ++ [t] }, ?_, rfl, ?attached, ?others, ?absent⟩
  · rw [register_known (h.configs ▸ ht), hplans, h.length_pathsOf hs]
  case attached =>
    intro path p hp hreach
    exact (hlookup path).trans (by rw [if_pos ((h.mem_pathsOf hs t hp).2 hreach), hp, Option.map_some])
  case others =>
    intro path p hp hother
    exact (hlookup path).trans (by rw [if_neg (mt (h.mem_pathsOf hs t hp).1 hother), hp])
  case absent =>
    intro path hnone
    exact (hlookup path).trans (by rw [hnone, Option.map_none, ite_self])

/-- One more trigger is the last one of the plans that it reaches. -/
theorem Attached.of_gains (h : Attached s ts r) (hgains : r.Gains t t.Reaches r') : Attached s (ts ++ [t]) r' where
  configs := by
    rw [hgains.rest]
    exact h.configs
  paths := by
    rw [hgains.rest]
    exact h.paths
  routed := by
    refine ⟨fun path q hq => ?_, fun slot hslot => ?_⟩
    · obtain ⟨p, hp, ⟨-, rfl⟩ | ⟨-, rfl⟩⟩ := hgains.exists_of_lookup hq
      · exact h.routed.slot path p hp
      · exact h.routed.slot path q hp
    · obtain ⟨p, hp⟩ := Option.isSome_iff_exists.1 (h.routed.served slot hslot)
      by_cases hreach : t.Reaches p.slot.config
      · rw [hgains.attached slot.path p hp hreach]
        rfl
      · rw [hgains.others slot.path p hp hreach]
        rfl
  triggers path q hq := by
    obtain ⟨p, hp, ⟨hreach, rfl⟩ | ⟨hother, rfl⟩⟩ := hgains.exists_of_lookup hq
    · have hlast : [t].filter (·.Reaches p.slot.config) = [t] := by simp [hreach]
      change p.triggers ++ [t] = (ts ++ [t]).filter (·.Reaches p.slot.config)
      rw [List.filter_append, h.triggers path p hp, hlast]
    · have hlast : [t].filter (·.Reaches q.slot.config) = [] := by simp [hother]
      rw [List.filter_append, hlast, List.append_nil]
      exact h.triggers path q hp

/-! ## Loading -/

theorem attached_ofSchema (store : Store) (s : CompiledSchema) : Attached s [] (ofSchema store s) where
  configs := rfl
  paths := rfl
  routed := (loaded_ofSchema store s []).routed
  triggers path p hp := List.eq_nil_iff_forall_not_mem.2 fun t ht => by
    have hnone := ((loaded_ofSchema store s []).plans path p hp).triggers t ht
    cases hnone

theorem Attached.forM_register (hs : Outlined c s) {more : List Trigger} (hmore : ∀ t ∈ more, t.condition ∈ s.configs)
    (h : Attached s ts r) :
    ∃ r', outcome (more.forM fun t => do let _ ← register t : Task Registry Unit) r = (.ok (), r') ∧
      Attached s (ts ++ more) r' := by
  induction more generalizing ts r with
  | nil => exact ⟨r, rfl, by rwa [List.append_nil]⟩
  | cons t more ih =>
    obtain ⟨ht, hmore⟩ := List.forall_mem_cons.1 hmore
    obtain ⟨next, hregister, hgains⟩ := h.gains hs ht
    obtain ⟨last, hrest, hlast⟩ := ih hmore (h.of_gains hgains)
    have hfirst : outcome (do let _ ← register t : Task Registry Unit) r = (.ok (), next) :=
      outcome_bind_ok hregister
    exact ⟨last, (outcome_bind_ok hfirst).trans hrest, by rwa [List.append_cons]⟩

/-- Loading registers the triggers of an artifact in their order. -/
theorem attached_of_load {a : Artifact} {store after : Store} (h : load a store = (.ok r, after)) :
    ∃ s ts, prepare a.declarations = .ok (s, ts) ∧ Attached s ts r := by
  unfold load at h
  cases hprepare : prepare a.declarations with
  | error e =>
    rw [hprepare] at h
    cases h
  | ok prepared =>
    obtain ⟨s, ts⟩ := prepared
    rw [hprepare] at h
    dsimp only at h
    split at h
    · cases h
    · rename_i installed _
      have hs := outlined_of_compile (prepare_eq_ok hprepare).1
      have hstart := attached_ofSchema installed s
      obtain ⟨r', hall, hattached⟩ := Attached.forM_register hs (prepare_fits hprepare)
        (r := { ofSchema installed s with slices := a.declarations.slices, metadata := a.metadata })
        ⟨hstart.configs, hstart.paths, hstart.routed, hstart.triggers⟩
      rw [show ((ts.forM fun t => do let _ ← register t : Task Registry Unit)).run.run _ = _ from hall] at h
      cases h
      exact ⟨s, ts, rfl, hattached⟩

/-! ## Registrations -/

/-- A registry that has been loaded from an artifact and used since then: requests have been made, triggers have been
run, the store has been changed in any way, and triggers have been registered or refused. The triggers that have been
registered are listed, those of the artifact first. -/
inductive Registered (a : Artifact) : List Trigger → Registry → Prop where
  | load {store after : Store} {ts : List Trigger} {r : Registry} : Registry.load a store = (.ok r, after) →
      a.declarations.triggers.mapM Trigger.compile = .ok ts → Registered a ts r
  | register {ts : List Trigger} {r r' : Registry} {t : Trigger} {n : Nat} : Registered a ts r →
      outcome (register t) r = (.ok n, r') → Registered a (ts ++ [t]) r'
  | refuse {ts : List Trigger} {r r' : Registry} {t : Trigger} {e : Error} : Registered a ts r →
      outcome (Registry.register t) r = (.error e, r') → Registered a ts r'
  | request {ts : List Trigger} {r : Registry} (request : Request) : Registered a ts r →
      Registered a ts (outcome request.run r).2
  | evaluate {ts : List Trigger} {r : Registry} (t : Trigger) : Registered a ts r →
      Registered a ts (outcome (evaluate t) r).2
  | store {ts : List Trigger} {r : Registry} (store : Store) : Registered a ts r → Registered a ts { r with store }

variable {a : Artifact}

/-- The triggers of each plan are those that have been registered and reach its config. -/
theorem Registered.attached (hok : Schema.compile a.declarations = .ok s) (h : Registered a ts r) :
    Attached s ts r := by
  have hs := outlined_of_compile hok
  induction h with
  | load hload hcompiled =>
    obtain ⟨s', ts', hprepare, hattached⟩ := attached_of_load hload
    obtain ⟨hok', hcompiled'⟩ := prepare_eq_ok hprepare
    obtain rfl : s' = s := Except.ok.inj (hok'.symm.trans hok)
    obtain rfl : ts' = _ := Except.ok.inj (hcompiled'.symm.trans hcompiled)
    exact hattached
  | @register ts r r' t n _ hrun ih =>
    by_cases ht : t.condition ∈ r.configs
    · obtain ⟨r'', hregister, hgains⟩ := ih.gains hs (ih.configs ▸ ht)
      obtain ⟨-, rfl⟩ := Prod.mk.inj (hregister.symm.trans hrun)
      exact ih.of_gains hgains
    · cases (register_unknown ht).symm.trans hrun
  | @refuse ts r r' t e _ hrun ih =>
    by_cases ht : t.condition ∈ r.configs
    · cases (register_known ht).symm.trans hrun
    · obtain ⟨-, rfl⟩ := Prod.mk.inj ((register_unknown ht).symm.trans hrun)
      exact ih
  | request request _ ih => exact (Attached.steady.request request).after ih
  | evaluate t _ ih => exact (Attached.steady.evaluate t).after ih
  | store store _ ih => exact Attached.steady.store _ store ih

theorem Registered.exists_compile (h : Registered a ts r) : ∃ s, Schema.compile a.declarations = .ok s := by
  induction h with
  | load hload _ =>
    obtain ⟨s, ts, hprepare, -⟩ := attached_of_load hload
    exact ⟨s, (prepare_eq_ok hprepare).1⟩
  | register _ _ ih | refuse _ _ ih | request _ _ ih | evaluate _ _ ih | store _ _ ih => exact ih

/-- Triggers that are registered together are registered one after another, up to the first that fails. -/
theorem Registered.registerAll (h : Registered a ts r) (ds : List TriggerDecl) :
    ∃ more, Registered a (ts ++ more) (outcome (registerAll ds) r).2 ∧
      ((outcome (registerAll ds) r).1 = .ok () → ds.mapM Trigger.compile = .ok more) := by
  induction ds generalizing ts r with
  | nil => exact ⟨[], by rwa [List.append_nil], fun _ => rfl⟩
  | cons d ds ih =>
    have hcons : Registry.registerAll (d :: ds) =
        (Task.ofExcept (Trigger.compile d) >>= fun t => Registry.register t >>= fun _ => pure ()) >>=
          fun _ => Registry.registerAll ds := rfl
    rw [hcons, outcome_bind, outcome_bind, outcome_ofExcept, List.mapM_cons]
    cases hcompile : Trigger.compile d with
    | error e => exact ⟨[], by rwa [List.append_nil], fun hok => nomatch hok⟩
    | ok t =>
      dsimp only
      rw [outcome_bind]
      rcases hregister : outcome (Registry.register t) r with ⟨e | n, r'⟩
      · exact ⟨[], by rw [List.append_nil]; exact h.refuse hregister, fun hok => nomatch hok⟩
      · obtain ⟨more, hmore, hall⟩ := ih (h.register hregister)
        refine ⟨t :: more, by rwa [List.append_cons], fun hok => ?_⟩
        rw [except_ok_bind, hall hok]
        rfl

/-- Each slot has its plan. -/
theorem Attached.exists_plan (hs : Outlined c s) (h : Attached s ts r) {slot : Slot} (hslot : slot ∈ s.slots) :
    ∃ p, lookup slot.path r.plans = some p ∧ p.slot = slot := by
  obtain ⟨p, hp⟩ := Option.isSome_iff_exists.1 (h.routed.served slot hslot)
  obtain ⟨hmem, hpath⟩ := h.routed.slot _ p hp
  exact ⟨p, hp, List.inj_on_of_nodup_map hs.nodup_paths hmem hslot hpath⟩

/-- A trigger stays with its own config exactly if it overreaches no config with fields. -/
theorem Attached.gains_own_iff (hs : Outlined c s) (h : Attached s ts r) (hgains : r.Gains t t.Reaches r') :
    r.Gains t (· = t.condition) r' ↔ ∀ slot ∈ s.slots, ¬ t.Overreaches slot.config := by
  constructor
  · intro hown slot hslot
    obtain ⟨p, hp, rfl⟩ := h.exists_plan hs hslot
    exact Trigger.reaches_iff_eq.1 (hgains.iff_of_lookup hown hp)
  · intro hnot
    exact hgains.congr fun path p hp => Trigger.reaches_iff_eq.2 (hnot p.slot (h.routed.slot path p hp).1)

/-- The triggers that reach a config are those for it exactly if none of them overreaches it. -/
theorem filter_reaches_eq_iff (ts : List Trigger) (config : String) :
    ts.filter (·.Reaches config) = ts.filter (·.condition = config) ↔ ∀ t ∈ ts, ¬ t.Overreaches config := by
  constructor
  · intro heq t ht hover
    have hreaches : t ∈ ts.filter (·.Reaches config) := List.mem_filter.2 ⟨ht, decide_eq_true (.inr hover)⟩
    rw [heq] at hreaches
    obtain rfl : t.condition = config := of_decide_eq_true (List.mem_filter.1 hreaches).2
    exact t.not_overreaches_condition hover
  · intro hnot
    refine List.filter_congr fun t ht => decide_eq_decide.2 ?_
    exact (Trigger.reaches_iff_eq.2 (hnot t ht)).trans eq_comm

/-- **What a registration attaches to.** Whatever has been done since an artifact was loaded, a trigger for something
that is not a config is refused, and nothing changes. A trigger for a config is attached once to each plan of the
configs that it reaches, and the number of these plans is given. These are the plans of its own config, and their
number that of its fields, exactly if no config with fields goes on after the name of this one with a dot. So the
triggers of each plan are those that have been registered and reach its config, in their order, and they are those for
its config exactly if none of them overreaches it. -/
theorem registration_by_reach {a : Artifact} {ts : List Trigger} {r : Registry} (h : Registered a ts r) :
    ∃ s, Schema.compile a.declarations = .ok s ∧
      (∀ t : Trigger, t.condition ∉ a.declarations.configs.map (·.name) →
        outcome (register t) r = (.error (.compile (.unknownCondition t.name t.condition)), r)) ∧
      (∀ t : Trigger, ∀ decl ∈ a.declarations.configs, decl.name = t.condition →
        ∃ body n r', Field.parseBody decl.name decl.body = .ok body ∧ outcome (register t) r = (.ok n, r') ∧
          n = s.slots.countP (t.Reaches ·.config) ∧ r.Gains t t.Reaches r' ∧
          (n = body.fields.length ∧ r.Gains t (· = t.condition) r' ↔
            ∀ slot ∈ s.slots, ¬ t.Overreaches slot.config)) ∧
      ∀ slot ∈ s.slots, ∃ p, lookup slot.path r.plans = some p ∧ p.slot = slot ∧
        p.triggers = ts.filter (·.Reaches slot.config) ∧
        (p.triggers = ts.filter (·.condition = slot.config) ↔ ∀ t ∈ ts, ¬ t.Overreaches slot.config) := by
  obtain ⟨s, hok⟩ := h.exists_compile
  have hs := outlined_of_compile hok
  have hformed := formed_of_compile hok
  have hattached := h.attached hok
  have hconfigs : r.configs = a.declarations.configs.map (·.name) := hattached.configs.trans hformed.configs
  refine ⟨s, hok, ?unknown, ?known, ?plans⟩
  case unknown =>
    intro t ht
    exact register_unknown (hconfigs ▸ ht)
  case known =>
    intro t decl hdecl hname
    obtain ⟨body, hbody, hlength⟩ := hformed.length_slotsOf hdecl
    have ht : t.condition ∈ s.configs := by
      rw [hformed.configs, ← hname]
      exact List.mem_map_of_mem hdecl
    obtain ⟨r', hregister, hgains⟩ := hattached.gains hs ht
    refine ⟨body, _, r', hbody, hregister, rfl, hgains, ?_⟩
    rw [hattached.gains_own_iff hs hgains]
    refine and_iff_right_of_imp fun hnot => ?_
    -- the slots that are reached are those of the config, one for each field
    rw [← hlength, CompiledSchema.slotsOf, ← List.countP_eq_length_filter, hname]
    refine List.countP_congr fun slot hslot => ?_
    rw [decide_eq_true_iff, decide_eq_true_iff]
    exact Trigger.reaches_iff_eq.2 (hnot slot hslot)
  case plans =>
    intro slot hslot
    obtain ⟨p, hp, rfl⟩ := hattached.exists_plan hs hslot
    have htriggers := hattached.triggers _ p hp
    refine ⟨p, hp, rfl, htriggers, ?_⟩
    rw [htriggers]
    exact filter_reaches_eq_iff ts p.slot.config

/-- Two configs, where the name of the second one goes on after that of the first, but not with a dot. -/
def portal : Artifact where
  fingerprint := ""
  declarations := {
    configs := [⟨"Port", "low INTEGER, high INTEGER"⟩, ⟨"Portal", "url TEXT"⟩]
    triggers := [⟨"closed", "Portal", "return false;"⟩] }

/-- A trigger for the first config is attached to its two fields. Every plan has the triggers for its config. -/
theorem registration_by_reach_portal : ∃ r after s ts, load portal (.ofContent {}) = (.ok r, after) ∧
    prepare portal.declarations = .ok (s, ts) ∧
    outcome (register ⟨"none", "Portable", []⟩) r = (.error (.compile (.unknownCondition "none" "Portable")), r) ∧
    (∃ r', outcome (register ⟨"open", "Port", []⟩) r = (.ok 2, r') ∧ r.Gains ⟨"open", "Port", []⟩ (· = "Port") r') ∧
    ∀ slot ∈ s.slots, ∃ p, lookup slot.path r.plans = some p ∧ p.triggers = ts.filter (·.condition = slot.config) := by
  obtain ⟨r, after, hload, -⟩ : ∃ r after, load portal (.ofContent {}) = (.ok r, after) ∧ r.paths.length = 3 :=
    exists_of_load (by decide +kernel)
  obtain ⟨s, ts, hprepare, -⟩ := attached_of_load hload
  obtain ⟨hok, hts⟩ := prepare_eq_ok hprepare
  have hregistered : Registered portal ts r := .load hload hts
  obtain ⟨s', hok', hunknown, hknown, hplans⟩ := registration_by_reach hregistered
  obtain rfl : s' = s := Except.ok.inj (hok'.symm.trans hok)
  -- no trigger overreaches a config here
  have hapart : (prepare portal.declarations).toOption.all (fun prepared =>
      decide (∀ slot ∈ prepared.1.slots, ∀ t ∈ (⟨"open", "Port", []⟩ : Trigger) :: prepared.2,
        ¬ t.Overreaches slot.config)) = true := by decide +kernel
  rw [hprepare] at hapart
  have hapart := of_decide_eq_true hapart
  refine ⟨r, after, s', ts, hload, hprepare, hunknown _ (by decide), ?_, fun slot hslot => ?_⟩
  · obtain ⟨body, n, r', hbody, hregister, -, -, hown⟩ :=
      hknown ⟨"open", "Port", []⟩ ⟨"Port", "low INTEGER, high INTEGER"⟩ (List.mem_cons_self ..) rfl
    obtain ⟨rfl, hgains⟩ := hown.2 fun slot hslot => hapart slot hslot _ (List.mem_cons_self ..)
    have hfields : (Field.parseBody "Port" "low INTEGER, high INTEGER").toOption.map (·.fields.length) = some 2 := by
      decide +kernel
    rw [hbody] at hfields
    have hlength : body.fields.length = 2 := Option.some.inj hfields
    exact ⟨r', hlength ▸ hregister, hgains⟩
  · obtain ⟨p, hp, -, -, hown⟩ := hplans slot hslot
    exact ⟨p, hp, hown.2 fun t ht => hapart slot hslot t (List.mem_cons_of_mem _ ht)⟩

/-! ### A name with a dot -/

/-- Two configs, where the name of the second one goes on after that of the first with a dot. -/
def dotted : Artifact where
  fingerprint := ""
  declarations := { configs := [⟨"A", "x INTEGER"⟩, ⟨"A.b", "y INTEGER"⟩] }

/-- A trigger for the first config, which has one field, is attached to two plans. The other one is the plan of a field
of the second config, which cannot be set any more, though no trigger has been registered for that config. -/
theorem registration_overreaches : ∃ r after, load dotted (.ofContent {}) = (.ok r, after) ∧
    let registered := outcome (register ⟨"t", "A", [.done (some (.literal (.bool false)))]⟩) r
    let attachedTo path := (lookup path registered.2.plans).map fun p => (p.slot.config, p.triggers.map (·.condition))
    registered.1.toOption = some 2 ∧
      attachedTo "A.x" = some ("A", ["A"]) ∧
      attachedTo "A.b.y" = some ("A.b", ["A"]) ∧
      (outcome (Request.set "A.b.y" (.int 5)).run r).1.isOk = true ∧
      (outcome (Request.set "A.b.y" (.int 5)).run registered.2).1.mapError Error.message =
        .error "Trigger 't' failed: returned false" :=
  exists_of_load (by decide +kernel)

end Registry

end GuardedConfig
