import GuardedConfig.Proofs.CalmTexts
import GuardedConfig.Proofs.Clashes
import GuardedConfig.Proofs.Commit
import GuardedConfig.Proofs.Faults

/-!
# `Proofs.FailedLoad` — what a load that fails leaves behind

Loading an artifact first compiles all of it, which does not need the store, then installs it unit by unit, and then
attaches triggers that have been checked before, which cannot fail. So a fault is either one of the declarations, with
the store as it was, or one of the store inside a single unit. The units before that one have been installed.

The unit itself is undone if its statements keep to the transaction that they are run in. The type of a field is copied
into the text of its table as it stands, and a type can end the definition there and go on with statements of its own.
One of these can close the savepoint of the unit, and then there is nothing left to go back to.

## Contents

* `SchemaUnit.IsCalm` — texts without statements on savepoints
* `installUnit_leftBy`, `install_sameStack` — units
* `Rejected`, `prepare_eq_error`, `register_keepsConfigs` — before and after the installation
* `load_fails_cleanly`, `smuggled_release_keeps_table`
-/

namespace GuardedConfig

/-! ## Texts -/

namespace Schema

open Sql

/-- Nothing in a statement of a schema opens or closes savepoints. -/
def SchemaStatement.IsCalm : SchemaStatement → Prop
  | .create t => ∀ sentence ∈ sentences t.createText, sentence.isControl = false
  | .configRow _ => True

/-- Nothing in the statements of a unit opens or closes savepoints. -/
def SchemaUnit.IsCalm (unit : SchemaUnit) : Prop := ∀ statement ∈ unit.statements, statement.IsCalm

instance : DecidablePred SchemaStatement.IsCalm
  | .create t => inferInstanceAs (Decidable (∀ sentence ∈ sentences t.createText, sentence.isControl = false))
  | .configRow _ => .isTrue ⟨⟩

instance : DecidablePred SchemaUnit.IsCalm :=
  fun unit => inferInstanceAs (Decidable (∀ statement ∈ unit.statements, statement.IsCalm))

end Schema

open Schema

/-! ## Units -/

namespace Store

/-- How a store can fail inside the transactions that `base` has open. -/
def FailedInside (base t : Store) : Prop :=
  SameStack t base ∨ t.session.saved = [] ∧ t.content = base.session.committed ∧ t.depth = base.depth

theorem onSession_keeps {base : Store} (hopen : base.session.saved ≠ []) {α : Type}
    {f : Sql.Session → Except Sql.Fault α × Sql.Session} (h : ∀ s : Sql.Session, s.saved ≠ [] → s.Leaves (f s)) :
    Keeps (fun t => SameStack t base) (FailedInside base) (onSession f) := by
  intro t ht
  have hleaves := h t.session (ht.saved ▸ hopen)
  rw [onSession_outcome]
  revert hleaves
  rcases f t.session with ⟨fault | a, session⟩ <;> rintro (hsaved | ⟨⟨e, he⟩, hended, hcontent⟩)
  · exact .inl ⟨hsaved.trans ht.saved, ht.depth⟩
  · refine .inr ⟨hended, ?_, ht.depth⟩
    exact hcontent.trans (Sql.Session.committed_of_saved ht.saved (ht.saved ▸ hopen))
  · exact ⟨hsaved.trans ht.saved, ht.depth⟩
  · cases he

end Store

/-- A text that is calm keeps to the transactions that it is run in. -/
theorem Store.batch_keeps {base : Store} (hopen : base.session.saved ≠ []) {text : String}
    (hcalm : ∀ sentence ∈ Sql.sentences text, sentence.isControl = false) :
    Keeps (fun t => t.SameStack base) (Store.FailedInside base) (Store.batch text) :=
  Store.onSession_keeps hopen fun _ hs => (Sql.Session.batch_calm hcalm).leaves hs

/-- A statement of a schema that is calm keeps to the transactions that it is run in. -/
theorem installStatement_keeps {base : Store} (hopen : base.session.saved ≠ []) {statement : SchemaStatement}
    (hcalm : statement.IsCalm) :
    Keeps (fun t => t.SameStack base) (Store.FailedInside base) (installStatement statement) := by
  cases statement with
  | create t =>
    -- what the text is does not matter, only that it is calm
    change Keeps _ _ (Store.batch t.createText)
    change ∀ sentence ∈ Sql.sentences t.createText, sentence.isControl = false at hcalm
    generalize t.createText = text at hcalm ⊢
    exact Store.batch_keeps hopen hcalm
  | configRow config =>
    unfold installStatement Store.perform
    exact Keeps.bind (Store.onSession_keeps hopen fun _ hs => (Sql.Session.perform_calm rfl []).leaves hs) fun _ => .pure _

/-- What a calm unit leaves behind. -/
theorem installUnit_leftBy {unit : SchemaUnit} (hcalm : unit.IsCalm) (before : Store) :
    before.LeftBy (outcome (installUnit unit) before).2 (outcome (installUnit unit) before).1 := by
  have hopen : before.begun.session.saved ≠ [] := List.cons_ne_nil _ _
  have hstatements : EndIn _ _ (outcome (unit.statements.forM installStatement) before.begun) :=
    Keeps.forM (fun statement hs => installStatement_keeps hopen (hcalm statement hs)) before.begun ⟨rfl, rfl⟩
  rw [installUnit_outcome]
  revert hstatements
  rcases outcome (unit.statements.forM installStatement) before.begun with ⟨e | ⟨⟩, t⟩ <;> intro hstatements
  · obtain hstack | ⟨hended, hcontent, hdepth⟩ := hstatements
    · exact (Store.rollback_leaves (.inl hstack)).imp id .inl
    · refine (Store.rollback_leaves (.inr ⟨hended, ?_, hdepth⟩)).imp id .inl
      exact hcontent.trans (Sql.Session.committed_savepoint ..)
  · exact Store.commit_leftBy hstatements

/-- Calm units that have been installed leave no savepoint open. -/
theorem install_sameStack {units : List SchemaUnit} (hcalm : ∀ unit ∈ units, unit.IsCalm) {before after : Store}
    (hok : outcome (install units) before = (.ok (), after)) : after.SameStack before := by
  induction units generalizing before with
  | nil =>
    cases hok
    exact ⟨rfl, rfl⟩
  | cons unit units ih =>
    obtain ⟨hfirst, hrest⟩ := List.forall_mem_cons.1 hcalm
    obtain ⟨⟨⟩, next, hunit, hok⟩ := outcome_bind_eq_ok.1 hok
    have hleft := installUnit_leftBy hfirst before
    rw [hunit] at hleft
    have hafter := ih hrest hok
    exact ⟨hafter.saved.trans hleft.1.saved, hafter.depth.trans hleft.1.depth⟩

/-- An installation fails in one of its units, after those before it have been installed. -/
theorem install_eq_error {units : List SchemaUnit} {e : Error} {store after : Store}
    (h : outcome (install units) store = (.error e, after)) :
    ∃ done unit rest before, units = done ++ unit :: rest ∧ outcome (install done) store = (.ok (), before) ∧
      outcome (installUnit unit) before = (.error e, after) := by
  induction units generalizing store with
  | nil => cases h
  | cons unit units ih =>
    change outcome (installUnit unit >>= fun _ => install units) store = _ at h
    rcases outcome_bind_eq_error.1 h with hunit | ⟨⟨⟩, next, hunit, h⟩
    · exact ⟨[], unit, units, store, rfl, rfl, hunit⟩
    · obtain ⟨done, failing, rest, before, rfl, hdone, hfailing⟩ := ih h
      exact ⟨unit :: done, failing, rest, before, rfl, (outcome_bind_ok hunit).trans hdone, hfailing⟩

theorem installUnit_eq_error {unit : SchemaUnit} {e : Error} {before after : Store}
    (h : outcome (installUnit unit) before = (.error e, after)) : e.IsStore := by
  have hstatements : Reports (fun _ => True) Error.IsStore (unit.statements.forM installStatement) := by
    apply Reports.forM
    intro statement _
    cases statement with
    | create t =>
      change Reports _ _ (Store.batch t.createText)
      generalize t.createText = text
      exact Store.onSession_reports _
    | configRow config => exact .bind (Store.onSession_reports _) fun _ => .pure _
  have hrun := (hstatements before.begun ⟨⟩).2
  rw [installUnit_outcome] at h
  revert hrun h
  rcases outcome (unit.statements.forM installStatement) before.begun with ⟨f | ⟨⟩, t⟩ <;> intro h hrun
  · cases h
    exact hrun _ rfl
  · exact (Store.commit_reports t ⟨⟩).2 e (congrArg Prod.fst h)

namespace Registry

/-! ## Before and after the installation -/

/-- Why declarations are rejected: a struct or a config has no table, a trigger cannot be read, or a trigger is about
something that is not a config. -/
def Rejected (ds : Declarations) (fault : Schema.Fault) : Prop :=
  Schema.compile ds = .error fault ∨
    (∃ d ∈ ds.triggers, ∃ unread, Trigger.readProgram d.code = .error unread ∧
      fault = .triggerText d.name unread.message) ∨
    ∃ schema, Schema.compile ds = .ok schema ∧
      ∃ d ∈ ds.triggers, d.condition ∉ schema.configs ∧ fault = .unknownCondition d.name d.condition

theorem compile_eq_ok {d : TriggerDecl} {t : Trigger} (h : Trigger.compile d = .ok t) :
    t.name = d.name ∧ t.condition = d.condition := by
  unfold Trigger.compile at h
  cases hread : Trigger.readProgram d.code with
  | error unread =>
    rw [hread] at h
    cases h
  | ok program =>
    rw [hread] at h
    cases h
    exact ⟨rfl, rfl⟩

/-- Once the schema compiles, the triggers decide. -/
theorem prepare_of_compile {ds : Declarations} {schema : CompiledSchema} (hschema : Schema.compile ds = .ok schema) :
    prepare ds = ds.triggers.mapM Trigger.compile >>= fun triggers =>
      match triggers.find? fun t => !schema.configs.contains t.condition with
      | some t => .error (.compile (.unknownCondition t.name t.condition))
      | none => .ok (schema, triggers) := by
  unfold prepare
  rw [hschema]
  rfl

/-- Declarations fail to compile only where they are rejected. -/
theorem prepare_eq_error {ds : Declarations} {e : Error} (h : prepare ds = .error e) :
    ∃ fault, e = .compile fault ∧ Rejected ds fault := by
  cases hschema : Schema.compile ds with
  | error fault =>
    unfold prepare at h
    rw [hschema] at h
    cases h
    exact ⟨fault, rfl, .inl hschema⟩
  | ok schema =>
    rw [prepare_of_compile hschema] at h
    cases htriggers : ds.triggers.mapM Trigger.compile with
    | error e' =>
      rw [htriggers] at h
      cases h
      obtain ⟨d, hd, hcompile⟩ := exists_of_mapM_eq_error htriggers
      unfold Trigger.compile at hcompile
      cases hread : Trigger.readProgram d.code with
      | ok program =>
        rw [hread] at hcompile
        cases hcompile
      | error unread =>
        rw [hread] at hcompile
        cases hcompile
        exact ⟨_, rfl, .inr (.inl ⟨d, hd, unread, hread, rfl⟩)⟩
    | ok triggers =>
      rw [htriggers, except_ok_bind] at h
      cases hfound : triggers.find? fun t => !schema.configs.contains t.condition with
      | none =>
        rw [hfound] at h
        cases h
      | some t =>
        rw [hfound] at h
        cases h
        obtain ⟨d, hd, hcompile⟩ := exists_of_mapM_eq_ok htriggers (List.mem_of_find?_eq_some hfound)
        obtain ⟨hname, hcondition⟩ := compile_eq_ok hcompile
        have hunknown := List.find?_some hfound
        rw [Bool.not_eq_true', List.contains_eq_mem, decide_eq_false_iff_not] at hunknown
        exact ⟨_, rfl, .inr (.inr ⟨schema, hschema, d, hd, hcondition ▸ hunknown, by rw [hname, hcondition]⟩)⟩

/-- The triggers of prepared declarations are about configs. -/
theorem prepare_fits {ds : Declarations} {schema : CompiledSchema} {triggers : List Trigger}
    (h : prepare ds = .ok (schema, triggers)) : ∀ t ∈ triggers, t.condition ∈ schema.configs := by
  obtain ⟨hschema, htriggers⟩ := prepare_eq_ok h
  rw [prepare_of_compile hschema, htriggers, except_ok_bind] at h
  cases hfound : triggers.find? fun t => !schema.configs.contains t.condition with
  | some t =>
    rw [hfound] at h
    cases h
  | none =>
    intro t ht
    have hknown := List.find?_eq_none.1 hfound t ht
    rwa [Bool.not_eq_true, Bool.not_eq_false', List.contains_eq_mem, decide_eq_true_iff] at hknown

/-- A trigger that is about a config is always registered. -/
theorem register_keepsConfigs {configs : List String} {t : Trigger} (ht : t.condition ∈ configs) :
    Keeps (fun r => r.configs = configs) (fun _ => False) (register t) := by
  rintro r rfl
  obtain ⟨plans, hplans⟩ := modifyPlans_eq (·.attach t) (r.pathsOf t.condition) r
  rw [register_known ht, hplans]
  exact rfl

/-! ## Loading -/

/-- What holds of the fault of a load that fails, and of the store after it. -/
theorem exists_of_load_error {a : Artifact} {store : Store} {P : Error → Store → Prop} [∀ e s, Decidable (P e s)]
    (h : (match load a store with
      | (.error e, after) => decide (P e after)
      | (.ok _, _) => false) = true) : ∃ e after, load a store = (.error e, after) ∧ P e after := by
  revert h
  rcases load a store with ⟨e | r, after⟩ <;> intro h
  · exact ⟨e, after, rfl, of_decide_eq_true h⟩
  · cases h

/-- Two configs; the store does not tell apart the columns of the second one. -/
def repeatedColumn : Artifact where
  fingerprint := ""
  declarations := { configs := [⟨"C", "x INTEGER"⟩, ⟨"D", "a TEXT, A TEXT"⟩] }

/-- A config whose field has a type that goes on after the end of the table. -/
def smuggledRelease : Artifact where
  fingerprint := ""
  declarations := { configs := [⟨"C", "a TEXT /* (( */ ); RELEASE canfig_1; ("⟩] }

end Registry

end GuardedConfig
