import GuardedConfig.Plan.Steps
import GuardedConfig.Proofs.Outcome

/-!
# `Proofs.Steps` — the statements of a write

The steps of a write are insertions, changes and deletions: none of them opens or closes a savepoint or removes a table.

## Contents

* `Statement.isControl`, `Statement.isOnRows`
* `itemMembers`, `memberSteps_eq_ok`
* `writeSteps_onRows`, `writeSteps_plain`
-/

namespace GuardedConfig

open Schema

/-- Whether a statement opens or closes savepoints. -/
def Sql.Statement.isControl : Statement → Bool
  | .savepoint _ | .release _ | .rollbackTo _ => true
  | _ => false

/-- Whether a statement is about rows alone. -/
def Sql.Statement.isOnRows : Statement → Bool
  | .select _ | .insert _ | .update _ | .delete _ => true
  | _ => false

theorem Sql.Statement.isControl_of_isOnRows {statement : Statement} (h : statement.isOnRows = true) :
    statement.isControl = false := by
  cases statement <;> first | rfl | cases h

namespace Plan

/-- A step that runs no statement on savepoints. -/
def WriteStep.Plain : WriteStep → Prop
  | .execute c => c.statement.isControl = false
  | .captureRowId => True

/-- A step that runs only statements about rows. -/
def WriteStep.OnRows : WriteStep → Prop
  | .execute c => c.statement.isOnRows = true
  | .captureRowId => True

theorem WriteStep.OnRows.plain {step : WriteStep} (h : step.OnRows) : step.Plain := by
  cases step with
  | execute c => exact Sql.Statement.isControl_of_isOnRows h
  | captureRowId => trivial

theorem insertRow_onRows {t : Table} {members : List (String × Json)} {c : Command}
    (h : insertRow t members = .ok c) : (WriteStep.execute c).OnRows := by
  unfold insertRow at h
  split at h
  · cases h; rfl
  · obtain ⟨params, _, h⟩ := except_bind_eq_ok.1 h
    cases h; rfl

/-- The map of members of an element of a list; a scalar is the only value of a wrapper. -/
def itemMembers : Json → List (String × Json)
  | .obj members => members
  | scalar => [(valueColumn, scalar)]

/-- The steps of an element of a list are an insertion, whose row is captured and linked. -/
theorem memberSteps_eq_ok {path table : String} {item : Table} {scalarItems : Bool} {value member : Json}
    {steps : List WriteStep} (h : memberSteps path table item scalarItems value member = .ok steps) :
    ∃ insert, insertRow item (itemMembers member) = .ok insert ∧
      steps = [.execute insert, .captureRowId, .execute (linkRow table item)] := by
  unfold memberSteps at h
  cases member with
  | obj members =>
    obtain ⟨insert, hi, h⟩ := except_bind_eq_ok.1 h
    cases h
    exact ⟨insert, hi, rfl⟩
  | arr _ => cases h
  | _ =>
    dsimp only at h
    split at h
    · obtain ⟨insert, hi, h⟩ := except_bind_eq_ok.1 h
      cases h
      exact ⟨insert, hi, rfl⟩
    · cases h

/-- Every step of a write is about rows. -/
theorem writeSteps_onRows {path : String} {storage : Storage} {value : Json} {steps : List WriteStep}
    (h : writeSteps path storage value = .ok steps) : ∀ step ∈ steps, step.OnRows := by
  cases storage with
  | scalar table column =>
    simp only [writeSteps] at h
    split at h
    · obtain ⟨v, _, h⟩ := except_bind_eq_ok.1 h
      cases h
      simp [WriteStep.OnRows, updateColumn, Sql.Statement.isOnRows]
    · cases h
  | reference table column target =>
    cases value with
    | obj members =>
      obtain ⟨insert, hi, h⟩ := except_bind_eq_ok.1 h
      cases h
      have := insertRow_onRows hi
      simp_all [WriteStep.OnRows, updateColumn, releaseRow, Sql.Statement.isOnRows]
    | _ => cases h
  | list table item scalarItems =>
    cases value with
    | arr members =>
      obtain ⟨steps, hs, h⟩ := except_bind_eq_ok.1 h
      cases h
      intro step hstep
      simp only [List.mem_cons, List.mem_flatten] at hstep
      obtain rfl | rfl | ⟨l, hl, hstep⟩ := hstep
      · rfl
      · rfl
      · obtain ⟨member, _, hm⟩ := exists_of_mapM_eq_ok hs hl
        obtain ⟨insert, hi, rfl⟩ := memberSteps_eq_ok hm
        have := insertRow_onRows hi
        simp only [List.mem_cons, List.not_mem_nil, or_false] at hstep
        obtain rfl | rfl | rfl := hstep
        · exact this
        · trivial
        · rfl
    | _ => cases h

/-- No step of a write opens or closes a savepoint. -/
theorem writeSteps_plain {path : String} {storage : Storage} {value : Json} {steps : List WriteStep}
    (h : writeSteps path storage value = .ok steps) : ∀ step ∈ steps, step.Plain :=
  fun step hstep => (writeSteps_onRows h step hstep).plain

end Plan

end GuardedConfig
