import GuardedConfig.Proofs.Members
import GuardedConfig.Proofs.QuestionMarks

/-!
# `Proofs.Captures` — where the steps of a write capture a row

The steps that write a value are some commands that use no captured row, followed by one block for each row that the
value inserts: the insertion, the capture, and the commands that use the identifier. So whatever the storage and the
value, a capture directly follows the insertion of its row, and nothing uses an identifier before one is captured.

## Contents

* `Storage.rowTable`, `givenRows`, `firstOf`, `usersOf`, `rowSteps` — the parts of a write
* `writeSteps_eq_ok` — a write is put together from them
* `WellPlaced`, `writeSteps_wellPlaced` — captures and their uses
* `writeSteps_marked` — the parameters of the statements
-/

namespace GuardedConfig

open Schema

/-- The table into which a slot inserts rows, if it does. -/
def Schema.Storage.rowTable : Storage → Option Table
  | .scalar .. => none
  | .reference _ _ target => some target
  | .list _ item _ => some item

namespace Plan

/-! ## The parts of a write -/

/-- The rows that a value inserts, each as a map of members. -/
def givenRows : Storage → Json → List (List (String × Json))
  | .reference .., .obj members => [members]
  | .list .., .arr elements => elements.map itemMembers
  | _, _ => []

/-- The commands before the first row. -/
def firstOf : Storage → Json → List Command
  | .scalar table column, value => [updateColumn table column (.value (storedOf value))]
  | .reference .., _ => []
  | .list table item _, _ => [deleteMembers table item, deleteLinks table item]

/-- The commands after the insertion of a row, which may use its identifier. -/
def usersOf : Storage → List Command
  | .scalar .. => []
  | .reference table column target => [releaseRow table column target, updateColumn table column .capturedRowId]
  | .list table item _ => [linkRow table item]

/-- The steps for one row: it is inserted, captured and used. -/
def rowSteps (users : List Command) (insert : Command) : List WriteStep :=
  .execute insert :: .captureRowId :: users.map .execute

variable {path : String} {storage : Storage} {value : Json} {steps : List WriteStep}

/-- The insertions of the rows of a value. -/
def Inserts (storage : Storage) (value : Json) (inserts : List Command) : Prop :=
  List.Forall₂ (fun members insert => ∃ t ∈ storage.rowTable, insertRow t members = .ok insert)
    (givenRows storage value) inserts

/-- The steps of the elements of a list are those for a row each. -/
theorem rowSteps_of_mapM {table : String} {item : Table} {scalarItems : Bool} {elements : List Json}
    {groups : List (List WriteStep)} (h : elements.mapM (memberSteps path table item scalarItems value) = .ok groups) :
    ∃ inserts,
      List.Forall₂ (fun element insert => insertRow item (itemMembers element) = .ok insert) elements inserts ∧
        groups = inserts.map (rowSteps [linkRow table item]) := by
  replace h := mapM_eq_ok_iff.1 h
  induction h with
  | nil => exact ⟨[], .nil, rfl⟩
  | cons hgroup _ ih =>
    obtain ⟨insert, hinsert, rfl⟩ := memberSteps_eq_ok hgroup
    obtain ⟨inserts, hinserts, rfl⟩ := ih
    exact ⟨insert :: inserts, .cons hinsert hinserts, rfl⟩

/-- The steps of a write are its first commands, and then the steps for each of its rows. -/
theorem writeSteps_eq_ok (h : writeSteps path storage value = .ok steps) :
    ∃ inserts, Inserts storage value inserts ∧
      steps = (firstOf storage value).map .execute ++ inserts.flatMap (rowSteps (usersOf storage)) := by
  cases storage with
  | scalar table column =>
    simp only [writeSteps] at h
    split at h
    · obtain ⟨v, hv, h⟩ := except_bind_eq_ok.1 h
      cases h
      have hstored : storedOf value = v := by
        unfold storedOf
        rw [hv]
        rfl
      exact ⟨[], .nil, by rw [firstOf, hstored]; rfl⟩
    · cases h
  | reference table column target =>
    cases value with
    | obj members =>
      obtain ⟨insert, hinsert, h⟩ := except_bind_eq_ok.1 h
      cases h
      exact ⟨[insert], .cons ⟨target, rfl, hinsert⟩ .nil, rfl⟩
    | _ => cases h
  | list table item scalarItems =>
    cases value with
    | arr elements =>
      obtain ⟨groups, hgroups, h⟩ := except_bind_eq_ok.1 h
      cases h
      obtain ⟨inserts, hinserts, rfl⟩ := rowSteps_of_mapM hgroups
      refine ⟨inserts, ?_, ?_⟩
      · unfold Inserts givenRows
        rw [List.forall₂_map_left_iff]
        exact hinserts.imp fun _ _ hinsert => ⟨item, rfl, hinsert⟩
      · rw [← List.flatMap_def]
        rfl
    | _ => cases h

/-- A row is inserted into its table, alone and by values. -/
theorem insert_of_insertRow {t : Table} {members : List (String × Json)} {c : Command}
    (h : insertRow t members = .ok c) :
    ∃ (i : Sql.Insert) (values : List Sql.Value), c = { statement := .insert i, params := values.map .value } ∧
      i.table = t.name ∧ (i.rows = none ∨ ∃ row, i.rows = some [row]) := by
  unfold insertRow at h
  split at h
  · cases h
    exact ⟨_, [], rfl, rfl, .inl rfl⟩
  · obtain ⟨values, _, h⟩ := except_bind_eq_ok.1 h
    cases h
    exact ⟨_, values, rfl, rfl, .inr ⟨_, rfl⟩⟩

/-! ## Captures and their uses -/

/-- A command that uses the captured row identifier. -/
def Command.UsesRow (c : Command) : Prop := .capturedRowId ∈ c.params

/-- Steps where each capture directly follows an insertion into a table, and each use of a captured row comes after a
capture. -/
structure WellPlaced (table : Option Table) (steps : List WriteStep) : Prop where
  captures : ∀ front back, steps = front ++ .captureRowId :: back →
    ∃ before i params, front = before ++ [.execute { statement := .insert i, params }] ∧ ∃ t ∈ table, i.table = t.name
  uses : ∀ front c back, steps = front ++ .execute c :: back → c.UsesRow → .captureRowId ∈ front

namespace WellPlaced

variable {table : Option Table} {steps' : List WriteStep}

theorem nil : WellPlaced table [] where
  captures _ _ heq := by simp at heq
  uses _ _ _ heq := by simp at heq

/-- Commands that use no captured row. -/
theorem commands {commands : List Command} (h : ∀ c ∈ commands, ¬ c.UsesRow) :
    WellPlaced table (commands.map .execute) where
  captures front back heq := by
    have hmem : WriteStep.captureRowId ∈ commands.map WriteStep.execute := heq ▸ by simp
    simp at hmem
  uses front c back heq huse := by
    have hmem : WriteStep.execute c ∈ commands.map WriteStep.execute := heq ▸ by simp
    obtain ⟨c', hc', heq⟩ := List.mem_map.1 hmem
    cases heq
    exact absurd huse (h c hc')

/-- An insertion, its capture and the commands that use the row. -/
theorem row {t : Table} (ht : t ∈ table) {i : Sql.Insert} (hi : i.table = t.name) {params : List Param}
    (hparams : .capturedRowId ∉ params) (users : List Command) :
    WellPlaced table (rowSteps users { statement := .insert i, params }) where
  -- the only capture is the second step, and behind it nothing more is to be shown of the uses
  captures front back heq := by
    obtain _ | ⟨first, _ | ⟨second, front⟩⟩ := front
    · cases heq
    · cases heq
      exact ⟨[], i, params, rfl, t, ht, hi⟩
    · injection heq with _ heq
      injection heq with _ heq
      have hmem : WriteStep.captureRowId ∈ users.map WriteStep.execute := heq ▸ by simp
      simp at hmem
  uses front c back heq huse := by
    obtain _ | ⟨first, _ | ⟨second, front⟩⟩ := front
    · cases heq
      exact absurd huse hparams
    · cases heq
    · injection heq with _ heq
      injection heq with hsecond _
      exact hsecond ▸ by simp

theorem append (h : WellPlaced table steps) (h' : WellPlaced table steps') : WellPlaced table (steps ++ steps') where
  captures front back heq := by
    obtain ⟨middle, rfl, htail⟩ | ⟨middle, hsteps, htail⟩ := List.append_eq_append_iff.1 heq
    · obtain ⟨before, i, params, rfl, hi⟩ := h'.captures middle back htail
      exact ⟨steps ++ before, i, params, (List.append_assoc ..).symm, hi⟩
    · -- a capture or a use that is the first step of the second part would have nothing before it there
      cases middle with
      | nil =>
        obtain ⟨before, i, params, hbefore, -⟩ := h'.captures [] back htail.symm
        simp at hbefore
      | cons step middle =>
        injection htail with hstep _
        exact h.captures front middle (hstep ▸ hsteps)
  uses front c back heq huse := by
    obtain ⟨middle, rfl, htail⟩ | ⟨middle, hsteps, htail⟩ := List.append_eq_append_iff.1 heq
    · exact List.mem_append_right _ (h'.uses middle c back htail huse)
    · cases middle with
      | nil => exact absurd (h'.uses [] c back htail.symm huse) List.not_mem_nil
      | cons step middle =>
        injection htail with hstep _
        exact h.uses front c middle (hstep ▸ hsteps) huse

/-- The steps for several rows, one after the other. -/
theorem rows {inserts : List Command} {users : List Command}
    (h : ∀ insert ∈ inserts, WellPlaced table (rowSteps users insert)) :
    WellPlaced table (inserts.flatMap (rowSteps users)) := by
  induction inserts with
  | nil => exact nil
  | cons insert inserts ih =>
    obtain ⟨hinsert, hinserts⟩ := List.forall_mem_cons.1 h
    exact hinsert.append (ih hinserts)

end WellPlaced

theorem firstOf_not_usesRow (storage : Storage) (value : Json) : ∀ c ∈ firstOf storage value, ¬ c.UsesRow := by
  cases storage <;> simp [firstOf, Command.UsesRow, updateColumn, deleteMembers, deleteLinks]

/-- What is inserted comes from a row. -/
theorem Inserts.insertRow_of_mem {inserts : List Command} (h : Inserts storage value inserts) {insert : Command}
    (hmem : insert ∈ inserts) : ∃ t ∈ storage.rowTable, ∃ members, insertRow t members = .ok insert := by
  unfold Inserts at h
  generalize givenRows storage value = rows at h
  induction h with
  | nil => cases hmem
  | @cons members _ _ _ hinsert _ ih =>
    obtain rfl | hmem := List.mem_cons.1 hmem
    · obtain ⟨t, ht, hinsert⟩ := hinsert
      exact ⟨t, ht, members, hinsert⟩
    · exact ih hmem

/-- **Captures are well placed in every write.** -/
theorem writeSteps_wellPlaced (h : writeSteps path storage value = .ok steps) : WellPlaced storage.rowTable steps := by
  obtain ⟨inserts, hinserts, rfl⟩ := writeSteps_eq_ok h
  refine (WellPlaced.commands (firstOf_not_usesRow storage value)).append (.rows fun insert hinsert => ?_)
  obtain ⟨t, ht, members, hrow⟩ := hinserts.insertRow_of_mem hinsert
  obtain ⟨i, values, rfl, hi, -⟩ := insert_of_insertRow hrow
  exact .row ht hi (by simp) _

/-- Every statement of a write has one parameter for each of its question marks. -/
theorem writeSteps_marked (h : writeSteps path storage value = .ok steps) {c : Command} (hc : .execute c ∈ steps) :
    c.IsMarked := by
  obtain ⟨inserts, hinserts, rfl⟩ := writeSteps_eq_ok h
  have hparts : c ∈ firstOf storage value ∨ c ∈ inserts ∨ c ∈ usersOf storage := by
    simp only [rowSteps, List.mem_append, List.mem_map, List.mem_flatMap, List.mem_cons] at hc
    grind
  obtain hfirst | hinsert | huser := hparts
  · cases storage <;> simp only [firstOf, List.mem_cons, List.not_mem_nil, or_false] at hfirst
    · exact hfirst ▸ updateColumn_marked ..
    · obtain rfl | rfl := hfirst
      · exact deleteMembers_marked ..
      · exact deleteLinks_marked ..
  · obtain ⟨t, -, members, hrow⟩ := hinserts.insertRow_of_mem hinsert
    exact insertRow_marked hrow
  · cases storage <;> simp only [usersOf, List.mem_cons, List.not_mem_nil, or_false] at huser
    · obtain rfl | rfl := huser
      · exact releaseRow_marked ..
      · exact updateColumn_marked ..
    · exact huser ▸ linkRow_marked ..

end Plan

end GuardedConfig
