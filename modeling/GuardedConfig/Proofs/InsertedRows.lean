import GuardedConfig.Proofs.KeptTables

/-!
# `Proofs.InsertedRows` — the row that an insertion adds

An insertion may skip its row, if a constraint of the table says so. Whether it has is known by the number of changed
rows: if it is not zero, then the row is in the table and has the identifier that the session gives as the last one.

## Contents

* `Session.HasAdded` — the row of an insertion
* `Ends`, `addRow_ends` — a row is added or skipped
* `prepare_insert_one`, `Session.hasAdded_of_perform`
-/

namespace GuardedConfig.Sql

/-- The last insertion was into a table, and has added the row with the last identifier. -/
def Session.HasAdded (table : String) (s : Session) : Prop :=
  ∃ (t : Stored) (row : Row), s.content.find? table = some (t.insert row) ∧ row.id = s.lastRowId

/-- A progress with some tables where no row has been counted. -/
structure Progress.Stands (infos : List TableInfo) (p : Progress) : Prop where
  infos : p.content.infos = infos
  count : p.count = 0

/-- If a row is counted, then it has been added to one of some tables. -/
def Progress.Counts (infos : List TableInfo) (table : String) (p : Progress) : Prop :=
  p.count ≠ 0 → ∃ (c : Content) (row : Row), c.infos = infos ∧ p.content = c.update table (·.insert row) ∧
    row.id = p.lastRowId

variable {infos : List TableInfo}

theorem rowwise_stands : Rowwise (Progress.Stands infos) :=
  fun p name _ hf hp => ⟨(Content.infos_update p.content name hf).trans hp.infos, hp.count⟩

/-! ## Adding one row -/

/-- A step from states with one property ends in states with another one, if it succeeds. -/
def Ends {ε σ α : Type} (I Q : σ → Prop) (x : ExceptT ε (StateM σ) α) : Prop :=
  ∀ s, I s → EndIn Q (fun _ => True) (outcome x s)

namespace Ends

variable {ε σ α β : Type} {I Q : σ → Prop}

theorem pure (h : ∀ s, I s → Q s) (a : α) : Ends I Q (pure a : ExceptT ε (StateM σ) α) := h

/-- What is kept by a step is there when the next one begins. -/
theorem bind {x : ExceptT ε (StateM σ) α} {f : α → ExceptT ε (StateM σ) β} (hx : Keeps I I x)
    (hf : ∀ a, Ends I Q (f a)) : Ends I Q (x >>= f) := by
  intro s hs
  have h := hx s hs
  rw [outcome_bind]
  revert h
  rcases outcome x s with ⟨e | a, t⟩
  · exact fun _ => ⟨⟩
  · exact hf a t

end Ends

/-- A row is skipped, or it is added with the identifier that is noted. -/
theorem addRow_ends (infos : List TableInfo) (override : Option Conflict) (alone : Bool) (table : String)
    (key : Value) (values : List Value) :
    Ends (Progress.Stands infos) (Progress.Counts infos table)
      (addRow override alone table key values) := by
  have hskip : ∀ p, Progress.Stands infos p → p.Counts infos table :=
    fun p hp hcount => absurd hp.count hcount
  have hnote : ∀ name id, Keeps (Progress.Stands infos) (Progress.Stands infos)
      (modifyContent (·.note name id)) :=
    fun name id => .modify fun p hp => ⟨(Content.infos_note p.content name id).trans hp.infos, hp.count⟩
  unfold addRow
  refine .bind .get fun p => ?_
  extract_lets content
  split
  · extract_lets t add
    have hadd : ∀ id, Ends (Progress.Stands infos) (Progress.Counts infos table) (add id) := by
      intro id
      unfold add
      extract_lets insert
      have hinsert : Ends (Progress.Stands infos) (Progress.Counts infos table) (insert ()) := by
        refine .bind (fillNulls_keeps _ _ _ _ _ _) fun filled => ?_
        split
        · refine .bind (passesChecks_keeps _ _ _ _) fun passed => ?_
          split
          · exact .pure hskip _
          · refine .bind ((rowsAlone rowwise_stands actionDepth).clear _ _ _ _ _) fun cleared => ?_
            split
            · exact .pure hskip _
            · refine .bind .get fun p => ?_
              extract_lets finish
              have hfinish : ∀ u, Ends (Progress.Stands infos) (Progress.Counts infos table) (finish u) := by
                intro u p hp _
                exact ⟨p.content, _, hp.infos, rfl, rfl⟩
              split
              · exact .bind (halt_keeps _ _) hfinish
              · exact hfinish ()
        · exact .pure hskip _
      split
      · exact .bind (hnote _ _) fun _ => hinsert
      · exact hinsert
    split
    · split
      · exact .bind (.pure _) hadd
      · exact .bind (halt_keeps _ _) hadd
    · exact .bind (changeOfExcept_keeps _) hadd
  · exact .pure hskip _

/-! ## Insertions -/

theorem expectTable_eq_ok {c : Content} {name : String} {stored : Stored} (h : expectTable c name = .ok stored) :
    c.find? name = some stored := by
  unfold expectTable at h
  split at h
  · rename_i found hfound
    cases h
    exact hfound
  · cases h

theorem length_of_mapM_singleton {α β ε : Type} {f : α → Except ε β} {a : α} {r : List β} (h : [a].mapM f = .ok r) :
    ∃ b, r = [b] := by
  obtain ⟨b, rest, -, hrest, rfl⟩ := List.forall₂_cons_left_iff.1 (mapM_eq_ok_iff.1 h)
  cases hrest
  exact ⟨b, rfl⟩

/-- An insertion of one row is prepared as adding that row. -/
theorem prepare_insert_one {i : Insert} (hrows : i.rows = none ∨ ∃ row, i.rows = some [row]) {c : Content}
    {params : List Value} {op : Change Unit} (h : i.prepare c params = .ok op) :
    ∃ stored alone key values, c.find? i.table = some stored ∧
      op = [(key, values)].forM fun row : Value × List Value => addRow i.conflict alone stored.info.name row.1 row.2 := by
  unfold Insert.prepare at h
  obtain ⟨stored, hstored, h⟩ := except_bind_eq_ok.1 h
  extract_lets t env withPlaces at h
  obtain ⟨places, h⟩ : ∃ places, withPlaces places = .ok op := by
    split at h <;> obtain ⟨places, -, h⟩ := except_bind_eq_ok.1 h <;> exact ⟨places, h⟩
  unfold withPlaces at h
  extract_lets replaces withRows at h
  obtain ⟨row, h⟩ : ∃ row, withRows [row] = .ok op := by
    obtain hnone | ⟨cells, hone⟩ := hrows
    · rw [hnone] at h
      obtain ⟨rows, hpure, h⟩ := except_bind_eq_ok.1 h
      cases hpure
      exact ⟨([], []), h⟩
    · rw [hone] at h
      dsimp only at h
      split at h
      · cases h
      · obtain ⟨rows, hone, h⟩ := except_bind_eq_ok.1 h
        obtain ⟨row, rfl⟩ := length_of_mapM_singleton hone
        exact ⟨row, h⟩
  unfold withRows at h
  extract_lets checked at h
  have h : checked () = .ok op := by
    split at h
    · split at h
      · split at h <;> cases h
      · exact h
    · exact h
  obtain ⟨rows, hnew, h⟩ := except_bind_eq_ok.1 h
  obtain ⟨⟨key, values⟩, rfl⟩ := length_of_mapM_singleton hnew
  extract_lets alone at h
  obtain ⟨_, -, h⟩ := except_bind_eq_ok.1 h
  cases h
  exact ⟨stored, alone, key, values, expectTable_eq_ok hstored, rfl⟩

/-- **An insertion that counts a row has added it**: the table has it, with the identifier that is the last one. -/
theorem Session.hasAdded_of_perform {s after : Session} {i : Insert} {params : List Value} {result : Sql.Result}
    (hrows : i.rows = none ∨ ∃ row, i.rows = some [row])
    (hok : s.perform (.insert i) params = (.ok result, after)) (hcount : after.changes ≠ 0) :
    after.HasAdded i.table := by
  obtain ⟨op, q, hop, hq, rfl⟩ := perform_insert_eq_ok hok
  obtain ⟨stored, alone, key, values, hfind, rfl⟩ := prepare_insert_one hrows hop
  obtain ⟨⟨⟩, q', hadd, hpure⟩ := outcome_bind_eq_ok.1 hq
  cases hpure
  have hends := addRow_ends s.content.infos i.conflict alone stored.info.name key values
    { content := s.content, lastRowId := s.lastRowId } ⟨rfl, rfl⟩
  rw [hadd] at hends
  obtain ⟨c, row, hinfos, hcontent, hid⟩ := hends hcount
  -- the table is still there when the row is added, and goes by the same names
  have hname := (Content.mem_infos_of_find? hfind).2
  obtain ⟨t, ht⟩ : ∃ t, c.find? stored.info.name = some t := by
    have hsame := c.find?_infos i.table
    rw [hinfos, Content.find?_infos, hfind] at hsame
    rw [Content.find?_congr _ hname, ← Option.isSome_iff_exists, ← Option.isSome_map, ← hsame]
    rfl
  refine ⟨t, row, ?_, hid⟩
  have hadded : c.update stored.info.name (·.insert row) = c.onRows stored.info.name (Stored.insertRow row) := rfl
  show q.content.find? i.table = _
  rw [hcontent, ← Content.find?_congr _ hname, hadded, Content.find?_onRows, ht, Option.map_some,
    if_pos (List.find?_some ht)]
  rfl

end GuardedConfig.Sql
