import GuardedConfig.Sql.Table
import Mathlib.Tactic.ByContra

/-!
# `Proofs.Content` — tables by their names, and rows by their identifiers

A content whose tables have different names is determined by its definitions and by the rows under each name.
Rows stand in the order of their identifiers, so a row with a new highest identifier goes to the end, and a row
that is taken out and put back goes to its old place.

## Contents

* `sameName_iff` — equality of names is equality in lower case
* `Content.infos`, `Content.rowsOf`, `Content.onRows`
* `find?_of_mem`, `rowsOf_onRows`
* `sequence_note` — what a table has used
* `Ordered`, `insertRow_of_lt`, `insertRow_replace`
-/

namespace GuardedConfig.Sql

open Text

/-! ## Names -/

theorem sameName_iff {a b : String} : sameName a b = true ↔ lowerAscii a = lowerAscii b := by
  unfold sameName equalsIgnoringAsciiCase
  constructor
  · intro h
    rcases Bool.or_eq_true_iff.1 h with h | h
    · rw [eq_of_beq h]
    · exact eq_of_beq h
  · intro h
    rw [h]
    simp

@[simp] theorem sameName_self (a : String) : sameName a a = true := sameName_iff.2 rfl

theorem sameName_comm (a b : String) : sameName a b = sameName b a := by
  rw [Bool.eq_iff_iff, sameName_iff, sameName_iff]
  exact eq_comm

theorem sameName_congr_left {a b : String} (h : sameName a b = true) (c : String) : sameName a c = sameName b c := by
  rw [Bool.eq_iff_iff, sameName_iff, sameName_iff, sameName_iff.1 h]

theorem sameName_congr_right {a b : String} (h : sameName a b = true) (c : String) :
    sameName c a = sameName c b := by
  rw [sameName_comm c a, sameName_comm c b, sameName_congr_left h]

/-- Definitions whose names are different. -/
def Apart (L : List TableInfo) : Prop := L.Pairwise fun a b => sameName a.name b.name = false

theorem Apart.eq_of_sameName {L : List TableInfo} (h : Apart L) {a b : TableInfo} (ha : a ∈ L) (hb : b ∈ L)
    (hab : sameName a.name b.name = true) : a = b := by
  induction h with
  | nil => cases ha
  | @cons t L ht _ ih =>
    rcases List.mem_cons.1 ha with rfl | ha' <;> rcases List.mem_cons.1 hb with rfl | hb'
    · rfl
    · rw [ht b hb'] at hab
      cases hab
    · rw [sameName_comm, ht a ha'] at hab
      cases hab
    · exact ih ha' hb'

/-! ## Tables -/

namespace Content

/-- The definitions of the tables. -/
def infos (c : Content) : List TableInfo := c.tables.map (·.info)

/-- The rows of the table with a name. -/
def rowsOf (c : Content) (name : String) : List Row := ((c.find? name).map (·.rows)).getD []

/-- The content with a change of the rows of the table with a name. -/
def onRows (c : Content) (name : String) (f : List Row → List Row) : Content :=
  c.update name fun s => { s with rows := f s.rows }

@[simp] theorem infos_onRows (c : Content) (name : String) (f : List Row → List Row) :
    (c.onRows name f).infos = c.infos := by
  unfold infos onRows update
  rw [List.map_map]
  refine List.map_congr_left fun s _ => ?_
  show (if s.hasName name then _ else s).info = s.info
  split <;> rfl

@[simp] theorem infos_note (c : Content) (name : String) (id : Int) : (c.note name id).infos = c.infos := by
  unfold note infos
  split <;> rfl

@[simp] theorem rowsOf_note (c : Content) (name other : String) (id : Int) :
    (c.note name id).rowsOf other = c.rowsOf other := by
  unfold note rowsOf find?
  split <;> rfl

theorem rowsOf_congr (c : Content) {a b : String} (h : sameName a b = true) : c.rowsOf a = c.rowsOf b := by
  unfold rowsOf find? Stored.hasName
  simp only [sameName_congr_right h]

theorem find?_congr (c : Content) {a b : String} (h : sameName a b = true) : c.find? a = c.find? b := by
  unfold find? Stored.hasName
  simp only [sameName_congr_right h]

theorem rowsOf_of_tables {c c' : Content} (h : c'.tables = c.tables) (name : String) : c'.rowsOf name = c.rowsOf name := by
  unfold rowsOf find?
  rw [h]

theorem find?_infos (c : Content) (name : String) :
    (c.infos.find? fun t => sameName t.name name) = (c.find? name).map (·.info) := by
  unfold infos find?
  rw [List.find?_map]
  rfl

/-- A table is what its name stands for. -/
theorem find?_of_mem_tables {c : Content} (hd : Apart c.infos) {s : Stored} (hs : s ∈ c.tables) :
    c.find? s.info.name = some s := by
  refine List.find?_eq_some_iff_getElem.2 ⟨sameName_self _, ?_⟩
  obtain ⟨i, hi, hsi⟩ := List.getElem_of_mem hs
  refine ⟨i, hi, hsi, fun j hj => ?_⟩
  have hji := List.pairwise_iff_getElem.1 hd j i (by simp [infos]; omega) (by simpa [infos] using hi) hj
  simp only [infos, List.getElem_map, hsi] at hji
  simpa [Stored.hasName] using hji

theorem rows_eq_rowsOf {c : Content} (hd : Apart c.infos) {s : Stored} (hs : s ∈ c.tables) :
    s.rows = c.rowsOf s.info.name := by
  rw [rowsOf, find?_of_mem_tables hd hs]
  rfl

/-- A definition with its rows is what its name stands for. -/
theorem find?_of_mem {c : Content} (hd : Apart c.infos) {t : TableInfo} (ht : t ∈ c.infos) :
    c.find? t.name = some ⟨t, c.rowsOf t.name⟩ := by
  obtain ⟨s, hs, rfl⟩ := List.mem_map.1 ht
  rw [find?_of_mem_tables hd hs, ← rows_eq_rowsOf hd hs]

theorem mem_infos_of_find? {c : Content} {name : String} {s : Stored} (h : c.find? name = some s) :
    s.info ∈ c.infos ∧ sameName s.info.name name = true := by
  have hname : s.hasName name = true := List.find?_some (p := fun t : Stored => t.hasName name) h
  exact ⟨List.mem_map_of_mem (List.mem_of_find?_eq_some h), hname⟩

theorem find?_onRows (c : Content) (name other : String) (f : List Row → List Row) :
    (c.onRows name f).find? other =
      (c.find? other).map fun s => if s.hasName name then { s with rows := f s.rows } else s := by
  unfold find? onRows update
  rw [List.find?_map]
  congr 2
  funext s
  show (if s.hasName name then _ else s).hasName other = s.hasName other
  split <;> rfl

theorem rowsOf_onRows_of_ne {c : Content} {name other : String} (h : sameName name other = false)
    (f : List Row → List Row) : (c.onRows name f).rowsOf other = c.rowsOf other := by
  rw [rowsOf, find?_onRows, rowsOf]
  cases hs : c.find? other with
  | none => rfl
  | some s =>
    have hn : s.hasName name = false := by
      unfold Stored.hasName
      rw [sameName_congr_left (mem_infos_of_find? hs).2, sameName_comm]
      exact h
    show Option.getD (some (if s.hasName name then { s with rows := f s.rows } else s).rows) [] = _
    rw [hn]
    rfl

theorem rowsOf_onRows_self {c : Content} (hd : Apart c.infos) {t : TableInfo} (ht : t ∈ c.infos)
    (f : List Row → List Row) : (c.onRows t.name f).rowsOf t.name = f (c.rowsOf t.name) := by
  rw [rowsOf, find?_onRows, find?_of_mem hd ht]
  show Option.getD (some (if sameName t.name t.name then _ else _ : Stored).rows) [] = _
  rw [sameName_self]
  rfl

/-- The rows of a table after a change of the rows of another or the same one. -/
theorem rowsOf_onRows {c : Content} (hd : Apart c.infos) {t : TableInfo} (ht : t ∈ c.infos) (name : String)
    (f : List Row → List Row) :
    (c.onRows name f).rowsOf t.name = if sameName name t.name then f (c.rowsOf t.name) else c.rowsOf t.name := by
  split
  · rename_i h
    have hname : (c.onRows name f) = c.onRows t.name f := by
      unfold onRows update Stored.hasName
      simp only [sameName_congr_right h]
    rw [hname, rowsOf_onRows_self hd ht]
  · rename_i h
    exact rowsOf_onRows_of_ne (by simpa using h) f

theorem find?_eq_none {c : Content} {name : String} :
    c.find? name = none ↔ ∀ t ∈ c.infos, sameName t.name name = false := by
  unfold find? infos
  rw [List.find?_eq_none, List.forall_mem_map]
  exact forall₂_congr fun s _ => Bool.eq_false_iff.symm

/-- A new table is the last one, and empty. -/
theorem rowsOf_add {c : Content} {info : TableInfo} (name : String) :
    (c.add info).rowsOf name = c.rowsOf name := by
  unfold rowsOf find? add
  rw [List.find?_append]
  cases c.tables.find? (·.hasName name) with
  | some s => rfl
  | none =>
    show ((List.find? (fun s : Stored => s.hasName name) [{ info }]).map Stored.rows).getD [] = []
    rw [List.find?_singleton]
    split <;> rfl

theorem onRows_id (c : Content) (name : String) : c.onRows name id = c := by
  unfold onRows update
  rw [List.map_congr_left (g := id) fun s _ => by split <;> rfl, List.map_id]

theorem onRows_onRows (c : Content) (name : String) (f g : List Row → List Row) :
    (c.onRows name f).onRows name g = c.onRows name fun rows => g (f rows) := by
  unfold onRows update
  simp only [List.map_map]
  congr 1
  refine List.map_congr_left fun s _ => ?_
  by_cases hn : s.hasName name = true
  · have hn' : Stored.hasName { s with rows := f s.rows } name = true := hn
    simp only [Function.comp_apply, hn, hn', if_true]
  · simp only [Function.comp_apply, hn, if_false, Bool.false_eq_true]

/-- Only what a change makes of the rows that are there matters. -/
theorem onRows_congr {c : Content} (hd : Apart c.infos) {t : TableInfo} (ht : t ∈ c.infos) {f g : List Row → List Row}
    (h : f (c.rowsOf t.name) = g (c.rowsOf t.name)) : c.onRows t.name f = c.onRows t.name g := by
  unfold onRows update
  congr 1
  refine List.map_congr_left fun s hs => ?_
  split
  · rename_i hn
    have hst := hd.eq_of_sameName (List.mem_map_of_mem hs) ht hn
    show Stored.mk s.info (f s.rows) = Stored.mk s.info (g s.rows)
    rw [rows_eq_rowsOf hd hs, hst, h]
  · rfl

/-- The tables are the definitions with their rows. -/
theorem mem_tables {c : Content} (hd : Apart c.infos) {s : Stored} :
    s ∈ c.tables ↔ s.info ∈ c.infos ∧ s.rows = c.rowsOf s.info.name := by
  constructor
  · exact fun hs => ⟨List.mem_map_of_mem hs, rows_eq_rowsOf hd hs⟩
  · rintro ⟨ht, hr⟩
    have hfound := List.mem_of_find?_eq_some (find?_of_mem hd ht)
    rw [← hr] at hfound
    exact hfound

/-! ## Used identifiers -/

theorem sequence_onRows (c : Content) (name other : String) (f : List Row → List Row) :
    (c.onRows name f).sequence other = c.sequence other := rfl

/-- A table has used the identifiers up to the one that is noted. -/
theorem sequence_note_self (c : Content) (name : String) (id : Int) :
    (c.note name id).sequence name = max (c.sequence name) id := by
  unfold note sequence
  by_cases hany : (c.sequences.any fun s => sameName s.1 name) = true
  · rw [if_pos hany]
    obtain ⟨entry, hmem, hname⟩ := List.any_eq_true.1 hany
    have hsome : (c.sequences.find? fun s => sameName s.1 name).isSome := List.find?_isSome.2 ⟨entry, hmem, hname⟩
    obtain ⟨found, hfound⟩ := Option.isSome_iff_exists.1 hsome
    have hsame : sameName found.1 name = true := by simpa using List.find?_some hfound
    rw [hfound, List.find?_map, show (fun s : String × Int => sameName s.1 name) ∘
        (fun s => if sameName s.1 name = true then (s.1, max s.2 id) else s) = fun s => sameName s.1 name by
      funext s
      show sameName (if sameName s.1 name = true then (s.1, max s.2 id) else s).1 name = _
      split <;> rfl]
    rw [hfound, Option.map_some, if_pos hsame]
    rfl
  · rw [if_neg hany]
    have hnone : c.sequences.find? (fun s => sameName s.1 name) = none := by
      rw [List.find?_eq_none]
      exact fun s hs hname => hany (List.any_eq_true.2 ⟨s, hs, hname⟩)
    rw [List.find?_append, hnone, List.find?_singleton, if_pos (sameName_self name)]
    rfl

/-- What other tables have used stays. -/
theorem sequence_note_of_ne (c : Content) {name other : String} (h : sameName name other = false) (id : Int) :
    (c.note name id).sequence other = c.sequence other := by
  have hne : ∀ s : String × Int, sameName s.1 name = true → sameName s.1 other = false := fun s hs => by
    rw [sameName_congr_left hs, h]
  unfold note sequence
  split
  · rw [List.find?_map, show (fun s : String × Int => sameName s.1 other) ∘
        (fun s => if sameName s.1 name = true then (s.1, max s.2 id) else s) = fun s => sameName s.1 other by
      funext s
      show sameName (if sameName s.1 name = true then (s.1, max s.2 id) else s).1 other = _
      split <;> rfl]
    cases hfound : c.sequences.find? fun s => sameName s.1 other with
    | none => rfl
    | some found =>
      have hother : sameName found.1 other = true := by simpa using List.find?_some hfound
      rw [Option.map_some, if_neg fun hs => by rw [hne found hs] at hother; cases hother]
  · rw [List.find?_append, List.find?_singleton, if_neg (by rw [h]; exact Bool.false_ne_true), Option.or_none]

theorem sequence_congr (c : Content) {a b : String} (h : sameName a b = true) : c.sequence a = c.sequence b := by
  unfold sequence
  simp only [sameName_congr_right h]

/-- Noting an identifier leaves what a table has used, or makes it the greater of both. -/
theorem sequence_note (c : Content) (name other : String) (id : Int) :
    (c.note name id).sequence other = if sameName name other then max (c.sequence other) id else c.sequence other := by
  split
  · rename_i h
    rw [← sequence_congr _ h, sequence_note_self, sequence_congr c h]
  · rename_i h
    exact c.sequence_note_of_ne (by simpa using h) id

end Content

/-! ## Rows -/

/-- Rows in the order of their identifiers, all different. -/
def Ordered (rows : List Row) : Prop := rows.Pairwise fun a b => a.id < b.id

theorem Ordered.filter {rows : List Row} (h : Ordered rows) (p : Row → Bool) : Ordered (rows.filter p) :=
  List.Pairwise.filter p h

theorem Ordered.map {rows : List Row} (h : Ordered rows) {f : Row → Row} (hf : ∀ row, (f row).id = row.id) :
    Ordered (rows.map f) :=
  List.Pairwise.map f (fun a b hab => by rw [hf, hf]; exact hab) h

theorem Ordered.eq_of_id {rows : List Row} (h : Ordered rows) {a b : Row} (ha : a ∈ rows) (hb : b ∈ rows)
    (hab : a.id = b.id) : a = b := by
  induction h with
  | nil => cases ha
  | @cons r rows hr _ ih =>
    rcases List.mem_cons.1 ha with rfl | ha' <;> rcases List.mem_cons.1 hb with rfl | hb'
    · rfl
    · have := hr b hb'
      omega
    · have := hr a ha'
      omega
    · exact ih ha' hb'

theorem Ordered.nodup_ids {rows : List Row} (h : Ordered rows) : (rows.map (·.id)).Nodup :=
  List.Pairwise.map _ (fun _ _ hab => Int.ne_of_lt hab) h

/-- The row of an identifier is the only one with it. -/
theorem Ordered.row? {t : TableInfo} {rows : List Row} (h : Ordered rows) {row : Row} (hr : row ∈ rows) :
    (Stored.mk t rows).row? row.id = some row := by
  unfold Stored.row?
  cases hf : rows.find? (·.id == row.id) with
  | none => exact absurd (List.find?_eq_none.1 hf row hr) (by simp)
  | some other =>
    have hid := List.find?_some hf
    rw [h.eq_of_id (List.mem_of_find?_eq_some hf) hr (eq_of_beq hid)]

/-- A row with a new identifier is put at its place. -/
theorem Ordered.insertRow {rows : List Row} (h : Ordered rows) {row : Row} (hr : ∀ other ∈ rows, other.id ≠ row.id) :
    Ordered (Stored.insertRow row rows) := by
  induction h with
  | nil => exact List.pairwise_singleton _ _
  | @cons r rows hlt h ih =>
    have hne := hr r (List.mem_cons_self ..)
    rw [Stored.insertRow]
    split
    · rename_i hid
      refine .cons (fun other ho => ?_) (.cons hlt h)
      rcases List.mem_cons.1 ho with rfl | ho'
      · exact hid
      · exact Int.lt_trans hid (hlt other ho')
    · refine .cons (fun other ho => ?_) (ih fun other ho => hr other (List.mem_cons_of_mem _ ho))
      rcases Stored.mem_insertRow.1 ho with rfl | ho'
      · omega
      · exact hlt other ho'

/-- A row with an identifier above all others goes to the end. -/
theorem insertRow_of_lt {row : Row} {rows : List Row} (h : ∀ other ∈ rows, other.id < row.id) :
    Stored.insertRow row rows = rows ++ [row] := by
  induction rows with
  | nil => rfl
  | cons r rows ih =>
    have hr := h r (List.mem_cons_self ..)
    rw [Stored.insertRow, if_neg (by omega), ih fun other ho => h other (List.mem_cons_of_mem _ ho)]
    rfl

theorem insertRow_of_forall_gt {row : Row} {rows : List Row} (h : ∀ other ∈ rows, row.id < other.id) :
    Stored.insertRow row rows = row :: rows := by
  cases rows with
  | nil => rfl
  | cons r rows => rw [Stored.insertRow, if_pos (h r (List.mem_cons_self ..))]

/-- A row that replaces one with its identifier takes its place. -/
theorem insertRow_replace {rows : List Row} (h : Ordered rows) {row old : Row} (ho : old ∈ rows)
    (hid : old.id = row.id) :
    Stored.insertRow row (rows.filter (·.id != row.id)) = rows.map fun r => if r.id = row.id then row else r := by
  induction h with
  | nil => cases ho
  | @cons r rows hr h ih =>
    rcases List.mem_cons.1 ho with rfl | ho'
    · have hne : ∀ other ∈ rows, other.id ≠ row.id := fun other hother => by
        have := hr other hother
        omega
      have hkeep : rows.filter (·.id != row.id) = rows :=
        List.filter_eq_self.2 fun other hother => by simpa using hne other hother
      have hmap : (rows.map fun r => if r.id = row.id then row else r) = rows :=
        (List.map_congr_left fun other hother => if_neg (hne other hother)).trans (List.map_id' rows)
      rw [List.filter_cons_of_neg (by simp [hid]), List.map_cons, if_pos hid, hkeep, hmap]
      exact insertRow_of_forall_gt fun other hother => by
        have := hr other hother
        omega
    · have hlt := hr old ho'
      rw [List.filter_cons_of_pos (by simpa using (by omega : r.id ≠ row.id)), List.map_cons,
        if_neg (by omega : ¬ r.id = row.id), Stored.insertRow, if_neg (by omega : ¬ row.id < r.id), ih ho']

/-- The highest identifier stands last. -/
theorem Ordered.le_lastId {rows : List Row} (h : Ordered rows) {row : Row} (hr : row ∈ rows) :
    row.id ≤ (rows.getLast?.map (·.id)).getD 0 := by
  induction h generalizing row with
  | nil => cases hr
  | @cons r rows hlt h ih =>
    cases rows with
    | nil =>
      rcases List.mem_cons.1 hr with rfl | hr'
      · exact Int.le_refl _
      · cases hr'
    | cons r' rows =>
      rw [List.getLast?_cons_cons]
      rcases List.mem_cons.1 hr with rfl | hr'
      · exact Int.le_trans (Int.le_of_lt (hlt r' (List.mem_cons_self ..))) (ih (List.mem_cons_self ..))
      · exact ih hr'

end GuardedConfig.Sql
