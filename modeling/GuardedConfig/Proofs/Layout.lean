import GuardedConfig.Proofs.Content
import GuardedConfig.Sql.Change
import Mathlib.Data.List.Basic

/-!
# `Proofs.Layout` — tables that are linked by identifiers

In a layout every table has an automatic identifier in its first column and nothing else that could stand in the
way of a row: no unique keys, no checks, no defaults. Its foreign keys are links: one column with identifiers of
another table. When a row is deleted, the links to it are emptied, or the rows with such a link are deleted too;
then nothing is linked to these.

## Contents

* `TableInfo.IsPlain`, `ForeignKeyInfo.IsLink`, `Layout`
* `Row.Fits`, `Content.Sound`, `Content.Linked`
* `parentOf_eq`, `mem_referrers` — links find their tables
* `refersTo_iff`, `isOrphan_iff`, `orphans_eq_zero`
* `deleteFaults_eq_nil`, `updateFaults_eq_nil` — nothing is wrong with the links
-/

namespace GuardedConfig.Sql

/-! ## Definitions -/

/-- A table with an automatic identifier in its first column, no further keys, no checks and no defaults. -/
structure TableInfo.IsPlain (t : TableInfo) : Prop where
  key : t.key = some 0
  keyConflict : t.keyConflict = none
  autoincrement : t.autoincrement = true
  uniques : t.uniques = []
  checks : t.checks = []
  keyColumn : ∃ name, t.columns[0]? = some { name, type := "INTEGER" }
  columns : ∀ c ∈ t.columns, c.collation = .binary ∧ c.default = .literal .null
  distinct : t.columns.Pairwise fun a b => sameName a.name b.name = false

/-- The column of a foreign key of one column. -/
def ForeignKeyInfo.column (k : ForeignKeyInfo) : Nat := k.columns.headD 0

/-- A foreign key of a table `t` links one of its columns to the identifiers of a table `p`. -/
structure ForeignKeyInfo.IsLink (k : ForeignKeyInfo) (t p : TableInfo) : Prop where
  columns : k.columns = [k.column]
  ne_key : k.column ≠ 0
  column : ∃ c, t.columns[k.column]? = some c ∧ c.affinity = .integer ∧
    (k.onDelete = .cascade ∨ k.onDelete = .setNull ∧ c.notNull = none)
  parent : k.parent = p.name
  parentColumns : k.parentColumns = [p.columnName 0]
  onUpdate : k.onUpdate = .noAction
  deferred : k.deferred = false

/-- Tables that are linked by identifiers. -/
structure Layout (L : List TableInfo) : Prop where
  plain : ∀ t ∈ L, t.IsPlain
  apart : Apart L
  links : ∀ t ∈ L, ∀ k ∈ t.foreignKeys, ∃ p ∈ L, k.IsLink t p
  columns : ∀ t ∈ L, t.foreignKeys.Pairwise fun j k => j.column ≠ k.column
  /-- Nothing is linked to rows that are deleted because of a link. -/
  leaves : ∀ t ∈ L, ∀ k ∈ t.foreignKeys, k.onDelete = .cascade → ∀ u ∈ L, ∀ j ∈ u.foreignKeys, j.parent ≠ t.name

/-- A row has a value for each column, as the column converts it, its identifier in the first one, and in a link an
identifier or nothing. -/
structure Row.Fits (t : TableInfo) (row : Row) : Prop where
  length : row.values.length = t.columns.length
  key : row.value 0 = .integer row.id
  stable : ∀ (i : Nat) column, t.columns[i]? = some column → column.affinity.store (row.value i) = row.value i
  links : ∀ k ∈ t.foreignKeys, row.value k.column = .null ∨ ∃ n, row.value k.column = .integer n

/-- A content of tables with these definitions, whose rows are in order and fit. -/
structure Content.Sound (L : List TableInfo) (c : Content) : Prop where
  infos : c.infos = L
  ordered : ∀ t ∈ L, Ordered (c.rowsOf t.name)
  fits : ∀ t ∈ L, ∀ row ∈ c.rowsOf t.name, row.Fits t

/-- The identifiers of the rows of a table. -/
def Content.idsOf (c : Content) (name : String) : List Int := (c.rowsOf name).map (·.id)

/-- Every link leads to a row. -/
def Content.Linked (L : List TableInfo) (c : Content) : Prop :=
  ∀ t ∈ L, ∀ k ∈ t.foreignKeys, ∀ row ∈ c.rowsOf t.name, ∀ n, row.value k.column = .integer n → n ∈ c.idsOf k.parent

variable {L : List TableInfo} {c : Content} {t u p : TableInfo} {k : ForeignKeyInfo} {row : Row}

/-! ## Values -/

@[simp] theorem store_integer (n : Int) : Affinity.integer.store (.integer n) = .integer n := rfl

theorem ofType_integer : Affinity.ofType "INTEGER" = .integer := by decide +kernel

/-- Whole numbers are compared as they are. -/
theorem compareUnder_integer (a : Option Affinity) (c : Collation) (m n : Int) :
    compareUnder a c (.integer m) (.integer n) = some (compare m n) := by
  unfold compareUnder Affinity.toCompare
  rw [if_neg (by simp)]
  cases a with
  | none => rfl
  | some a => cases a <;> rfl

theorem compareUnder_null (a : Option Affinity) (c : Collation) (x : Value) : compareUnder a c x .null = none := by
  unfold compareUnder
  rw [if_pos (Or.inr rfl)]

theorem compare_beq_eq (m n : Int) : (some (compare m n) == some .eq) = decide (m = n) := by
  rw [Bool.eq_iff_iff, beq_iff_eq, Option.some.injEq, decide_eq_true_iff]
  exact Std.LawfulEqCmp.compare_eq_iff_eq

theorem common_integer (a : Affinity) : Affinity.common (some .integer) (some a) = some .numeric := rfl

/-! ## Finding tables -/

theorem parentKey_eq (hp : p.IsPlain) (hk : k.IsLink t p) : parentKey p k = some [(k.column, 0)] := by
  unfold parentKey
  rw [hk.columns, hp.key, hk.parentColumns]
  simp [Option.filter]

/-- A link is found in the table that it names. -/
theorem Layout.parent_eq (h : Layout L) (hp : p ∈ L) (ht : t ∈ L) (hk : k ∈ t.foreignKeys)
    (hn : sameName k.parent p.name = true) : k.IsLink t p := by
  obtain ⟨p', hp', hlink⟩ := h.links t ht k hk
  rw [hlink.parent] at hn
  rw [← h.apart.eq_of_sameName hp' hp hn]
  exact hlink

open Content (rowsOf_onRows)

namespace Content.Sound

theorem apart (hc : c.Sound L) (h : Layout L) : Apart c.infos := hc.infos ▸ h.apart

theorem find? (hc : c.Sound L) (h : Layout L) (ht : t ∈ L) : c.find? t.name = some ⟨t, c.rowsOf t.name⟩ :=
  find?_of_mem (hc.apart h) (hc.infos ▸ ht)

theorem mem_tables (hc : c.Sound L) (h : Layout L) {s : Stored} :
    s ∈ c.tables ↔ s.info ∈ L ∧ s.rows = c.rowsOf s.info.name := by
  rw [Content.mem_tables (hc.apart h), hc.infos]

/-- Rows that stay in order and fit leave a content sound. -/
theorem onRows (hc : c.Sound L) (h : Layout L) (ht : t ∈ L) {f : List Row → List Row}
    (ho : Ordered (f (c.rowsOf t.name))) (hf : ∀ row ∈ f (c.rowsOf t.name), row.Fits t) :
    (c.onRows t.name f).Sound L where
  infos := by rw [Content.infos_onRows, hc.infos]
  ordered u hu := by
    rw [rowsOf_onRows (hc.apart h) (hc.infos ▸ hu)]
    split
    · rename_i hn
      rw [← h.apart.eq_of_sameName ht hu hn]
      exact ho
    · exact hc.ordered u hu
  fits u hu := by
    rw [rowsOf_onRows (hc.apart h) (hc.infos ▸ hu)]
    split
    · rename_i hn
      rw [← h.apart.eq_of_sameName ht hu hn]
      exact hf
    · exact hc.fits u hu

end Content.Sound

theorem parentOf_eq (h : Layout L) (hc : c.Sound L) (hp : p ∈ L) (hk : k.IsLink t p) :
    parentOf c t k = .ok (⟨p, c.rowsOf p.name⟩, [(k.column, 0)]) := by
  unfold parentOf
  rw [hk.parent, hc.find? h hp]
  dsimp only
  rw [parentKey_eq (h.plain p hp) hk]

/-- What refers to a table are the links to it. -/
theorem mem_referrers (h : Layout L) (hc : c.Sound L) (hp : p ∈ L) {s : Stored} :
    (s, k) ∈ referrers c p.name ↔
      (s.info ∈ L ∧ s.rows = c.rowsOf s.info.name) ∧ k ∈ s.info.foreignKeys ∧ k.IsLink s.info p := by
  unfold referrers
  rw [List.mem_reverse, List.mem_flatMap]
  constructor
  · rintro ⟨s', hs', hk⟩
    obtain ⟨k', hk', he⟩ := List.mem_map.1 hk
    cases he
    obtain ⟨hk', hn⟩ := List.mem_filter.1 hk'
    have hs := (hc.mem_tables h).1 hs'
    exact ⟨hs, hk', h.parent_eq hp hs.1 hk' hn⟩
  · rintro ⟨hs, hk, hlink⟩
    refine ⟨s, (hc.mem_tables h).2 hs, List.mem_map.2 ⟨k, List.mem_filter.2 ⟨hk, ?_⟩, rfl⟩⟩
    rw [hlink.parent]
    exact sameName_self _

/-! ## Links -/

/-- A row refers to a row if its link holds the identifier. -/
theorem refersTo_iff (hp : p.IsPlain) (hk : k.IsLink t p) (hm : k ∈ t.foreignKeys) (hr : row.Fits t) {old : Row}
    (ho : old.value 0 = .integer old.id) :
    refersTo p t [(k.column, 0)] row old = true ↔ row.value k.column = .integer old.id := by
  obtain ⟨a, hpa⟩ := hp.keyColumn
  obtain ⟨b, htb, hb, -⟩ := hk.column
  unfold refersTo
  simp only [List.all_cons, List.all_nil, Bool.and_true, hpa, htb, ho]
  rw [ofType_integer, common_integer]
  rcases hr.links k hm with hv | ⟨n, hv⟩ <;> rw [hv]
  · rw [compareUnder_null]
    simp
  · rw [compareUnder_integer, compare_beq_eq]
    simp [eq_comm]

/-- A row is an orphan if its link leads to no row. -/
theorem isOrphan_iff (h : Layout L) (hc : c.Sound L) (ht : t ∈ L) (hm : k ∈ t.foreignKeys)
    (hr : row.Fits t) : isOrphan c t k row = true ↔ ∃ n, row.value k.column = .integer n ∧ n ∉ c.idsOf k.parent := by
  obtain ⟨p, hp, hk⟩ := h.links t ht k hm
  obtain ⟨a, hpa⟩ := (h.plain p hp).keyColumn
  unfold isOrphan hasReference
  rw [parentOf_eq h hc hp hk, hk.columns]
  simp only [List.all_cons, List.all_nil, Bool.and_true, Bool.and_eq_true, bne_iff_ne, ne_eq, Bool.not_eq_true',
    List.any_eq_false]
  rcases hr.links k hm with hv | ⟨n, hv⟩
  · simp [hv]
  · simp only [hv, reduceCtorEq, not_false_eq_true, true_and, Value.integer.injEq, exists_eq_left']
    have hfind : ∀ q ∈ c.rowsOf p.name, findsParent p [(k.column, 0)] row q = decide (q.id = n) := by
      intro q hq
      unfold findsParent
      simp only [List.all_cons, List.all_nil, Bool.and_true, hpa, hv, (hc.fits p hp q hq).key]
      rw [ofType_integer, store_integer, compareUnder_integer, compare_beq_eq]
    unfold Content.idsOf
    rw [hk.parent, List.mem_map]
    constructor
    · rintro hall ⟨q, hq, hid⟩
      exact hall q hq (by rw [hfind q hq]; simpa using hid)
    · intro hnone q hq hf
      rw [hfind q hq] at hf
      exact hnone ⟨q, hq, by simpa using hf⟩

/-- If every link leads to a row, no row lacks a parent. -/
theorem orphans_eq_zero (h : Layout L) (hc : c.Sound L) (hl : c.Linked L) (deferred : Bool) : orphans c deferred = 0 := by
  unfold orphans
  rw [List.length_eq_zero_iff, List.flatMap_eq_nil_iff]
  intro s hs
  obtain ⟨ht, hrows⟩ := (hc.mem_tables h).1 hs
  rw [List.flatMap_eq_nil_iff]
  intro k hk
  have hm := (List.mem_filter.1 hk).1
  rw [List.filter_eq_nil_iff]
  intro row hrow
  rw [hrows] at hrow
  rw [isOrphan_iff h hc ht hm (hc.fits _ ht row hrow)]
  rintro ⟨n, hv, hn⟩
  exact hn (hl _ ht k hm row hrow n hv)

/-- No link is checked only at the end of a transaction. -/
theorem orphans_deferred (h : Layout L) (hi : c.infos = L) : orphans c true = 0 := by
  unfold orphans
  rw [List.length_eq_zero_iff, List.flatMap_eq_nil_iff]
  intro s hs
  have ht : s.info ∈ L := hi ▸ List.mem_map_of_mem hs
  rw [List.flatMap_eq_nil_iff]
  intro k hk
  obtain ⟨hm, hd⟩ := List.mem_filter.1 hk
  obtain ⟨p, -, hlink⟩ := h.links _ ht k hm
  rw [hlink.deferred] at hd
  exact nomatch hd

/-! ## Faults of foreign keys -/

theorem mismatches_eq_nil (h : Layout L) (hc : c.Sound L) (ht : t ∈ L) (relevant : ForeignKeyInfo → Bool) :
    mismatches c t relevant = [] := by
  unfold mismatches
  rw [List.filterMap_eq_nil_iff]
  rintro ⟨s, k⟩ hs
  obtain ⟨-, -, hlink⟩ := (mem_referrers h hc ht).1 hs
  dsimp only
  rw [parentKey_eq (h.plain t ht) hlink]
  simp

theorem referenceFault?_eq_none (h : Layout L) (hc : c.Sound L) (ht : t ∈ L) (own others : ForeignKeyInfo → Bool) :
    referenceFault? c t own others = none := by
  unfold referenceFault?
  rw [mismatches_eq_nil h hc ht]
  simp only [List.head?_nil, Option.or_none, List.findSome?_eq_none_iff]
  intro k hk
  have hm : k ∈ t.foreignKeys := List.mem_reverse.1 (List.mem_filter.1 hk).1
  obtain ⟨p, hp, hlink⟩ := h.links t ht k hm
  rw [parentOf_eq h hc hp hlink]

theorem foldl_eq_of_forall {α β : Type} {f : β → α → β} {b : β} {l : List α} (h : ∀ a ∈ l, f b a = b) :
    l.foldl f b = b := by
  induction l with
  | nil => rfl
  | cons a l ih =>
    rw [List.foldl_cons, h a (List.mem_cons_self ..)]
    exact ih fun a' ha' => h a' (List.mem_cons_of_mem _ ha')

/-- Deletions and updates find no fault, however deep their actions are looked into. -/
theorem faultsWith_eq_nil (h : Layout L) (hc : c.Sound L) (depth : Nat) : ∀ t ∈ L,
    deleteFaultsWith (actionFaults depth) c t = [] ∧
      ∀ changed, updateFaultsWith (actionFaults depth) c t changed = [] := by
  induction depth with
  | zero =>
    intro t ht
    refine ⟨?_, fun changed => ?_⟩
    · unfold deleteFaultsWith actionFaults
      dsimp only
      rw [mismatches_eq_nil h hc ht, referenceFault?_eq_none h hc ht]
      rfl
    · unfold updateFaultsWith actionFaults
      dsimp only
      rw [mismatches_eq_nil h hc ht, referenceFault?_eq_none h hc ht]
      exact ite_self _
  | succ depth ih =>
    have actions : ∀ t ∈ L, ∀ action relevant deletes, actionFaults (depth + 1) c t action relevant deletes [] = [] := by
      intro t ht action relevant deletes
      unfold actionFaults
      refine foldl_eq_of_forall ?_
      rintro ⟨s, k⟩ hs
      obtain ⟨⟨hs', -⟩, -, hlink⟩ := (mem_referrers h hc ht).1 (List.mem_filter.1 hs).1
      dsimp only
      rw [parentKey_eq (h.plain t ht) hlink, (ih s.info hs').1, (ih s.info hs').2]
      simp
    intro t ht
    refine ⟨?_, fun changed => ?_⟩
    · unfold deleteFaultsWith
      dsimp only
      rw [mismatches_eq_nil h hc ht, referenceFault?_eq_none h hc ht]
      exact actions t ht _ _ _
    · unfold updateFaultsWith
      dsimp only
      rw [mismatches_eq_nil h hc ht, referenceFault?_eq_none h hc ht]
      show (if _ then actionFaults (depth + 1) c t _ _ _ [] else []) = []
      rw [actions t ht]
      exact ite_self _

theorem deleteFaults_eq_nil (h : Layout L) (hc : c.Sound L) (ht : t ∈ L) (depth : Nat) : deleteFaults depth c t = [] :=
  (faultsWith_eq_nil h hc depth t ht).1

theorem updateFaults_eq_nil (h : Layout L) (hc : c.Sound L) (ht : t ∈ L) (depth : Nat) (changed : Nat → Bool) :
    updateFaults depth c t changed = [] :=
  (faultsWith_eq_nil h hc depth t ht).2 changed

end GuardedConfig.Sql
