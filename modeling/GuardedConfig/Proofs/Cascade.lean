import GuardedConfig.Proofs.Layout
import GuardedConfig.Proofs.Outcome
import GuardedConfig.Proofs.Rounding

/-!
# `Proofs.Cascade` — what happens to the links of a row that is deleted

In a layout the deletion of a row takes out the row and then, link by link, releases the rows that refer to it:
they lose the identifier, or they are taken out as well. Nothing can go wrong on the way.

## Contents

* `TableInfo.assign`, `changeRow_outcome`
* `TableInfo.release`, `TableInfo.unlink`, `act_outcome`
* `Content.removed`, `removeRow_outcome`
-/

namespace GuardedConfig.Sql

/-! ## Converted rows -/

variable {L : List TableInfo} {c : Content} {t u p : TableInfo} {k : ForeignKeyInfo} {row : Row}

theorem value_eq_of_getElem? {row : Row} {i : Nat} {v : Value} (h : row.values[i]? = some v) : row.value i = v := by
  unfold Row.value
  rw [List.getD_eq_getElem?_getD, h]
  rfl

theorem length_convert {id : Int} {values : List Value} (hl : values.length = t.columns.length) :
    (convert t id values).values.length = t.columns.length := by
  unfold convert
  rw [List.length_mapIdx, List.length_zip, hl, Nat.min_self]

/-- A converted row holds in each column what the column makes of the value, and its identifier in the key. -/
theorem value_convert {id : Int} {values : List Value} (hl : values.length = t.columns.length) {i : Nat}
    {column : ColumnInfo} (hi : t.columns[i]? = some column) :
    (convert t id values).value i =
      if t.key = some i then .integer id else column.affinity.store (values.getD i .null) := by
  obtain ⟨hlt, hcol⟩ := List.getElem?_eq_some_iff.1 hi
  have hv : values[i]? = some values[i] := List.getElem?_eq_getElem (by omega)
  apply value_eq_of_getElem?
  unfold convert
  rw [List.getElem?_mapIdx, List.getElem?_zip_eq_some (z := (column, values[i])) |>.2 ⟨hi, hv⟩, List.getD_eq_getElem?_getD, hv]
  rfl

/-- A converted row fits if its links are given identifiers or nothing. -/
theorem fits_convert (ht : t.IsPlain) (hlinks : ∀ k ∈ t.foreignKeys, ∃ p, k.IsLink t p) {id : Int}
    {values : List Value} (hl : values.length = t.columns.length)
    (hv : ∀ k ∈ t.foreignKeys, values.getD k.column .null = .null ∨ ∃ n, values.getD k.column .null = .integer n) :
    (convert t id values).Fits t where
  length := length_convert hl
  key := by
    obtain ⟨name, hn⟩ := ht.keyColumn
    rw [value_convert hl hn, if_pos ht.key]
    rfl
  stable := by
    intro i column hi
    rw [value_convert hl hi]
    split
    · -- the key is a whole number
      rename_i hkey
      obtain ⟨name, hn⟩ := ht.keyColumn
      rw [ht.key, Option.some.injEq] at hkey
      rw [← hkey, hn, Option.some.injEq] at hi
      rw [← hi, show ColumnInfo.affinity { name, type := "INTEGER" } = .integer from ofType_integer]
      rfl
    · exact Affinity.store_store _ _
  links := by
    intro k hk
    obtain ⟨p, hlink⟩ := hlinks k hk
    obtain ⟨column, hcol, haff, -⟩ := hlink.column
    rw [value_convert hl hcol, if_neg (by rw [ht.key]; simpa using hlink.ne_key.symm), haff]
    rcases hv k hk with h | ⟨n, h⟩ <;> rw [h]
    · exact .inl rfl
    · exact .inr ⟨n, rfl⟩

/-- A link holds what it is given. -/
theorem value_convert_link (ht : t.IsPlain) (hlink : k.IsLink t p) (id : Int) {values : List Value}
    (hl : values.length = t.columns.length)
    (hv : values.getD k.column .null = .null ∨ ∃ n, values.getD k.column .null = .integer n) :
    (convert t id values).value k.column = values.getD k.column .null := by
  obtain ⟨column, hcol, haff, -⟩ := hlink.column
  rw [value_convert hl hcol, if_neg (by rw [ht.key]; simpa using hlink.ne_key.symm), haff]
  rcases hv with h | ⟨n, h⟩ <;> rw [h] <;> rfl

/-! ## Rows that are changed -/

/-- A row with a new value in one column. The values of all columns are converted again. -/
def TableInfo.assign (t : TableInfo) (i : Nat) (v : Value) (row : Row) : Row := convert t row.id (row.values.set i v)

@[simp] theorem id_assign (t : TableInfo) (i : Nat) (v : Value) (row : Row) : (t.assign i v row).id = row.id := rfl

theorem getD_set (values : List Value) (i j : Nat) (v : Value) (hi : i < values.length) :
    (values.set i v).getD j .null = if j = i then v else values.getD j .null := by
  rw [List.getD_eq_getElem?_getD, List.getD_eq_getElem?_getD, List.getElem?_set]
  by_cases h : i = j
  · rw [if_pos h, if_pos h.symm, if_pos hi]
    rfl
  · rw [if_neg h, if_neg (Ne.symm h)]

/-- What a link is given when a row that fits is assigned to. -/
theorem getD_set_link (hr : row.Fits t) {i : Nat} (hi : i < t.columns.length) {v : Value}
    (hv : ∀ k ∈ t.foreignKeys, k.column = i → v = .null ∨ ∃ n, v = .integer n) (hk : k ∈ t.foreignKeys) :
    (row.values.set i v).getD k.column .null = .null ∨ ∃ n, (row.values.set i v).getD k.column .null = .integer n := by
  rw [getD_set _ _ _ _ (hr.length ▸ hi)]
  split
  · rename_i h
    exact hv k hk h
  · exact hr.links k hk

theorem fits_assign (ht : t.IsPlain) (hlinks : ∀ k ∈ t.foreignKeys, ∃ p, k.IsLink t p) (hr : row.Fits t) {i : Nat}
    (hi : i < t.columns.length) {v : Value}
    (hv : ∀ k ∈ t.foreignKeys, k.column = i → v = .null ∨ ∃ n, v = .integer n) : (t.assign i v row).Fits t :=
  fits_convert ht hlinks (by rw [List.length_set, hr.length]) fun _ hk => getD_set_link hr hi hv hk

/-- An assignment changes no link but the one that is assigned to. -/
theorem value_assign_link (ht : t.IsPlain) (hlinks : ∀ k ∈ t.foreignKeys, ∃ p, k.IsLink t p) (hr : row.Fits t)
    {i : Nat} (hi : i < t.columns.length) {v : Value}
    (hv : ∀ k ∈ t.foreignKeys, k.column = i → v = .null ∨ ∃ n, v = .integer n) (hk : k ∈ t.foreignKeys) :
    (t.assign i v row).value k.column = if k.column = i then v else row.value k.column := by
  obtain ⟨p, hlink⟩ := hlinks k hk
  unfold TableInfo.assign
  rw [value_convert_link ht hlink _ (by rw [List.length_set, hr.length]) (getD_set_link hr hi hv hk),
    getD_set _ _ _ _ (hr.length ▸ hi)]
  rfl

/-- An assignment gives its column what that makes of the value, and leaves all others. -/
theorem value_assign (ht : t.IsPlain) (hr : row.Fits t) {i j : Nat} (hi : i < t.columns.length) (hkey : i ≠ 0)
    {column : ColumnInfo} (hj : t.columns[j]? = some column) (v : Value) :
    (t.assign i v row).value j = if j = i then column.affinity.store v else row.value j := by
  have hlength : (row.values.set i v).length = t.columns.length := by rw [List.length_set, hr.length]
  unfold TableInfo.assign
  rw [value_convert hlength hj, getD_set _ _ _ _ (hr.length ▸ hi), ht.key]
  by_cases hzero : j = 0
  · subst hzero
    rw [if_pos rfl, if_neg (Ne.symm hkey), hr.key]
  · rw [if_neg (by simpa using Ne.symm hzero)]
    split
    · rfl
    · exact hr.stable j column hj

/-- Nulls are refused only where they are looked at and the column refuses them. -/
theorem fillNulls_outcome {override : Option Conflict} {relevant : Nat → Bool} {q : Progress} (i : Nat)
    (cs : List ColumnInfo) (vs : List Value)
    (h : ∀ j c v, cs[j]? = some c → vs[j]? = some v → v = .null → relevant (i + j) = true → t.key ≠ some (i + j) →
      c.notNull = none) :
    outcome (fillNulls override t relevant i cs vs) q = (.ok (some vs), q) := by
  induction cs generalizing i vs with
  | nil => rfl
  | cons c cs ih =>
    cases vs with
    | nil => rfl
    | cons v vs =>
      have hrest : outcome (fillNulls override t relevant (i + 1) cs vs) q = (.ok (some vs), q) := by
        refine ih (i + 1) vs fun j c v hc hv => ?_
        rw [Nat.add_assoc, Nat.add_comm 1 j]
        exact h (j + 1) c v (by simpa using hc) (by simpa using hv)
      have hnone : (if v == .null && relevant i && t.key != some i then c.notNull else none) = none := by
        split
        · rename_i hcond
          simp only [Bool.and_eq_true, beq_iff_eq, bne_iff_ne] at hcond
          exact h 0 c v rfl rfl hcond.1.1 hcond.1.2 hcond.2
        · rfl
      rw [fillNulls, hnone]
      exact outcome_bind_ok hrest

theorem uniquenesses_eq (ht : t.IsPlain) : uniquenesses t = [.key] := by
  unfold uniquenesses
  rw [ht.uniques]
  simp [Uniqueness.conflict, ht.keyConflict]

/-- Where a row is replaced by one with its identifier, a content stays sound. -/
theorem sound_replace (h : Layout L) (hc : c.Sound L) (ht : t ∈ L) {new : Row} (hr : row ∈ c.rowsOf t.name)
    (hid : row.id = new.id) (hfit : new.Fits t) :
    (c.onRows t.name fun rows => Stored.insertRow new (rows.filter (·.id != new.id))).Sound L := by
  refine hc.onRows h ht ?_ ?_ <;> rw [insertRow_replace (hc.ordered t ht) hr hid]
  · refine (hc.ordered t ht).map fun other => ?_
    split
    · rename_i ho
      exact ho.symm
    · rfl
  · intro other ho
    obtain ⟨old, hold, rfl⟩ := List.mem_map.1 ho
    split
    · exact hfit
    · exact hc.fits t ht old hold

/-- In a layout a row is given a value without further ado. -/
theorem changeRow_outcome (h : Layout L) {q : Progress} (hc : q.content.Sound L) (ht : t ∈ L)
    (hr : row ∈ q.content.rowsOf t.name) {i : Nat} {column : ColumnInfo} (hi : t.columns[i]? = some column)
    (hkey : i ≠ 0) {v : Value} (hv : v = .null → column.notNull = none)
    (hlink : ∀ k ∈ t.foreignKeys, k.column = i → v = .null ∨ ∃ n, v = .integer n) (override : Option Conflict)
    (fuel : Nat) :
    outcome (changeRow (fuel + 2) override t.name row.id [(i, v)]) q =
      (.ok true, { q with
        content := q.content.onRows t.name fun rows =>
          Stored.insertRow (t.assign i v row) (rows.filter (·.id != row.id))
        unsettled := true }) := by
  have hplain := h.plain t ht
  have hlinks : ∀ k ∈ t.foreignKeys, ∃ p, k.IsLink t p := fun k hk =>
    (h.links t ht k hk).imp fun _ hp => hp.2
  have hfit := hc.fits t ht row hr
  obtain ⟨hlt, -⟩ := List.getElem?_eq_some_iff.1 hi
  have hassign := fits_assign hplain hlinks hfit hlt hlink
  have hvalues : (row.values.mapIdx fun j w => (([(i, v)].find? (·.1 == j)).map (·.2)).getD w) = row.values.set i v := by
    refine List.ext_getElem? fun j => ?_
    rw [List.getElem?_mapIdx, List.getElem?_set]
    by_cases hj : i = j
    · subst hj
      rw [List.getElem?_eq_getElem (hfit.length ▸ hlt)]
      simp [hfit.length ▸ hlt]
    · cases row.values[j]? <;> simp [hj]
  rw [changeRow, outcome_bind_ok (outcome_get q), hc.find? h ht]
  dsimp only
  rw [(hc.ordered t ht).row? hr]
  dsimp only
  rw [hplain.key]
  dsimp only
  rw [if_neg (by simpa using hkey), outcome_bind_ok (outcome_pure _ _), hvalues,
    outcome_bind_ok (fillNulls_outcome 0 _ _ ?_)]
  · rw [hplain.checks, List.filter_nil,
      outcome_bind_ok (show outcome (passesChecks override t _ []) q = (.ok true, q) from rfl), if_neg (by simp),
      uniquenesses_eq hplain, show List.filter _ [Uniqueness.key] = [] by simp,
      outcome_bind_ok (show outcome (clearRow (fuel + 1) override t (some row.id) _ []) q = (.ok true, q) from rfl),
      if_neg (by simp), outcome_bind_ok (show outcome (unsettle _) q = (.ok (), _) from rfl),
      outcome_bind_ok (outcome_get _), outcome_bind_ok (outcome_forIn_skip ?_)]
    · rfl
    · -- the identifier stays, so nothing happens to the rows that refer to this one
      rintro ⟨s, k⟩ hs
      have hsound := sound_replace h hc ht hr (id_assign t i v row).symm hassign
      obtain ⟨-, -, hk⟩ := (mem_referrers h hsound ht).1 hs
      rw [outcome_bind_ok (outcome_get _)]
      have hparent := parentOf_eq h hsound ht hk
      have hsame : (row.value 0 != (t.assign i v row).value 0) = false := by rw [hfit.key, hassign.key]; simp
      dsimp only
      erw [hparent]
      simp only [List.any_cons, List.any_nil, Bool.or_false]
      erw [hsame]
      rfl
  · intro j c w hc' hw hnull hrel _
    have hji : i = j := by simpa using hrel
    subst hji
    rw [Nat.zero_add] at *
    rw [hi] at hc'
    cases hc'
    refine hv ?_
    rw [List.getElem?_set_self (hfit.length ▸ hlt)] at hw
    rw [← hnull]
    exact Option.some.inj hw

/-! ## Rows that are released -/

/-- What becomes of a row whose link has lost its row; nothing if it is deleted. -/
def TableInfo.release (t : TableInfo) (k : ForeignKeyInfo) (row : Row) : Option Row :=
  match k.onDelete with
  | .cascade => none
  | _ => some (t.assign k.column .null row)

/-- The rows of a table once a row that they may be linked to has been deleted. -/
def TableInfo.unlink (t : TableInfo) (k : ForeignKeyInfo) (id : Int) (rows : List Row) : List Row :=
  rows.filterMap fun row => if row.value k.column = .integer id then t.release k row else some row

theorem id_release {row' : Row} (h : t.release k row = some row') : row'.id = row.id := by
  unfold TableInfo.release at h
  split at h
  · cases h
  · cases h
    rfl

theorem fits_release (ht : t.IsPlain) (hlinks : ∀ k ∈ t.foreignKeys, ∃ p, k.IsLink t p) (hk : k ∈ t.foreignKeys)
    (hr : row.Fits t) {row' : Row} (h : t.release k row = some row') : row'.Fits t := by
  obtain ⟨p, hlink⟩ := hlinks k hk
  obtain ⟨column, hcol, -⟩ := hlink.column
  unfold TableInfo.release at h
  split at h
  · cases h
  · cases h
    exact fits_assign ht hlinks hr (List.getElem?_eq_some_iff.1 hcol).1 fun _ _ _ => .inl rfl

/-- Rows of which some are replaced or taken out stay in order. -/
theorem Ordered.filterMap {rows : List Row} (h : Ordered rows) {φ : Row → Option Row}
    (hφ : ∀ row row', φ row = some row' → row'.id = row.id) : Ordered (rows.filterMap φ) :=
  List.Pairwise.filterMap φ (fun a b hab a' ha b' hb => by rw [hφ a a' ha, hφ b b' hb]; exact hab) h

theorem sound_filterMap (h : Layout L) (hc : c.Sound L) (ht : t ∈ L) {φ : Row → Option Row}
    (hid : ∀ row row', φ row = some row' → row'.id = row.id)
    (hfit : ∀ row row', row.Fits t → φ row = some row' → row'.Fits t) :
    (c.onRows t.name (·.filterMap φ)).Sound L := by
  refine hc.onRows h ht ((hc.ordered t ht).filterMap hid) fun row' hr' => ?_
  obtain ⟨row, hr, hφ⟩ := List.mem_filterMap.1 hr'
  exact hfit row row' (hc.fits t ht row hr) hφ

theorem sound_unlink (h : Layout L) (hc : c.Sound L) (ht : t ∈ L) (hk : k ∈ t.foreignKeys) (id : Int) :
    (c.onRows t.name (t.unlink k id)).Sound L := by
  refine sound_filterMap h hc ht (fun row row' hr => ?_) fun row row' hfit hr => ?_
  · split at hr
    · exact id_release hr
    · cases hr
      rfl
  · split at hr
    · exact fits_release (h.plain t ht) (fun k hk => (h.links t ht k hk).imp fun _ hp => hp.2) hk hfit hr
    · cases hr
      exact hfit

/-- A loop over rows of a table that replaces or takes out one row after the other. -/
theorem outcome_forIn_rows (h : Layout L) (ht : t ∈ L) {φ : Row → Option Row}
    (hid : ∀ row row', φ row = some row' → row'.id = row.id)
    (hfit : ∀ row row', row.Fits t → φ row = some row' → row'.Fits t)
    {f : Row → PUnit → Change (ForInStep PUnit)}
    (hf : ∀ q : Progress, q.content.Sound L → q.unsettled = true → ∀ row ∈ q.content.rowsOf t.name,
      outcome (f row ⟨⟩) q = (.ok (.yield ⟨⟩), { q with
        content := q.content.onRows t.name (·.filterMap fun r => if r.id = row.id then φ r else some r) }))
    {rows : List Row} (ho : Ordered rows) {q : Progress} (hc : q.content.Sound L) (hq : q.unsettled = true)
    (hsub : ∀ row ∈ rows, row ∈ q.content.rowsOf t.name) :
    outcome (forIn rows ⟨⟩ f) q = (.ok ⟨⟩, { q with
      content := q.content.onRows t.name
        (·.filterMap fun r => if r.id ∈ rows.map (·.id) then φ r else some r) }) := by
  induction ho generalizing q with
  | nil =>
    have hnone : (fun rows : List Row => rows.filterMap fun r =>
        if r.id ∈ ([] : List Row).map (·.id) then φ r else some r) = id := by
      funext rows
      simp
    rw [List.forIn_nil, hnone, Content.onRows_id]
    rfl
  | @cons row rows hlt ho ih =>
    have hone := hf q hc hq row (hsub row (List.mem_cons_self ..))
    have hsound : (q.content.onRows t.name
        (·.filterMap fun r => if r.id = row.id then φ r else some r)).Sound L := by
      refine sound_filterMap h hc ht (fun r r' hr => ?_) fun r r' hr hr' => ?_
      · split at hr
        · exact hid r r' hr
        · cases hr
          rfl
      · split at hr'
        · exact hfit r r' hr hr'
        · cases hr'
          exact hr
    have hne : ∀ other ∈ rows, other.id ≠ row.id := fun other ho' => by
      have := hlt other ho'
      omega
    have hrest := ih (q := { q with
        content := q.content.onRows t.name (·.filterMap fun r => if r.id = row.id then φ r else some r) }) hsound hq
      fun other hother => by
        rw [show Content.rowsOf _ t.name = _ from Content.rowsOf_onRows_self (hc.apart h) (hc.infos ▸ ht) _]
        refine List.mem_filterMap.2 ⟨other, hsub other (List.mem_cons_of_mem _ hother), ?_⟩
        rw [if_neg (hne other hother)]
    have hboth : (fun rs : List Row => (rs.filterMap fun r => if r.id = row.id then φ r else some r).filterMap fun r =>
        if r.id ∈ rows.map (·.id) then φ r else some r) =
        fun rs => rs.filterMap fun r => if r.id ∈ (row :: rows).map (·.id) then φ r else some r := by
      funext rs
      rw [List.filterMap_filterMap]
      congr 1
      funext r
      rw [List.map_cons]
      by_cases hr : r.id = row.id
      · rw [if_pos hr, if_pos (List.mem_cons.2 (.inl hr))]
        cases hφ : φ r with
        | none => rfl
        | some r' =>
          -- what has become of the row is not met again
          have hr' : r'.id ∉ rows.map (·.id) := by
            rw [hid r r' hφ, hr, List.mem_map]
            rintro ⟨other, ho', he⟩
            exact hne other ho' he
          exact if_neg hr'
      · rw [if_neg hr]
        simp [hr]
    rw [List.forIn_cons, outcome_bind_ok hone]
    dsimp only
    rw [hrest, Content.onRows_onRows, hboth]

/-- Rows of a table that nothing is linked to are taken out alone. -/
theorem removeRow_leaf_outcome (h : Layout L) {q : Progress} (hc : q.content.Sound L) (ht : t ∈ L)
    (hleaf : ∀ u ∈ L, ∀ j ∈ u.foreignKeys, j.parent ≠ t.name) (hr : row ∈ q.content.rowsOf t.name) (fuel : Nat) :
    outcome (removeRow (fuel + 1) t.name row.id) q =
      (.ok (), { q with content := q.content.onRows t.name (·.filter (·.id != row.id)), unsettled := true }) := by
  have hsound : (q.content.onRows t.name (·.filter (·.id != row.id))).Sound L :=
    hc.onRows h ht ((hc.ordered t ht).filter _) fun other ho => hc.fits t ht other (List.mem_filter.1 ho).1
  have hnone : referrers (q.content.onRows t.name (·.filter (·.id != row.id))) t.name = [] := by
    refine List.eq_nil_iff_forall_not_mem.2 ?_
    rintro ⟨s, k⟩ hs
    obtain ⟨⟨hs, -⟩, hk, hlink⟩ := (mem_referrers h hsound ht).1 hs
    exact hleaf s.info hs k hk hlink.parent
  rw [removeRow, outcome_bind_ok (outcome_get q), hc.find? h ht]
  dsimp only
  rw [(hc.ordered t ht).row? hr]
  dsimp only
  rw [outcome_bind_ok (show outcome (unsettle _) q = (.ok (), _) from rfl), outcome_bind_ok (outcome_get _)]
  show outcome (forIn (referrers (q.content.onRows t.name (·.filter (·.id != row.id))) t.name) _ _ >>= _) _ = _
  rw [hnone]
  rfl

theorem filter_eq_filterMap (rows : List Row) (id : Int) :
    rows.filter (·.id != id) = rows.filterMap fun r => if r.id = id then none else some r := by
  induction rows with
  | nil => rfl
  | cons r rows ih => by_cases hr : r.id = id <;> simp [hr, ih]

/-- The rows that refer to a row that was deleted are released. -/
theorem act_outcome (h : Layout L) {q : Progress} (hc : q.content.Sound L) (hq : q.unsettled = true) (ht : t ∈ L)
    (hp : p ∈ L) (hk : k ∈ t.foreignKeys) (hlink : k.IsLink t p) {old : Row} (ho : old.value 0 = .integer old.id)
    (fuel : Nat) :
    outcome (act (fuel + 3) p t.name [(k.column, 0)] k.onDelete old none) q =
      (.ok (), { q with content := q.content.onRows t.name (t.unlink k old.id) }) := by
  have hplain := h.plain t ht
  have hlinks : ∀ k ∈ t.foreignKeys, ∃ p, k.IsLink t p := fun k hk =>
    (h.links t ht k hk).imp fun _ hp => hp.2
  have haffected : (q.content.rowsOf t.name).filter (fun row => refersTo p t [(k.column, 0)] row old) =
      (q.content.rowsOf t.name).filter fun row => row.value k.column = .integer old.id := by
    refine List.filter_congr fun row hr => ?_
    rw [Bool.eq_iff_iff, refersTo_iff (h.plain p hp) hlink hk (hc.fits t ht row hr) ho]
    simp
  -- what a loop over these rows does to the rows of the table
  have hloop : ∀ f : Row → PUnit → Change (ForInStep PUnit),
      (∀ q : Progress, q.content.Sound L → q.unsettled = true → ∀ row ∈ q.content.rowsOf t.name,
        outcome (f row ⟨⟩) q = (.ok (.yield ⟨⟩), { q with
          content := q.content.onRows t.name
            (·.filterMap fun r => if r.id = row.id then t.release k r else some r) })) →
      outcome (forIn ((q.content.rowsOf t.name).filter fun row => row.value k.column = .integer old.id) ⟨⟩ f) q =
        (.ok ⟨⟩, { q with content := q.content.onRows t.name (t.unlink k old.id) }) := by
    intro f hf
    have hunlink : q.content.onRows t.name (·.filterMap fun r =>
          if r.id ∈ ((q.content.rowsOf t.name).filter fun row => row.value k.column = .integer old.id).map (·.id)
          then t.release k r else some r) = q.content.onRows t.name (t.unlink k old.id) := by
      refine Content.onRows_congr (hc.apart h) (hc.infos ▸ ht) (List.filterMap_congr fun row hr => ?_)
      congr 1
      rw [eq_iff_iff, List.mem_map]
      constructor
      · rintro ⟨other, hother, hid⟩
        obtain ⟨hother, hv⟩ := List.mem_filter.1 hother
        rw [← (hc.ordered t ht).eq_of_id hother hr hid]
        simpa using hv
      · exact fun hv => ⟨row, List.mem_filter.2 ⟨hr, by simpa using hv⟩, rfl⟩
    rw [outcome_forIn_rows h ht (fun _ _ => id_release) (fun _ _ hr hrel => fits_release hplain hlinks hk hr hrel) hf
      ((hc.ordered t ht).filter _) hc hq fun row hr => (List.mem_filter.1 hr).1, hunlink]
  obtain ⟨column, hcol, -, haction⟩ := hlink.column
  rw [act, outcome_bind_ok (outcome_get q), hc.find? h ht]
  dsimp only
  rw [haffected]
  rcases haction with haction | ⟨haction, hnull⟩ <;> rw [haction] <;> dsimp only
  · rw [outcome_bind_ok (hloop _ fun q hc hq row hr => ?_)]
    · rfl
    · have hdrop : (fun rows : List Row => rows.filter (·.id != row.id)) =
          fun rows => rows.filterMap fun r => if r.id = row.id then none else some r :=
        funext fun rows => filter_eq_filterMap rows row.id
      rw [outcome_bind_ok (removeRow_leaf_outcome h hc ht (h.leaves t ht k hk haction) hr (fuel + 1)), hdrop, hq]
      unfold TableInfo.release
      rw [haction]
      rfl
  · rw [outcome_bind_ok (hloop _ fun q hc hq row hr => ?_)]
    · rfl
    · have hmap : q.content.onRows t.name (fun rows =>
            Stored.insertRow (t.assign k.column .null row) (rows.filter (·.id != row.id))) =
          q.content.onRows t.name (·.filterMap fun r => if r.id = row.id then t.release k r else some r) := by
        refine Content.onRows_congr (hc.apart h) (hc.infos ▸ ht) ?_
        refine (insertRow_replace (hc.ordered t ht) hr (id_assign t k.column .null row).symm).trans ?_
        rw [← List.filterMap_eq_map]
        refine List.filterMap_congr fun r hr' => ?_
        unfold TableInfo.release
        rw [haction]
        show some (if r.id = row.id then t.assign k.column .null row else r) = _
        split
        · rename_i hid
          rw [(hc.ordered t ht).eq_of_id hr' hr hid]
        · rfl
      show outcome (changeRow (fuel + 2) (some .abort) t.name row.id [(k.column, .null)] >>= fun _ => pure _) q = _
      rw [outcome_bind_ok (changeRow_outcome h hc ht hr hcol hlink.ne_key (fun _ => hnull) (fun _ _ _ => .inl rfl)
        (some .abort) fuel), hmap, hq]
      rfl

/-! ## Rows that are deleted -/

/-- The links to a table, in the order in which they are followed. -/
def linksTo (L : List TableInfo) (name : String) : List (TableInfo × ForeignKeyInfo) :=
  (L.flatMap fun t => (t.foreignKeys.filter fun k => sameName k.parent name).map fun k => (t, k)).reverse

/-- A content without the row of an identifier, which nothing is linked to any more. -/
def Content.removed (L : List TableInfo) (name : String) (id : Int) (c : Content) : Content :=
  (linksTo L name).foldl (fun c link => c.onRows link.1.name (link.1.unlink link.2 id))
    (c.onRows name (·.filter (·.id != id)))

theorem linksTo_eq (hi : c.infos = L) (name : String) :
    linksTo L name = (referrers c name).map fun (s, k) => (s.info, k) := by
  unfold linksTo referrers
  rw [← hi, Content.infos, List.flatMap_map, List.map_reverse, List.map_flatMap]
  congr 2
  funext s
  rw [List.map_map]
  rfl

theorem mem_linksTo (h : Layout L) (hp : p ∈ L) :
    (t, k) ∈ linksTo L p.name ↔ t ∈ L ∧ k ∈ t.foreignKeys ∧ k.parent = p.name := by
  unfold linksTo
  rw [List.mem_reverse, List.mem_flatMap]
  constructor
  · rintro ⟨t', ht', hk⟩
    obtain ⟨k', hk', he⟩ := List.mem_map.1 hk
    cases he
    obtain ⟨hk', hn⟩ := List.mem_filter.1 hk'
    exact ⟨ht', hk', (h.parent_eq hp ht' hk' hn).parent⟩
  · rintro ⟨ht, hk, hparent⟩
    refine ⟨t, ht, List.mem_map.2 ⟨k, List.mem_filter.2 ⟨hk, ?_⟩, rfl⟩⟩
    rw [hparent]
    exact sameName_self _

/-- Releasing rows link by link leaves a content sound. -/
theorem sound_foldl_unlink (h : Layout L) {links : List (TableInfo × ForeignKeyInfo)}
    (hlinks : ∀ link ∈ links, link.1 ∈ L ∧ link.2 ∈ link.1.foreignKeys) (hc : c.Sound L) (id : Int) :
    (links.foldl (fun c link => c.onRows link.1.name (link.1.unlink link.2 id)) c).Sound L := by
  induction links generalizing c with
  | nil => exact hc
  | cons link links ih =>
    obtain ⟨ht, hk⟩ := hlinks link (List.mem_cons_self ..)
    exact ih (fun l hl => hlinks l (List.mem_cons_of_mem _ hl)) (sound_unlink h hc ht hk id)

theorem sound_filter (h : Layout L) (hc : c.Sound L) (ht : t ∈ L) (keep : Row → Bool) :
    (c.onRows t.name (·.filter keep)).Sound L :=
  hc.onRows h ht ((hc.ordered t ht).filter _) fun row hr => hc.fits t ht row (List.mem_filter.1 hr).1

theorem sound_removed (h : Layout L) (hc : c.Sound L) (hp : p ∈ L) (id : Int) : (c.removed L p.name id).Sound L :=
  sound_foldl_unlink h (fun _ hl => ⟨((mem_linksTo h hp).1 hl).1, ((mem_linksTo h hp).1 hl).2.1⟩)
    (sound_filter h hc hp _) id

theorem rowsOf_foldl_unlink {links : List (TableInfo × ForeignKeyInfo)} {name : String}
    (hlinks : ∀ link ∈ links, sameName link.1.name name = false) (id : Int) :
    (links.foldl (fun c link => c.onRows link.1.name (link.1.unlink link.2 id)) c).rowsOf name = c.rowsOf name := by
  induction links generalizing c with
  | nil => rfl
  | cons link links ih =>
    rw [List.foldl_cons, ih fun l hl => hlinks l (List.mem_cons_of_mem _ hl)]
    exact Content.rowsOf_onRows_of_ne (hlinks link (List.mem_cons_self ..)) _

/-- The rows of a table that has no links to itself, once one of them has been deleted. -/
theorem rowsOf_removed_self (h : Layout L) (hc : c.Sound L) (hp : p ∈ L) (hself : ∀ k ∈ p.foreignKeys, k.parent ≠ p.name)
    (id : Int) : (c.removed L p.name id).rowsOf p.name = (c.rowsOf p.name).filter (·.id != id) := by
  unfold Content.removed
  rw [rowsOf_foldl_unlink fun link hl => ?_, Content.rowsOf_onRows_self (hc.apart h) (hc.infos ▸ hp)]
  obtain ⟨ht, hk, hparent⟩ := (mem_linksTo h hp).1 hl
  by_contra hn
  rw [h.apart.eq_of_sameName ht hp (by simpa using hn)] at hk
  exact hself _ hk hparent

/-- Rounds that change the content alone. -/
theorem foldl_content {α : Type} (g : Content → α → Content) (l : List α) (q : Progress) :
    l.foldl (fun (q : Progress) a => { q with content := g q.content a }) q =
      { q with content := l.foldl g q.content } := by
  induction l generalizing q with
  | nil => rfl
  | cons a l ih => exact ih _

/-- **In a layout a row can be deleted**, and then what is linked to it is released. -/
theorem removeRow_outcome (h : Layout L) {q : Progress} (hc : q.content.Sound L) (hp : p ∈ L)
    (hr : row ∈ q.content.rowsOf p.name) (fuel : Nat) :
    outcome (removeRow (fuel + 4) p.name row.id) q =
      (.ok (), { q with content := q.content.removed L p.name row.id, unsettled := true }) := by
  have hsound := sound_filter h hc hp (·.id != row.id)
  have hkey := (hc.fits p hp row hr).key
  rw [removeRow, outcome_bind_ok (outcome_get q), hc.find? h hp]
  dsimp only
  rw [(hc.ordered p hp).row? hr]
  dsimp only
  rw [outcome_bind_ok (show outcome (unsettle _) q = (.ok (), _) from rfl), outcome_bind_ok (outcome_get _)]
  obtain ⟨hloop, -⟩ := outcome_forIn (I := fun q : Progress => q.content.Sound L ∧ q.unsettled = true)
    (g := fun link q => { q with content := q.content.onRows link.1.info.name (link.1.info.unlink link.2 row.id) })
    (l := referrers (q.content.onRows p.name (·.filter (·.id != row.id))) p.name)
    (s := { q with content := q.content.onRows p.name (·.filter (·.id != row.id)), unsettled := true })
    (f := fun x _ => do
      let found ← Change.ofExcept (parentOf (← get).content x.1.info x.2)
      act (fuel + 3) p x.1.info.name found.2 x.2.onDelete row none
      pure (.yield ⟨⟩)) (by
    rintro ⟨s, k⟩ hs q' ⟨hc', hq'⟩
    obtain ⟨⟨hsl, -⟩, hk, hlink⟩ := (mem_referrers h hsound hp).1 hs
    refine ⟨?_, sound_unlink h hc' hsl hk row.id, hq'⟩
    rw [outcome_bind_ok (outcome_get q')]
    dsimp only
    rw [parentOf_eq h hc' hp hlink]
    show outcome (act (fuel + 3) p s.info.name [(k.column, 0)] k.onDelete row none >>= fun _ => pure _) q' = _
    rw [outcome_bind_ok (act_outcome h hc' hq' hsl hp hk hlink hkey fuel)]
    rfl) ⟨hsound, rfl⟩
  rw [foldl_content (fun c (link : Stored × ForeignKeyInfo) =>
    c.onRows link.1.info.name (link.1.info.unlink link.2 row.id))] at hloop
  refine (outcome_bind_ok hloop).trans ?_
  unfold Content.removed
  rw [linksTo_eq hsound.infos, List.foldl_map]
  rfl

end GuardedConfig.Sql
