import GuardedConfig.Proofs.Cascade
import GuardedConfig.Proofs.Condition
import GuardedConfig.Sql.Session

/-!
# `Proofs.Statements` — what insertions, updates and deletions do to a layout

In a layout, statements on sound content succeed and do what they say: an update gives the selected row a value, a
deletion removes the selected rows and releases what was linked to them, an insertion adds a row with the next
identifier. Only an insertion can fail, when the identifiers of its table are used up.

## Contents

* `Session.change_eq`
* `perform_update`, `perform_update_none`
* `perform_delete`
* `perform_insert`
-/

namespace GuardedConfig.Sql

open Decimal (maxInt)

variable {L : List TableInfo} {c : Content} {t u p : TableInfo} {k : ForeignKeyInfo} {row : Row} {s : Session}

/-! ## Changes -/

/-- A change that runs through is kept, if it leaves no row without its parent. -/
theorem Session.change_eq {x : Change Unit} {q : Progress}
    (h : outcome x { content := s.content, lastRowId := s.lastRowId } = (.ok (), q))
    (hq : q.unsettled = true → ∀ deferred, orphans q.content deferred = 0) :
    s.change x = (.ok (), { s with content := q.content, lastRowId := q.lastRowId, changes := q.count }) := by
  unfold change
  rw [show x.run.run { content := s.content, lastRowId := s.lastRowId } = (.ok (), q) from h]
  have hcheck : s.checkReferences q = none := by
    unfold checkReferences
    cases hu : q.unsettled with
    | false => rfl
    | true => simp [hq hu]
  unfold finish
  dsimp only
  rw [hcheck]

/-- A statement that is prepared as a change that runs through. -/
theorem Session.perform_eq {statement : Statement} {params : List Value} {x : Change Unit} {q : Progress}
    (hp : s.prepare statement params = .ok (.change x))
    (h : outcome x { content := s.content, lastRowId := s.lastRowId } = (.ok (), q))
    (hq : q.unsettled = true → ∀ deferred, orphans q.content deferred = 0) :
    s.perform statement params =
      (.ok default, { s with content := q.content, lastRowId := q.lastRowId, changes := q.count }) := by
  unfold perform
  rw [hp]
  dsimp only [run]
  rw [change_eq h hq]
  rfl

theorem expectTable_eq (h : Layout L) (hc : c.Sound L) (ht : t ∈ L) :
    expectTable c t.name = .ok ⟨t, c.rowsOf t.name⟩ := by
  unfold expectTable
  rw [hc.find? h ht]

theorem mayReplace_eq (ht : t.IsPlain) (keyGiven : Bool) (given : Nat → Bool) : mayReplace none t keyGiven given = false := by
  unfold mayReplace
  rw [uniquenesses_eq ht]
  simp [Uniqueness.conflict, ht.keyConflict]

/-! ## Updates -/

/-- What an update of one column by a parameter does to one of the rows that it selects. -/
def updateStep (c : Content) (params : List Value) (t : TableInfo) (i : Nat) (id : Int) : Change Unit := do
  let some row := ((← get).content.find? t.name).bind (·.row? id) | return ()
  let assigned ← [(i, Expr.parameter 1)].mapM fun (i, e) => do
    return (i, ← Change.ofExcept
      (eval { content := c, params, scopes := [[{ label := t.name, info := t, row }]] } e))
  if ← changeRow actionDepth none t.name id assigned then
    modify fun p => { p with count := p.count + 1 }

theorem Update.prepare_eq (h : Layout L) (hc : c.Sound L) (ht : t ∈ L) {name : String} {i : Nat}
    (hname : t.columnIndex? name = some i) {params : List Value} {condition : Expr} {w : Value}
    (hw : eval { content := c, params, scopes := [[{ label := t.name, info := t }]] } condition = .ok w)
    {rows : List Row} (hsel : selectRows c params ⟨t, c.rowsOf t.name⟩ (some condition) = .ok rows) :
    Update.prepare { table := t.name, assignments := [(name, .parameter 1)], condition := some condition } c params =
      .ok ((rows.map (·.id)).forM (updateStep c params t i)) := by
  have hplain := h.plain t ht
  unfold Update.prepare
  rw [expectTable_eq h hc ht, except_ok_bind]
  dsimp only
  rw [show List.mapM _ [(name, Expr.parameter 1)] = (.ok [(i, .parameter 1)] : Except Fault _) by
      rw [List.mapM_cons, List.mapM_nil, hname]
      rfl,
    except_ok_bind]
  rw [show (some condition).forM ({ content := c, params, scopes := [[{ label := t.name, info := t }]] } : Env).check =
        (.ok () : Except Fault Unit) by
      show Env.check _ condition = _
      unfold Env.check
      rw [hw]
      rfl,
    except_ok_bind, mayReplace_eq hplain, updateFaults_eq_nil h hc ht]
  show (selectRows c params ⟨t, c.rowsOf t.name⟩ (some condition) >>= _) = _
  rw [hsel]
  rfl

theorem updateStep_outcome (h : Layout L) {q : Progress} (hc : q.content.Sound L) (ht : t ∈ L)
    (hr : row ∈ q.content.rowsOf t.name) {i : Nat} {column : ColumnInfo} (hi : t.columns[i]? = some column)
    (hkey : i ≠ 0) {v : Value} (hv : v = .null → column.notNull = none)
    (hlink : ∀ k ∈ t.foreignKeys, k.column = i → IdOrNull v) (c : Content) :
    outcome (updateStep c [v] t i row.id) q =
      (.ok (), { q with
        content := q.content.onRows t.name fun rows =>
          Stored.insertRow (t.assign i v row) (rows.filter (·.id != row.id))
        count := q.count + 1
        unsettled := true }) := by
  have hchange := changeRow_outcome h hc ht hr hi hkey hv hlink none 1999
  rw [show 1999 + 2 = actionDepth from rfl] at hchange
  unfold updateStep
  rw [outcome_bind_ok (outcome_get q), hc.find? h ht]
  show outcome (match (Stored.mk t (q.content.rowsOf t.name)).row? row.id with
    | some row => _
    | _ => _) q = _
  rw [(hc.ordered t ht).row? hr]
  dsimp only
  rw [outcome_bind_ok (show outcome (List.mapM _ [(i, Expr.parameter 1)]) q = (.ok [(i, v)], q) by
      rw [List.mapM_cons, List.mapM_nil, eval]
      rfl),
    outcome_bind_ok hchange]
  rfl

/-- The effect of an update that selects one row. -/
theorem perform_update (h : Layout L) (hc : s.content.Sound L) (ht : t ∈ L) {name : String} {i : Nat}
    (hname : t.columnIndex? name = some i) {column : ColumnInfo} (hi : t.columns[i]? = some column) (hkey : i ≠ 0)
    {v : Value} (hv : v = .null → column.notNull = none) (hlink : ∀ k ∈ t.foreignKeys, k.column = i → IdOrNull v)
    {condition : Expr} {w : Value}
    (hw : eval { content := s.content, params := [v], scopes := [[{ label := t.name, info := t }]] } condition = .ok w)
    (hr : row ∈ s.content.rowsOf t.name)
    (hsel : selectRows s.content [v] ⟨t, s.content.rowsOf t.name⟩ (some condition) = .ok [row]) {after : Content}
    (hafter : after = s.content.onRows t.name fun rows =>
      Stored.insertRow (t.assign i v row) (rows.filter (·.id != row.id)))
    (hlinked : ∀ deferred, orphans after deferred = 0) :
    s.perform (.update { table := t.name, assignments := [(name, .parameter 1)], condition := some condition }) [v] =
      (.ok default, { s with content := after, changes := 1 }) := by
  subst hafter
  have hstep := updateStep_outcome (q := { content := s.content, lastRowId := s.lastRowId }) h hc ht hr hi hkey hv hlink
    s.content
  refine Session.perform_eq (x := [row.id].forM (updateStep s.content [v] t i))
    (q := { content := _, lastRowId := s.lastRowId, count := 1, unsettled := true }) ?_ ?_ fun _ => hlinked
  · show (Update.prepare _ s.content [v]).map _ = _
    rw [Update.prepare_eq h hc ht hname hw hsel]
    rfl
  · exact (outcome_bind_ok hstep).trans rfl

/-- An update that selects no row changes nothing. -/
theorem perform_update_none (h : Layout L) (hc : s.content.Sound L) (ht : t ∈ L) {name : String} {i : Nat}
    (hname : t.columnIndex? name = some i) {params : List Value} {condition : Expr} {w : Value}
    (hw : eval { content := s.content, params, scopes := [[{ label := t.name, info := t }]] } condition = .ok w)
    (hsel : selectRows s.content params ⟨t, s.content.rowsOf t.name⟩ (some condition) = .ok []) :
    s.perform (.update { table := t.name, assignments := [(name, .parameter 1)], condition := some condition }) params =
      (.ok default, { s with changes := 0 }) := by
  refine Session.perform_eq (x := [].forM (updateStep s.content params t i))
    (q := { content := s.content, lastRowId := s.lastRowId }) ?_ rfl (fun hu => nomatch hu)
  show (Update.prepare _ s.content params).map _ = _
  rw [Update.prepare_eq h hc ht hname hw hsel]
  rfl

/-! ## Deletions -/

/-- What a deletion does to one of the rows that it selects. -/
def deleteStep (t : TableInfo) (id : Int) : Change Unit := do
  let some _ := ((← get).content.find? t.name).bind (·.row? id) | return ()
  removeRow actionDepth t.name id
  modify fun p => { p with count := p.count + 1 }

/-- A content without some rows of a table, which nothing is linked to any more. -/
def Content.removedAll (L : List TableInfo) (name : String) (ids : List Int) (c : Content) : Content :=
  ids.foldl (fun c id => c.removed L name id) c

theorem sound_removedAll (h : Layout L) (hc : c.Sound L) (ht : t ∈ L) (ids : List Int) :
    (c.removedAll L t.name ids).Sound L := by
  unfold Content.removedAll
  induction ids generalizing c with
  | nil => exact hc
  | cons id ids ih => exact ih (sound_removed h hc ht id)

theorem Delete.prepare_eq (h : Layout L) (hc : c.Sound L) (ht : t ∈ L) {params : List Value} {condition : Expr}
    {w : Value} (hw : eval { content := c, params, scopes := [[{ label := t.name, info := t }]] } condition = .ok w)
    {rows : List Row} (hsel : selectRows c params ⟨t, c.rowsOf t.name⟩ (some condition) = .ok rows) :
    Delete.prepare { table := t.name, condition := some condition } c params =
      .ok ((rows.map (·.id)).forM (deleteStep t)) := by
  unfold Delete.prepare
  rw [expectTable_eq h hc ht, except_ok_bind]
  dsimp only
  rw [show (some condition).forM ({ content := c, params, scopes := [[{ label := t.name, info := t }]] } : Env).check =
        (.ok () : Except Fault Unit) by
      show Env.check _ condition = _
      unfold Env.check
      rw [hw]
      rfl,
    except_ok_bind, deleteFaults_eq_nil h hc ht]
  show (selectRows c params ⟨t, c.rowsOf t.name⟩ (some condition) >>= _) = _
  rw [hsel]
  rfl

/-- Rows of a table without links to itself are deleted one after the other. -/
theorem forM_deleteStep_outcome (h : Layout L) (ht : t ∈ L) (hself : ∀ k ∈ t.foreignKeys, k.parent ≠ t.name)
    {rows : List Row} (ho : Ordered rows) {q : Progress} (hc : q.content.Sound L)
    (hsub : ∀ row ∈ rows, row ∈ q.content.rowsOf t.name) :
    outcome ((rows.map (·.id)).forM (deleteStep t)) q =
      (.ok (), { q with
        content := q.content.removedAll L t.name (rows.map (·.id))
        count := q.count + rows.length
        unsettled := q.unsettled || !rows.isEmpty }) := by
  induction ho generalizing q with
  | nil =>
    rw [List.isEmpty_nil, Bool.not_true, Bool.or_false]
    rfl
  | @cons row rows hlt ho ih =>
    have hr := hsub row (List.mem_cons_self ..)
    have hremove := removeRow_outcome h hc ht hr 1997
    rw [show 1997 + 4 = actionDepth from rfl] at hremove
    have hstep : outcome (deleteStep t row.id) q =
        (.ok (), { q with
          content := q.content.removed L t.name row.id, count := q.count + 1, unsettled := true }) := by
      unfold deleteStep
      rw [outcome_bind_ok (outcome_get q), hc.find? h ht]
      show outcome (match (Stored.mk t (q.content.rowsOf t.name)).row? row.id with
        | some row => _
        | _ => _) q = _
      rw [(hc.ordered t ht).row? hr]
      dsimp only
      rw [outcome_bind_ok hremove]
      rfl
    have hrest := ih (q := { q with
        content := q.content.removed L t.name row.id, count := q.count + 1, unsettled := true })
      (sound_removed h hc ht row.id) fun other hother => by
        show other ∈ (q.content.removed L t.name row.id).rowsOf t.name
        rw [rowsOf_removed_self h hc ht hself]
        refine List.mem_filter.2 ⟨hsub other (List.mem_cons_of_mem _ hother), ?_⟩
        have := hlt other hother
        simpa using (by omega : other.id ≠ row.id)
    refine (outcome_bind_ok hstep).trans (hrest.trans ?_)
    have hcount : q.count + 1 + rows.length = q.count + (row :: rows).length := by
      rw [List.length_cons]
      omega
    rw [← hcount, List.isEmpty_cons, Bool.not_false, Bool.or_true]
    rfl

/-- The effect of a deletion. -/
theorem perform_delete (h : Layout L) (hc : s.content.Sound L) (ht : t ∈ L)
    (hself : ∀ k ∈ t.foreignKeys, k.parent ≠ t.name) {params : List Value} {condition : Expr} {w : Value}
    (hw : eval { content := s.content, params, scopes := [[{ label := t.name, info := t }]] } condition = .ok w)
    {P : Row → Bool} (hsel : selectRows s.content params ⟨t, s.content.rowsOf t.name⟩ (some condition) =
      .ok ((s.content.rowsOf t.name).filter P)) {ids : List Int}
    (hids : ids = ((s.content.rowsOf t.name).filter P).map (·.id))
    (hlinked : ∀ deferred, orphans (s.content.removedAll L t.name ids) deferred = 0) :
    s.perform (.delete { table := t.name, condition := some condition }) params =
      (.ok default, { s with content := s.content.removedAll L t.name ids, changes := ids.length }) := by
  subst hids
  have hloop := forM_deleteStep_outcome (q := { content := s.content, lastRowId := s.lastRowId }) h ht hself
    ((hc.ordered t ht).filter P) hc fun row hr => (List.mem_filter.1 hr).1
  have hprepare : s.prepare (.delete { table := t.name, condition := some condition }) params =
      .ok (.change ((((s.content.rowsOf t.name).filter P).map (·.id)).forM (deleteStep t))) := by
    show (Delete.prepare _ s.content params).map _ = _
    rw [Delete.prepare_eq h hc ht hw hsel]
    rfl
  rw [Session.perform_eq hprepare hloop fun _ => hlinked, List.length_map]
  dsimp only
  rw [Nat.zero_add]

/-! ## Insertions -/

/-- The highest identifier that the rows of a table have used. -/
def Content.usedId (c : Content) (name : String) : Int :=
  max (((c.rowsOf name).getLast?.map (·.id)).getD 0) (c.sequence name)

/-- New rows get the identifier after the highest one that was used, until that is the highest of all. -/
theorem nextId_eq (ht : t.IsPlain) (c : Content) :
    nextId c ⟨t, c.rowsOf t.name⟩ =
      if c.usedId t.name = maxInt then .error .full else .ok (c.usedId t.name + 1) := by
  unfold nextId Content.usedId Stored.lastId?
  rw [ht.autoincrement]
  cases c.rowsOf t.name <;> rfl

theorem le_usedId (hc : c.Sound L) (ht : t ∈ L) (hr : row ∈ c.rowsOf t.name) :
    row.id ≤ c.usedId t.name :=
  Int.le_trans ((hc.ordered t ht).le_lastId hr) (Int.le_max_left ..)

theorem sound_note (hc : c.Sound L) (name : String) (id : Int) : (c.note name id).Sound L where
  infos := by rw [Content.infos_note, hc.infos]
  ordered t ht := by rw [Content.rowsOf_note]; exact hc.ordered t ht
  fits t ht := by rw [Content.rowsOf_note]; exact hc.fits t ht

theorem sound_insert (h : Layout L) (hc : c.Sound L) (ht : t ∈ L) (hnew : ∀ other ∈ c.rowsOf t.name, other.id ≠ row.id)
    (hfit : row.Fits t) : (c.onRows t.name (Stored.insertRow row)).Sound L :=
  hc.onRows h ht ((hc.ordered t ht).insertRow hnew) fun other ho => by
    rcases Stored.mem_insertRow.1 ho with rfl | ho'
    · exact hfit
    · exact hc.fits t ht other ho'

theorem idsOf_insert (h : Layout L) (hc : c.Sound L) (ht : t ∈ L) {name : String} {n : Int} (hn : n ∈ c.idsOf name) :
    n ∈ (c.onRows t.name (Stored.insertRow row)).idsOf name := by
  unfold Content.idsOf at *
  by_cases hname : sameName t.name name = true
  · rw [← Content.rowsOf_congr _ hname] at hn ⊢
    rw [Content.rowsOf_onRows_self (hc.apart h) (hc.infos ▸ ht)]
    obtain ⟨other, ho, hid⟩ := List.mem_map.1 hn
    exact List.mem_map.2 ⟨other, Stored.mem_insertRow.2 (.inr ho), hid⟩
  · rw [Content.rowsOf_onRows_of_ne (by simpa using hname)]
    exact hn

/-- The values of a new row: they leave out nothing that must be given, and links lead to rows. -/
structure Admissible (c : Content) (t : TableInfo) (values : List Value) : Prop where
  length : values.length = t.columns.length
  notNull : ∀ (i : Nat) column, i ≠ 0 → t.columns[i]? = some column → values[i]? = some .null → column.notNull = none
  links : ∀ k ∈ t.foreignKeys, values.getD k.column .null = .null ∨
    ∃ n, values.getD k.column .null = .integer n ∧ n ∈ c.idsOf k.parent

theorem Admissible.fits (h : Layout L) (ht : t ∈ L) {values : List Value} (ha : Admissible c t values) (id : Int) :
    (convert t id values).Fits t :=
  fits_convert (h.plain t ht) (fun k hk => (h.links t ht k hk).imp fun _ hp => hp.2) ha.length fun k hk =>
    (ha.links k hk).imp (fun hv => hv) fun ⟨n, hn, _⟩ => ⟨n, hn⟩

theorem Admissible.note {values : List Value} (ha : Admissible c t values) (name : String) (id : Int) :
    Admissible (c.note name id) t values := by
  refine ⟨ha.length, ha.notNull, fun k hk => (ha.links k hk).imp_right fun hlink => ?_⟩
  unfold Content.idsOf at *
  rw [Content.rowsOf_note]
  exact hlink

/-- Admissible values are not filled up. -/
theorem Admissible.fillNulls_eq (ht : t.IsPlain) {values : List Value} (ha : Admissible c t values)
    (override : Option Conflict) (q : Progress) :
    outcome (fillNulls override t (fun _ => true) 0 t.columns values) q = (.ok (some values), q) := by
  refine fillNulls_outcome 0 _ _ fun j column v hcol hv hnull _ hkey => ?_
  rw [ht.key, Nat.zero_add, ne_eq, Option.some.injEq] at hkey
  exact ha.notNull j column (Ne.symm hkey) hcol (hnull ▸ hv)

/-- A row with a new identifier has no rivals. -/
theorem clearRow_new (h : Layout L) {q : Progress} (hc : q.content.Sound L) (ht : t ∈ L)
    (hnew : ∀ other ∈ q.content.rowsOf t.name, other.id ≠ row.id) (override : Option Conflict) :
    outcome (clearRow actionDepth override t none row (uniquenesses t)) q = (.ok true, q) := by
  have hrivals : (q.content.rowsOf t.name).filter (fun other =>
      some other.id != none && Uniqueness.key.clash row other) = [] := by
    rw [List.filter_eq_nil_iff]
    intro other ho
    have := hnew other ho
    simpa [Uniqueness.clash] using Ne.symm this
  rw [uniquenesses_eq (h.plain t ht), show actionDepth = 2000 + 1 from rfl, clearRow, List.forIn_cons]
  rw [outcome_bind, outcome_bind]
  dsimp only
  rw [outcome_bind_ok (outcome_get q), show q.content.find? t.name = _ from hc.find? h ht]
  dsimp only
  rw [hrivals]
  rfl

/-- The links of admissible values lead to rows, also those to the new row's own table. -/
theorem Admissible.ownOrphan_eq (h : Layout L) (hc : c.Sound L) (ht : t ∈ L) {values : List Value}
    (ha : Admissible c t values) {id : Int} (hnew : ∀ other ∈ c.rowsOf t.name, other.id ≠ id) :
    ownOrphan c t (convert t id values) = false := by
  have hfit := ha.fits h ht id
  have hinsert : (c.onRows t.name (Stored.insertRow (convert t id values))).Sound L := sound_insert h hc ht hnew hfit
  unfold ownOrphan
  rw [List.any_eq_false]
  intro k hk
  have hlinked : isOrphan (c.update t.name (·.insert (convert t id values))) t k (convert t id values) = false := by
    rw [Bool.eq_false_iff]
    intro horphan
    obtain ⟨n, hn, hmissing⟩ := (isOrphan_iff h hinsert ht hk hfit).1 horphan
    obtain ⟨p, -, hlink⟩ := h.links t ht k hk
    rw [value_convert_link (h.plain t ht) hlink _ ha.length
      ((ha.links k hk).imp_right (Exists.imp fun _ => And.left))] at hn
    rcases ha.links k hk with hv | ⟨m, hv, hm⟩
    · rw [hv] at hn
      cases hn
    · rw [hv] at hn
      cases hn
      exact hmissing (idsOf_insert h hc ht hm)
  rw [hlinked, Bool.and_false]
  exact Bool.false_ne_true

theorem any_deferred_eq (h : Layout L) (ht : t ∈ L) : t.foreignKeys.any (·.deferred) = false := by
  rw [List.any_eq_false]
  intro k hk
  obtain ⟨p, -, hlink⟩ := h.links t ht k hk
  rw [hlink.deferred]
  exact Bool.false_ne_true

/-- In a layout a row with admissible values and a new identifier can be added. -/
theorem addRow_outcome (h : Layout L) {q : Progress} (hc : q.content.Sound L) (ht : t ∈ L) {key : Value} {id : Int}
    (hid : key = .null ∧ nextId q.content ⟨t, q.content.rowsOf t.name⟩ = .ok id ∨ key = .integer id)
    (hnew : ∀ other ∈ q.content.rowsOf t.name, other.id ≠ id) {values : List Value}
    (ha : Admissible q.content t values) (override : Option Conflict) :
    outcome (addRow override true t.name key values) q =
      (.ok (), { q with
        content := (q.content.note t.name id).onRows t.name (Stored.insertRow (convert t id values))
        lastRowId := id
        count := q.count + 1 }) := by
  have hplain := h.plain t ht
  have hnote := sound_note hc t.name id
  have hnew' : ∀ other ∈ (q.content.note t.name id).rowsOf t.name, other.id ≠ id := by
    rw [Content.rowsOf_note]
    exact hnew
  -- the steps of the insertion, each on the content where the identifier has been noted
  let noted : Progress := { q with content := q.content.note t.name id }
  have hfill := ha.fillNulls_eq hplain override noted
  have hclear : outcome (clearRow actionDepth override t none (convert t id values) (uniquenesses t)) noted =
      (.ok true, noted) := clearRow_new h hnote ht hnew' override
  have howned : ownOrphan noted.content t (convert t id values) = false :=
    (ha.note t.name id).ownOrphan_eq h hnote ht hnew'
  have hdeferred := any_deferred_eq h ht
  unfold addRow
  rw [outcome_bind_ok (outcome_get q)]
  extract_lets content
  rw [show content.find? t.name = _ from hc.find? h ht]
  dsimp -zeta only
  extract_lets info add
  have hadd : outcome (add id) q = (.ok (), { q with
      content := (q.content.note t.name id).onRows t.name (Stored.insertRow (convert t id values))
      lastRowId := id
      count := q.count + 1 }) := by
    unfold add
    dsimp only [info]
    rw [if_pos hplain.autoincrement, outcome_bind_ok (show outcome (modifyContent _) q = (.ok (), noted) from rfl),
      outcome_bind_ok hfill]
    dsimp only
    rw [hplain.checks, outcome_bind_ok (show outcome (passesChecks override t _ []) noted = (.ok true, noted) from rfl),
      if_neg (by simp), outcome_bind_ok hclear, if_neg (by simp), outcome_bind_ok (outcome_get noted), howned,
      if_neg (by simp), outcome_modify, hdeferred]
    simp only [noted, Bool.not_true, Bool.or_false]
    rfl
  -- where the identifier comes from
  rcases hid with ⟨rfl, hid⟩ | rfl <;> dsimp only
  · rw [show nextId content _ = _ from hid]
    dsimp only
    rw [outcome_bind_ok (outcome_pure id q)]
    exact hadd
  · rw [outcome_bind_ok (show outcome (Change.ofExcept (keyOf (.integer id))) q = (.ok id, q) from rfl)]
    exact hadd

theorem mapIdxM_go_eq_ok {α β ε : Type} {f : Nat → α → Except ε β} {g : Nat → α → β} {l : List α} {acc : Array β}
    (h : ∀ i a, l[i]? = some a → f (acc.size + i) a = .ok (g (acc.size + i) a)) :
    List.mapIdxM.go f l acc = .ok (acc.toList ++ l.mapIdx fun i => g (acc.size + i)) := by
  induction l generalizing acc with
  | nil => exact congrArg Except.ok (List.append_nil _).symm
  | cons a l ih =>
    rw [List.mapIdxM.go, show f acc.size a = .ok (g acc.size a) from h 0 a rfl, except_ok_bind, ih]
    · have hnext : (fun i => g (acc.size + 1 + i)) = fun i => g (acc.size + (i + 1)) := by
        funext i
        rw [Nat.add_assoc, Nat.add_comm 1 i]
      rw [List.mapIdx_cons, Array.toList_push, List.append_assoc, Array.size_push, hnext]
      rfl
    · intro i b hb
      rw [Array.size_push, Nat.add_assoc, Nat.add_comm 1 i]
      exact h (i + 1) b hb

theorem mapIdxM_eq_ok {α β ε : Type} {f : Nat → α → Except ε β} {g : Nat → α → β} {l : List α}
    (h : ∀ i a, l[i]? = some a → f i a = .ok (g i a)) : l.mapIdxM f = .ok (l.mapIdx g) := by
  unfold List.mapIdxM
  rw [mapIdxM_go_eq_ok (g := g) fun i a ha => by
    rw [Array.size_empty, Nat.zero_add]
    exact h i a ha]
  simp

/-- The value that is given for a column. -/
def givenAt (places : List Nat) (given : List Value) (i : Nat) : Value :=
  (((places.zip given).find? (·.1 == i)).map (·.2)).getD .null

theorem find?_zip_some (places : List Nat) (given : List Value) (i : Nat) :
    (((places.map some).zip given).find? (·.1 == some i)).map (·.2) =
      ((places.zip given).find? (·.1 == i)).map (·.2) := by
  rw [List.zip_map_left, List.find?_map, Option.map_map]
  rfl

theorem find?_zip_none (places : List Nat) (given : List Value) :
    ((places.map some).zip given).find? (·.1 == none) = none := by
  rw [List.zip_map_left, List.find?_map, Option.map_eq_none_iff, List.find?_eq_none]
  exact fun _ _ h => nomatch h

/-- A new row has what is given, and nothing elsewhere. -/
theorem newRow_eq (ht : t.IsPlain) (places : List Nat) (given : List Value) :
    newRow t (places.map some) given =
      .ok (givenAt places given 0, t.columns.mapIdx fun i _ => givenAt places given i) := by
  unfold newRow
  dsimp only
  rw [mapIdxM_eq_ok (g := fun i _ => givenAt places given i) fun i c hc => ?_, except_ok_bind, ht.key]
  · dsimp only
    rw [find?_zip_some, find?_zip_none]
    unfold givenAt
    cases ((places.zip given).find? (·.1 == 0)).map (·.2) <;> rfl
  · rw [find?_zip_some]
    unfold givenAt
    cases ((places.zip given).find? (·.1 == i)).map (·.2) with
    | some v => rfl
    | none =>
      dsimp only
      unfold defaultValue
      rw [(ht.columns c (List.mem_of_getElem? hc)).2]
      rfl

/-- An insertion of one row whose values are given. -/
theorem Insert.prepare_eq (h : Layout L) (hc : c.Sound L) (ht : t ∈ L) {conflict : Option Conflict}
    (hconflict : conflict = none ∨ conflict = some .ignore) {names : List String} {places : List Nat}
    (hplaces : columnPlaces t t.name names = .ok (places.map some)) {exprs : List Expr} {params given : List Value}
    (hgiven : evalAll { content := c, params } exprs = .ok given) (hlen : given.length = places.length) :
    Insert.prepare { conflict, table := t.name, columns := some names, rows := some [exprs] } c params =
      .ok ([(givenAt places given 0, t.columns.mapIdx fun i _ => givenAt places given i)].forM fun row =>
        addRow conflict true t.name row.1 row.2) := by
  have hreplace : ∀ keyGiven given, mayReplace conflict t keyGiven given = false := by
    intro keyGiven given
    rcases hconflict with rfl | rfl
    · exact mayReplace_eq (h.plain t ht) _ _
    · unfold mayReplace
      rw [uniquenesses_eq (h.plain t ht)]
      rfl
  -- what is left to prepare once the values are known
  have hrest : (do
      let rows ← [(places.map some, given)].mapM fun r => newRow t r.1 r.2
      reportLast ((if false = true then deleteFaults preparedDepth c t else []) ++
        (referenceFault? c t (fun _ => true) fun k => !(decide (rows.length = 1) && !false) || k.deferred).toList)
      return rows.forM fun r => addRow conflict (decide (rows.length = 1) && !false) t.name r.1 r.2 :
        Except Fault (Change Unit)) =
      .ok ([(givenAt places given 0, t.columns.mapIdx fun i _ => givenAt places given i)].forM fun row =>
        addRow conflict true t.name row.1 row.2) := by
    rw [List.mapM_cons, List.mapM_nil, newRow_eq (h.plain t ht), except_ok_bind]
    show (reportLast ((if false = true then _ else []) ++ (referenceFault? c t _ _).toList) >>= _) = _
    rw [referenceFault?_eq_none h hc ht]
    rfl
  unfold Insert.prepare
  rw [expectTable_eq h hc ht, except_ok_bind]
  dsimp only
  rw [hplaces, except_ok_bind]
  simp only [hreplace]
  rw [if_neg (by simp), show List.mapM _ [exprs] = (.ok [(places.map some, given)] : Except Fault _) by
      rw [List.mapM_cons, List.mapM_nil, hgiven]
      rfl,
    except_ok_bind]
  cases places with
  | nil => exact hrest
  | cons place places =>
    show (if (given.length != ((place :: places).map some).length) = true then _ else _) = _
    rw [if_neg (by rw [List.length_map, hlen]; simp)]
    exact hrest

/-- An insertion of one row of nulls. -/
theorem Insert.prepare_default_eq (h : Layout L) (hc : c.Sound L) (ht : t ∈ L) (params : List Value) :
    Insert.prepare { table := t.name } c params =
      .ok ([(.null, t.columns.mapIdx fun _ _ => .null)].forM fun row => addRow none true t.name row.1 row.2) := by
  have hrow := newRow_eq (h.plain t ht) [] []
  unfold Insert.prepare
  rw [expectTable_eq h hc ht, except_ok_bind]
  dsimp only
  rw [show (pure (if (none : Option (List (List Expr))).isNone = true then [] else
      (List.range t.columns.length).map some) : Except Fault (List (Option Nat))) = .ok [] from rfl, except_ok_bind]
  simp only [mayReplace_eq (h.plain t ht)]
  rw [show (pure [([], [])] : Except Fault (List (List (Option Nat) × List Value))) = .ok [([], [])] from rfl,
    except_ok_bind]
  show (List.mapM (fun r : List (Option Nat) × List Value => newRow t r.1 r.2) [([], [])] >>= _) = _
  rw [List.mapM_cons, List.mapM_nil, show newRow t [] [] = _ from hrow, except_ok_bind]
  show (reportLast ((if false = true then _ else []) ++ (referenceFault? c t _ _).toList) >>= _) = _
  rw [referenceFault?_eq_none h hc ht]
  rfl

/-! ### The effect of an insertion -/

/-- A content with a new row. -/
def Content.inserted (c : Content) (t : TableInfo) (id : Int) (values : List Value) : Content :=
  (c.note t.name id).onRows t.name (Stored.insertRow (convert t id values))

/-- An insertion that is prepared as the addition of one row. -/
def Insert.Adds (i : Insert) (c : Content) (params : List Value) (t : TableInfo) (key : Value) (values : List Value) :
    Prop :=
  ∃ conflict, i.prepare c params = .ok ([(key, values)].forM fun row => addRow conflict true t.name row.1 row.2)

/-- The effect of an insertion, which chooses the identifier of its row or is given a new one. -/
theorem perform_insert (h : Layout L) (hc : s.content.Sound L) (ht : t ∈ L) {i : Insert} {params values : List Value}
    {key : Value} (hi : i.Adds s.content params t key values) (ha : Admissible s.content t values) {id : Int}
    (hid : key = .null ∧ s.content.usedId t.name ≠ maxInt ∧ id = s.content.usedId t.name + 1 ∨
      key = .integer id ∧ ∀ other ∈ s.content.rowsOf t.name, other.id ≠ id) :
    s.perform (.insert i) params =
      (.ok default, { s with content := s.content.inserted t id values, lastRowId := id, changes := 1 }) := by
  obtain ⟨conflict, hprepare⟩ := hi
  have hnext := nextId_eq (h.plain t ht) s.content
  have hkey : key = .null ∧ nextId s.content ⟨t, s.content.rowsOf t.name⟩ = .ok id ∨ key = .integer id := by
    refine hid.imp (fun ⟨hk, hroom, hid⟩ => ⟨hk, ?_⟩) (·.1)
    rw [hnext, if_neg hroom, hid]
  have hnew : ∀ other ∈ s.content.rowsOf t.name, other.id ≠ id := by
    intro other ho
    rcases hid with ⟨-, -, hid⟩ | ⟨-, hnew⟩
    · have := le_usedId hc ht ho
      omega
    · exact hnew other ho
  have hadd := addRow_outcome (q := { content := s.content, lastRowId := s.lastRowId }) h hc ht hkey hnew ha conflict
  refine Session.perform_eq (x := [(key, values)].forM fun row => addRow conflict true t.name row.1 row.2)
    (q := { content := s.content.inserted t id values, lastRowId := id, count := 1 }) ?_
    ((outcome_bind_ok hadd).trans rfl) fun hu => nomatch hu
  show (i.prepare s.content params).map _ = _
  rw [hprepare]
  rfl

/-- An insertion that chooses the identifier of its row fails when these are used up. -/
theorem perform_insert_full (h : Layout L) (hc : s.content.Sound L) (ht : t ∈ L) {i : Insert}
    {params values : List Value} (hi : i.Adds s.content params t .null values)
    (hfull : s.content.usedId t.name = maxInt) : (s.perform (.insert i) params).1 = .error .full := by
  obtain ⟨conflict, hprepare⟩ := hi
  have hnext := nextId_eq (h.plain t ht) s.content
  rw [if_pos hfull] at hnext
  let q : Progress := { content := s.content, lastRowId := s.lastRowId }
  have hadd : outcome (addRow conflict true t.name .null values) q = (.error ⟨.full, .rollback⟩, q) := by
    unfold addRow
    rw [outcome_bind_ok (outcome_get q)]
    dsimp only
    rw [show q.content.find? t.name = _ from hc.find? h ht]
    dsimp only
    rw [show nextId q.content _ = _ from hnext]
    rfl
  have hforM : outcome ([(Value.null, values)].forM fun row => addRow conflict true t.name row.1 row.2) q =
      (.error ⟨.full, .rollback⟩, q) := by
    show outcome (addRow conflict true t.name .null values >>= fun _ => _) q = _
    rw [outcome_bind, hadd]
  have hperform : s.perform (.insert i) params = Session.run.done (s.change
      ([(Value.null, values)].forM fun row => addRow conflict true t.name row.1 row.2)) := by
    unfold Session.perform Session.prepare
    dsimp only
    rw [hprepare]
    rfl
  have hchange : s.change ([(Value.null, values)].forM fun row => addRow conflict true t.name row.1 row.2) =
      s.finish (.error ⟨.full, .rollback⟩) q := by
    unfold Session.change
    rw [show ([(Value.null, values)].forM fun row => addRow conflict true t.name row.1 row.2).run.run
      { content := s.content, lastRowId := s.lastRowId } = _ from hforM]
  rw [hperform, hchange]
  rfl

end GuardedConfig.Sql
