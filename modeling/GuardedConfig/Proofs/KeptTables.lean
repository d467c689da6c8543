import GuardedConfig.Proofs.Content
import GuardedConfig.Proofs.Reachable
import GuardedConfig.Proofs.Savepoint

/-!
# `Proofs.KeptTables` — requests change rows, never tables

A row that goes can take other rows with it, and a row that changes can change others, as deep as actions nest. But all
of it happens to rows: whatever insertions, changes and deletions do, and whether they succeed or not, the same tables
with the same definitions are there afterwards.

## Contents

* `KeepsTables`, `Rowwise`, `RowsAlone`, `rowsAlone` — removing and changing rows, by induction on the depth
* `addRow_keeps`, `preparesKept_insert`, `preparesKept_update`, `preparesKept_delete` — statements
* `Session.perform_insert_eq_ok`, `Session.infos_perform_insert`
* `Session.HasTables`, `Store.kept_hasTables` — what requests keep
-/

namespace GuardedConfig

namespace Sql

/-! ## Steps that change nothing -/

section Constraints

variable {I : Progress → Prop}

theorem halt_keeps {α : Type} (f : Fault) (how : Conflict) : Keeps I I (halt f how : Change α) :=
  .throw (fun _ h => h) _

theorem changeOfExcept_keeps {α : Type} (r : Except Fault α) : Keeps I I (Change.ofExcept r) := by
  cases r with
  | ok a => exact .pure a
  | error f => exact halt_keeps f .abort

theorem fillNulls_keeps (override : Option Conflict) (t : TableInfo) (relevant : Nat → Bool) (i : Nat)
    (columns : List ColumnInfo) (values : List Value) : Keeps I I (fillNulls override t relevant i columns values) := by
  induction columns generalizing i values with
  | nil =>
    unfold fillNulls
    exact .pure _
  | cons c cs ih =>
    cases values with
    | nil =>
      unfold fillNulls
      exact .pure _
    | cons v vs =>
      have hkeep : ∀ w, Keeps I I (do return (← fillNulls override t relevant (i + 1) cs vs).map (w :: ·) :
          Change (Option (List Value))) := fun w => .bind (ih (i + 1) vs) fun _ => .pure _
      rw [fillNulls]
      split
      · exact hkeep v
      · split
        · exact .pure _
        · refine .bind (changeOfExcept_keeps _) fun w => ?_
          split
          · exact halt_keeps _ _
          · exact hkeep _
        · exact halt_keeps _ _

theorem passesChecks_keeps (override : Option Conflict) (t : TableInfo) (row : Row) (checks : List CheckInfo) :
    Keeps I I (passesChecks override t row checks) := by
  induction checks with
  | nil => exact .pure _
  | cons k ks ih =>
    unfold passesChecks
    refine .bind .get fun p => .bind (changeOfExcept_keeps _) fun v => ?_
    dsimp only
    split
    · split
      · exact .pure _
      all_goals exact .bind (halt_keeps _ _) fun _ => ih
    · exact ih

end Constraints

/-! ## Rows -/

variable {infos : List TableInfo} {fuel : Nat}

/-- A content with some tables, whatever rows they have. -/
def Progress.Has (infos : List TableInfo) (p : Progress) : Prop := p.content.infos = infos

/-- A step of a statement that leaves the tables, whether or not it stops. -/
abbrev KeepsTables (infos : List TableInfo) {α : Type} (step : Change α) : Prop :=
  Keeps (Progress.Has infos) (Progress.Has infos) step

/-- What holds of a progress whatever rows its tables have. -/
def Rowwise (I : Progress → Prop) : Prop :=
  ∀ (p : Progress) (name : String) (f : Stored → Stored), (∀ s, (f s).info = s.info) → I p →
    I { p with content := p.content.update name f, unsettled := true }

theorem Content.infos_update (c : Content) (name : String) {f : Stored → Stored} (hf : ∀ s, (f s).info = s.info) :
    (c.update name f).infos = c.infos := by
  show (c.tables.map _).map _ = c.tables.map _
  rw [List.map_map]
  refine List.map_congr_left fun s _ => ?_
  show (if s.hasName name then f s else s).info = s.info
  split
  · exact hf s
  · rfl

theorem rowwise_has (infos : List TableInfo) : Rowwise (Progress.Has infos) :=
  fun p name _ hf hp => (Content.infos_update p.content name hf).trans hp

theorem unsettle_keeps {I : Progress → Prop} (hI : Rowwise I) {name : String} {f : Stored → Stored}
    (hf : ∀ s, (f s).info = s.info) : Keeps I I (unsettle fun c => c.update name f) :=
  .modify fun p hp => hI p name f hf hp

/-- Rows are removed and changed, and nothing else, where actions nest at most so deep. -/
structure RowsAlone (I : Progress → Prop) (fuel : Nat) : Prop where
  remove : ∀ table id, Keeps I I (removeRow fuel table id)
  act : ∀ parent child pairs action old new, Keeps I I (act fuel parent child pairs action old new)
  clear : ∀ override t self row us, Keeps I I (clearRow fuel override t self row us)
  change : ∀ override table id assigned, Keeps I I (changeRow fuel override table id assigned)

namespace RowsAlone

variable {I : Progress → Prop} (h : RowsAlone I fuel)
include h

theorem removeOne (hI : Rowwise I) (table : String) (id : Int) : Keeps I I (removeRow (fuel + 1) table id) := by
  unfold removeRow
  refine .bind .get fun p => ?_
  split
  · split
    · refine .bind (unsettle_keeps hI fun _ => rfl) fun _ => .bind .get fun q => ?_
      refine .bind (.forIn (fun r _ => ?_) _ _) fun _ => .pure _
      exact .bind .get fun _ => .bind (changeOfExcept_keeps _) fun _ => .bind (h.act _ _ _ _ _ _) fun _ => .pure _
    · exact .pure _
  · exact .pure _

theorem actOnce (parent : TableInfo) (child : String) (pairs : List (Nat × Nat)) (action : ReferenceAction) (old : Row)
    (new : Option Row) : Keeps I I (Sql.act (fuel + 1) parent child pairs action old new) := by
  unfold Sql.act
  refine .bind .get fun p => ?_
  split
  · dsimp only
    split
    · exact .pure _
    · split
      · exact .pure _
      · exact halt_keeps _ _
    · refine .bind (.forIn (fun row _ => ?_) _ _) fun _ => .pure _
      split
      · exact .bind (h.remove _ _) fun _ => .pure _
      · exact .bind (h.change _ _ _ _) fun _ => .pure _
    · exact .bind (.forIn (fun row _ => .bind (h.change _ _ _ _) fun _ => .pure _) _ _) fun _ => .pure _
    · refine .bind (.mapM (fun pair => ?_) _) fun values =>
        .bind (.forIn (fun row _ => .bind (h.change _ _ _ _) fun _ => .pure _) _ _) fun _ => .pure _
      split
      · exact .bind (changeOfExcept_keeps _) fun _ => .pure _
      · exact .pure _
  · exact .pure _

theorem clearOnce (override : Option Conflict) (t : TableInfo) (self : Option Int) (row : Row) (us : List Uniqueness) :
    Keeps I I (clearRow (fuel + 1) override t self row us) := by
  unfold clearRow
  refine .bind (.forIn (fun u _ => .bind .get fun p => ?_) _ _) fun r => ?_
  · dsimp only
    split
    · split
      · split
        · exact .pure _
        · exact .bind (.forIn (fun rival _ => .bind (h.remove _ _) fun _ => .pure _) _ _) fun _ => .pure _
        · exact .bind (halt_keeps _ _) fun _ => .pure _
      · exact .pure _
    · exact .pure _
  · dsimp only
    split <;> exact .pure _

theorem changeOnce (hI : Rowwise I) (override : Option Conflict) (table : String) (id : Int) (assigned : List (Nat × Value)) :
    Keeps I I (changeRow (fuel + 1) override table id assigned) := by
  unfold changeRow
  refine .bind .get fun p => ?_
  split
  · split
    · rename_i stored _ old _
      extract_lets t changed values withId
      have hwithId : ∀ newId, Keeps I I (withId newId) := by
        intro newId
        unfold withId
        refine .bind (fillNulls_keeps _ _ _ _ _ _) fun filled => ?_
        split
        · extract_lets row names
          refine .bind (passesChecks_keeps _ _ _ _) fun passed => ?_
          split
          · exact .pure _
          · refine .bind (h.clear _ _ _ _ _) fun cleared => ?_
            split
            · exact .pure _
            · refine .bind (unsettle_keeps hI fun _ => rfl) fun _ => .bind .get fun q => ?_
              refine .bind (.forIn (fun r _ => .bind .get fun _ => ?_) _ _) fun _ => .pure _
              split
              · split
                · exact .bind (h.act _ _ _ _ _ _) fun _ => .pure _
                · exact .pure _
              · split
                · exact .bind (halt_keeps _ _) fun _ => .pure _
                · exact .pure _
        · exact .pure _
      split
      · split
        · exact .bind (changeOfExcept_keeps _) hwithId
        · exact .bind (.pure _) hwithId
      · exact .bind (.pure _) hwithId
    · exact .pure _
  · exact .pure _

end RowsAlone

/-- Whatever rows are removed and changed on the way, what does not depend on rows stays. -/
theorem rowsAlone {I : Progress → Prop} (hI : Rowwise I) (fuel : Nat) : RowsAlone I fuel := by
  induction fuel with
  | zero =>
    refine ⟨fun _ _ => ?_, fun _ _ _ _ _ _ => ?_, fun _ _ _ _ _ => ?_, fun _ _ _ _ => ?_⟩
    · unfold removeRow
      exact halt_keeps _ _
    · unfold act
      exact halt_keeps _ _
    · unfold clearRow
      exact halt_keeps _ _
    · unfold changeRow
      exact halt_keeps _ _
  | succ fuel ih => exact ⟨ih.removeOne hI, ih.actOnce, ih.clearOnce, ih.changeOnce hI⟩

/-! ## Statements -/

theorem addRow_keeps (infos : List TableInfo) (override : Option Conflict) (alone : Bool) (table : String) (key : Value)
    (values : List Value) : KeepsTables infos (addRow override alone table key values) := by
  have hnote : ∀ name id, KeepsTables infos (modifyContent (·.note name id)) :=
    fun name id => .modify fun p hp => (Content.infos_note p.content name id).trans hp
  unfold addRow
  refine .bind .get fun p => ?_
  extract_lets content
  -- the parts of the insertion from outside in: `add` notes the identifier, `insert` checks the row, `finish` puts it
  split
  · extract_lets t add
    have hadd : ∀ id, KeepsTables infos (add id) := by
      intro id
      unfold add
      extract_lets insert
      have hinsert : KeepsTables infos (insert ()) := by
        refine .bind (fillNulls_keeps _ _ _ _ _ _) fun filled => ?_
        split
        · refine .bind (passesChecks_keeps _ _ _ _) fun passed => ?_
          split
          · exact .pure _
          · refine .bind ((rowsAlone (rowwise_has infos) actionDepth).clear _ _ _ _ _) fun cleared => ?_
            split
            · exact .pure _
            · refine .bind .get fun p => ?_
              extract_lets finish
              have hfinish : ∀ u, KeepsTables infos (finish u) :=
                fun u => .modify fun p hp => (Content.infos_onRows p.content table _).trans hp
              split
              · exact .bind (halt_keeps _ _) hfinish
              · exact hfinish ()
        · exact .pure _
      split
      · exact .bind (hnote _ _) fun _ => hinsert
      · exact hinsert
    split
    · split
      · exact .bind (.pure _) hadd
      · exact .bind (halt_keeps _ _) hadd
    · exact .bind (changeOfExcept_keeps _) hadd
  · exact .pure _

/-- What is prepared, if anything, keeps the tables. -/
def PreparesKept (infos : List TableInfo) (r : Except Fault (Change Unit)) : Prop := ∀ op, r = .ok op → KeepsTables infos op

theorem PreparesKept.bind {α : Type} {r : Except Fault α} {f : α → Except Fault (Change Unit)}
    (h : ∀ a, PreparesKept infos (f a)) : PreparesKept infos (r >>= f) := by
  intro op hok
  obtain ⟨a, -, hok⟩ := except_bind_eq_ok.1 hok
  exact h a op hok

theorem PreparesKept.ok {op : Change Unit} (h : KeepsTables infos op) : PreparesKept infos (.ok op) := by
  rintro _ ⟨⟩
  exact h

theorem preparesKept_insert (infos : List TableInfo) (i : Insert) (c : Content) (params : List Value) :
    PreparesKept infos (i.prepare c params) := by
  unfold Insert.prepare
  refine .bind fun stored => ?_
  extract_lets t env withPlaces
  have hplaces : ∀ places, PreparesKept infos (withPlaces places) := by
    intro places
    unfold withPlaces
    extract_lets anyWidth withRows
    have hrows : ∀ rows, PreparesKept infos (withRows rows) := by
      intro rows
      unfold withRows
      extract_lets checked
      have hchecked : ∀ u, PreparesKept infos (checked u) := fun _ => .bind fun rows => .bind fun _ =>
        .ok (.forM fun row _ => addRow_keeps infos _ _ _ _ _)
      split
      · split
        · split <;> exact .bind hchecked
        · exact hchecked ()
      · exact hchecked ()
    split
    · exact .bind hrows
    · extract_lets evaluated
      have hevaluated : ∀ u, PreparesKept infos (evaluated u) := fun _ => .bind hrows
      split
      · exact .bind hevaluated
      · exact hevaluated ()
  split
  · exact .bind hplaces
  · exact .bind hplaces

theorem count_keeps : KeepsTables infos (modify fun p => { p with count := p.count + 1 }) := .modify fun _ hp => hp

theorem preparesKept_update (infos : List TableInfo) (u : Update) (c : Content) (params : List Value) :
    PreparesKept infos (u.prepare c params) := by
  unfold Update.prepare
  refine .bind fun stored => ?_
  extract_lets t env
  refine .bind fun places => .bind fun _ => ?_
  extract_lets changed replaces
  refine .bind fun _ => .bind fun rows => .ok (.forM fun id _ => .bind .get fun p => ?_)
  split
  · refine .bind (.mapM (fun place => .bind (changeOfExcept_keeps _) fun _ => .pure _) _) fun assigned => ?_
    refine .bind ((rowsAlone (rowwise_has infos) actionDepth).change _ _ _ _) fun changed => ?_
    split
    · exact count_keeps
    · exact .pure _
  · exact .pure _

theorem preparesKept_delete (infos : List TableInfo) (d : Delete) (c : Content) (params : List Value) :
    PreparesKept infos (d.prepare c params) := by
  unfold Delete.prepare
  refine .bind fun stored => ?_
  extract_lets t env
  refine .bind fun _ => .bind fun _ => .bind fun rows => .ok (.forM fun id _ => .bind .get fun p => ?_)
  split
  · exact .bind ((rowsAlone (rowwise_has infos) actionDepth).remove _ _) fun _ => count_keeps
  · exact .pure _

/-! ## Sessions -/

/-- A session with some tables, now and when each of its savepoints was opened. -/
structure Session.HasTables (infos : List TableInfo) (s : Session) : Prop where
  content : s.content.infos = infos
  saved : ∀ p ∈ s.saved, p.2.infos = infos

namespace Session

variable {s : Session}

/-- A statement that ends well has run through, and what it has done is kept. -/
theorem finish_eq_ok {s after : Session} {r : Except Stop Unit} {q : Progress} {u : Unit}
    (hok : s.finish r q = (.ok u, after)) :
    r = .ok () ∧ after = { s with content := q.content, lastRowId := q.lastRowId, changes := q.count } := by
  unfold Session.finish at hok
  extract_lets stop kept at hok
  have hstop : stop = none := by
    generalize stop = found at hok
    rcases found with _ | ⟨f, how⟩
    · rfl
    · cases how <;> cases hok
  rcases r with ⟨f, how⟩ | ⟨⟩
  · unfold stop at hstop
    cases how with
    | fail => cases hreferences : s.checkReferences q <;> simp [hreferences] at hstop
    | _ => cases hstop
  · rw [hstop] at hok
    exact ⟨rfl, (congrArg Prod.snd hok).symm⟩

theorem change_eq_ok {s after : Session} {op : Change Unit} {u : Unit} (hok : s.change op = (.ok u, after)) :
    ∃ q, outcome op { content := s.content, lastRowId := s.lastRowId } = (.ok (), q) ∧
      after = { s with content := q.content, lastRowId := q.lastRowId, changes := q.count } := by
  obtain ⟨hr, hafter⟩ := finish_eq_ok
    (show s.finish (outcome op { content := s.content, lastRowId := s.lastRowId }).1 (outcome op _).2 = _ from hok)
  exact ⟨_, Prod.ext hr rfl, hafter⟩

/-- An insertion that succeeds has been prepared, has run through, and what it has done is kept. -/
theorem perform_insert_eq_ok {s after : Session} {i : Insert} {params : List Value} {result : Sql.Result}
    (hok : s.perform (.insert i) params = (.ok result, after)) :
    ∃ op q, i.prepare s.content params = .ok op ∧
      outcome op { content := s.content, lastRowId := s.lastRowId } = (.ok (), q) ∧
      after = { s with content := q.content, lastRowId := q.lastRowId, changes := q.count } := by
  have hprepare : s.prepare (.insert i) params = (i.prepare s.content params).map Session.Prepared.change := rfl
  unfold Session.perform at hok
  rw [hprepare] at hok
  cases hop : i.prepare s.content params with
  | error f =>
    rw [hop] at hok
    cases hok
  | ok op =>
    rw [hop] at hok
    change Session.run.done (s.change op) = _ at hok
    rcases hchange : s.change op with ⟨f | u, last⟩
    · rw [hchange] at hok
      cases hok
    · rw [hchange] at hok
      cases hok
      obtain ⟨q, hq, hafter⟩ := change_eq_ok hchange
      exact ⟨op, q, rfl, hq, hafter⟩

/-- A row that is inserted leaves the tables as they are, whatever constraints they have. -/
theorem infos_perform_insert {s after : Session} {i : Insert} {params : List Value} {result : Sql.Result}
    (hok : s.perform (.insert i) params = (.ok result, after)) : after.content.infos = s.content.infos := by
  obtain ⟨op, q, hop, hq, rfl⟩ := perform_insert_eq_ok hok
  have hkeeps := preparesKept_insert s.content.infos i s.content params op hop
    { content := s.content, lastRowId := s.lastRowId } rfl
  rw [hq] at hkeeps
  exact hkeeps

namespace HasTables

variable (h : s.HasTables infos)
include h

theorem committed : s.committed.infos = infos := by
  unfold Session.committed
  rw [List.getLast?_eq_getElem?]
  cases hlast : s.saved[s.saved.length - 1]? with
  | none => exact h.content
  | some p => exact h.saved p (List.mem_of_getElem? hlast)

theorem finish (r : Except Stop Unit) {p : Progress} (hp : p.Has infos) : (s.finish r p).2.HasTables infos := by
  unfold Session.finish
  extract_lets stop kept
  rcases stop with _ | ⟨f, how⟩
  · exact ⟨hp, h.saved⟩
  · cases how with
    | fail => exact ⟨hp, h.saved⟩
    | rollback => exact ⟨h.committed, fun _ hp => nomatch hp⟩
    | _ => exact ⟨h.content, h.saved⟩

theorem change {op : Change Unit} (hop : KeepsTables infos op) : (s.change op).2.HasTables infos := by
  refine h.finish (outcome op { content := s.content, lastRowId := s.lastRowId }).1 (p := (outcome op _).2) ?_
  exact Keeps.after hop h.content

theorem runChange {r : Except Fault (Change Unit)} (hr : PreparesKept infos r) {p : Prepared}
    (hp : r.map Prepared.change = .ok p) : (s.run p).2.HasTables infos := by
  cases r with
  | error f => cases hp
  | ok op =>
    cases hp
    exact h.change (hr op rfl)

/-- A statement about rows leaves the tables, whether or not it succeeds. -/
theorem perform {statement : Statement} (hrows : statement.isOnRows = true) (params : List Value) :
    (s.perform statement params).2.HasTables infos := by
  unfold Session.perform
  cases hprepare : s.prepare statement params with
  | error f => exact h
  | ok p =>
    dsimp only
    cases statement with
    | select q =>
      change (q.run s.content params).map Prepared.rows = _ at hprepare
      cases hrun : q.run s.content params with
      | error f =>
        rw [hrun] at hprepare
        cases hprepare
      | ok rows =>
        rw [hrun] at hprepare
        cases hprepare
        exact h
    | insert i => exact h.runChange (preparesKept_insert infos i s.content params) hprepare
    | update u => exact h.runChange (preparesKept_update infos u s.content params) hprepare
    | delete d => exact h.runChange (preparesKept_delete infos d s.content params) hprepare
    | dropTable ifExists name => cases hrows
    | savepoint name => cases hrows
    | release name => cases hrows
    | rollbackTo name => cases hrows

theorem savepoint (name : String) : (s.savepoint name).HasTables infos :=
  ⟨h.content, List.forall_mem_cons.2 ⟨h.content, h.saved⟩⟩

theorem savedFrom (name : String) : ∀ p ∈ s.savedFrom name, p.2.infos = infos :=
  fun p hp => h.saved p ((List.dropWhile_sublist _).mem hp)

theorem release (name : String) : (s.release name).2.HasTables infos := by
  have hfrom := h.savedFrom name
  unfold Session.release
  split
  · exact h
  · split
    · exact h
    · exact ⟨h.content, fun _ hp => nomatch hp⟩
  · rename_i older hsaved
    rw [hsaved] at hfrom
    exact ⟨h.content, (List.forall_mem_cons.1 hfrom).2⟩

theorem rollbackTo (name : String) : (s.rollbackTo name).2.HasTables infos := by
  have hfrom := h.savedFrom name
  unfold Session.rollbackTo
  split
  · exact h
  · rename_i before older hsaved
    rw [hsaved] at hfrom
    exact ⟨(List.forall_mem_cons.1 hfrom).1, hfrom⟩

end HasTables

end Session

end Sql

/-! ## Stores -/

/-- A store with some tables, whatever transaction is undone. -/
def Store.HasTables (infos : List Sql.TableInfo) (store : Store) : Prop := store.session.HasTables infos

theorem Store.onSession_hasTables {infos : List Sql.TableInfo} {α : Type}
    {f : Sql.Session → Except Sql.Fault α × Sql.Session}
    (h : ∀ s : Sql.Session, s.HasTables infos → (f s).2.HasTables infos) :
    Keeps (HasTables infos) (HasTables infos) (onSession f) := by
  intro store hstore
  have hafter := h store.session hstore
  rw [onSession_outcome]
  revert hafter
  rcases f store.session with ⟨_ | _, _⟩ <;> exact id

/-- **Requests change rows, never tables**: neither statements about rows nor transactions do. -/
theorem Store.kept_hasTables (infos : List Sql.TableInfo) : Store.Kept (Store.HasTables infos) where
  begin := .modify fun store h => h.savepoint (savepointName (store.depth + 1))
  commit := .bind .get fun _ => .bind (.modify fun _ h => h) fun _ => onSession_hasTables fun _ h => h.release _
  rollback := .bind .get fun _ => .bind (.modify fun _ h => h) fun _ =>
    .bind (onSession_hasTables fun _ h => h.rollbackTo _) fun _ => onSession_hasTables fun _ h => h.release _
  perform _ hrows _ := onSession_hasTables fun _ h => h.perform hrows _

end GuardedConfig
