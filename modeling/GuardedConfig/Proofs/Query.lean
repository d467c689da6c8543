import GuardedConfig.Proofs.Condition
import GuardedConfig.Sql.Query

/-!
# `Proofs.Query` — the rows of queries that read columns

A query without functions over all rows gives one row for each combination of rows that its condition leaves. The
combinations are those of nested loops: each row of the first table with the rows of the second one that match it.
If they stand in the order that is asked for already, sorting leaves them as they are.

## Contents

* `joinSources_cons` — nested loops
* `Select.Finds`, `Select.run_eq` — what a query needs to find, and its rows
* `eval_of`, `outputColumns_column` — columns of one of two tables
* `pairs`, `joinSources_two` — the rows of two tables that match
-/

namespace GuardedConfig.Sql

variable {c : Content} {env : Env}

/-! ## Joins -/

theorem filterMapM_eq_ok {α β ε : Type} {f : α → Except ε (Option β)} {g : α → Option β} {l : List α}
    (h : ∀ a ∈ l, f a = .ok (g a)) : l.filterMapM f = .ok (l.filterMap g) := by
  suffices hloop : ∀ acc, List.filterMapM.loop f l acc = .ok (acc.reverse ++ l.filterMap g) from hloop []
  induction l with
  | nil => simp [List.filterMapM.loop, pure, Except.pure]
  | cons a l ih =>
    intro acc
    rw [List.filterMapM.loop, h a (List.mem_cons_self ..), except_ok_bind]
    have ih := ih fun b hb => h b (List.mem_cons_of_mem _ hb)
    cases hg : g a with
    | none => simp [ih, hg]
    | some b => simp [ih, hg]

/-- Each row of the first table that matches is combined with what the other tables give for it. -/
theorem joinSources_cons {s : OpenSource} {rest : List OpenSource} {scope : List Binding} {P : Row → Bool}
    {g : Row → List (List Binding)}
    (hon : ∀ row ∈ s.2.rows, (env.push (scope ++ [OpenSource.bind s row])).satisfies s.1.on = .ok (P row))
    (hrest : ∀ row ∈ s.2.rows, joinSources env rest (scope ++ [OpenSource.bind s row]) = .ok (g row)) :
    joinSources env (s :: rest) scope = .ok ((s.2.rows.filter P).flatMap g) := by
  have hjoined : (s.2.rows.filterMapM fun row => do
      let inner := scope ++ [OpenSource.bind s row]
      return if ← (env.push inner).satisfies s.1.on then some inner else none : Except Fault _) =
        .ok (s.2.rows.filterMap fun row => if P row then some (scope ++ [OpenSource.bind s row]) else none) := by
    refine filterMapM_eq_ok fun row hr => ?_
    dsimp only
    rw [hon row hr]
    rfl
  rw [joinSources, hjoined, except_ok_bind]
  have hmatching : (s.2.rows.filterMap fun row => if P row then some (scope ++ [OpenSource.bind s row]) else none) =
      (s.2.rows.filter P).map fun row => scope ++ [OpenSource.bind s row] := by
    rw [← List.filterMap_eq_map, ← List.filterMap_filter]
    rfl
  have hinner : ((s.2.rows.filter P).map fun row => scope ++ [OpenSource.bind s row]).mapM (joinSources env rest) =
      .ok ((s.2.rows.filter P).map g) := by
    rw [List.mapM_map]
    exact mapM_eq_ok fun row hr => hrest row (List.mem_filter.1 hr).1
  rw [hmatching, hinner, except_ok_bind, List.flatMap_def]
  rfl

/-! ## Rows -/

/-- The tables of a query without rows, on which its names are checked. -/
def emptyScope (sources : List OpenSource) : List Binding := sources.map fun t => OpenSource.bind t ⟨0, []⟩

/-- The value of an expression for a combination of rows. -/
def Env.valueOf (env : Env) (scope : List Binding) (e : Expr) : Value :=
  (eval (env.push scope) e).toOption.getD .null

theorem Env.valueOf_eq {scope : List Binding} {e : Expr} {v : Value} (h : eval (env.push scope) e = .ok v) :
    env.valueOf scope e = v := by
  unfold Env.valueOf
  rw [h]
  rfl

/-- The key by which a combination of rows is put in order. -/
def sortKeys (env : Env) (terms : List (Expr × Bool)) (scope : List Binding) : List SortKey :=
  terms.map fun (e, descending) =>
    ⟨env.valueOf scope e, ((collationOf? (env.push scope) e).map (·.1)).getD .binary, descending⟩

/-- Rows in the order of their identifiers stand in order. -/
theorem mayPrecede_of_le {m n : Int} (h : m ≤ n) (c d : Collation) :
    mayPrecede [⟨.integer m, c, false⟩] [⟨.integer n, d, false⟩] = true := by
  have hcompare : compareValues c (.integer m) (.integer n) = compare m n := rfl
  unfold mayPrecede
  dsimp only
  rw [hcompare]
  cases ho : compare m n with
  | lt => rfl
  | eq => rfl
  | gt => exact absurd (Int.compare_eq_gt.1 ho) (by omega)

/-- What a query without functions over all rows finds: its tables, its columns and the terms of its order, and the
combinations of rows, some of which the condition leaves. -/
structure Select.Finds (q : Select) (env : Env) (sources : List OpenSource) (columns : List OutputColumn)
    (terms : List (Expr × Bool)) (joined : List (List Binding)) (P : List Binding → Bool) : Prop where
  all : q.distinct = false
  unlimited : q.limit = none
  tables : (q.sources.mapM fun source => do return (source, ← expectTable env.content source.table)) = .ok sources
  results : q.columns.mapM (outputColumns (env.push (emptyScope sources)) sources) = .ok (columns.map ([·]))
  order : (q.order.mapIdxM fun i (e, descending) => do return (← orderExpr columns (i + 1) e, descending)) = .ok terms
  plain : ∀ e ∈ columns.map (·.expr) ++ terms.map (·.1), aggregate? e = none
  names : ∀ e ∈ columns.map (·.expr) ++ terms.map (·.1) ++ q.condition.toList ++ q.sources.filterMap (·.on),
    ∃ v, eval (env.push (emptyScope sources)) e = .ok v
  joins : joinSources env sources [] = .ok joined
  condition : ∀ scope ∈ joined, (env.push scope).satisfies q.condition = .ok (P scope)
  values : ∀ scope ∈ joined.filter P, ∀ e ∈ columns.map (·.expr) ++ terms.map (·.1),
    ∃ v, eval (env.push scope) e = .ok v
  sorted : (joined.filter P).Pairwise fun a b => mayPrecede (sortKeys env terms a) (sortKeys env terms b) = true

variable {q : Select} {sources : List OpenSource} {columns : List OutputColumn} {terms : List (Expr × Bool)}
  {joined : List (List Binding)} {P : List Binding → Bool}

namespace Select.Finds

variable (h : q.Finds env sources columns terms joined P)

include h

/-- The columns and terms have values on empty rows. -/
theorem checked (e : Expr) (he : e ∈ columns.map (·.expr) ++ terms.map (·.1)) :
    (do
      let _ ← valueOverAll env [] (emptyScope sources) e
      return ⟨⟩ : Except Fault PUnit) = .ok ⟨⟩ := by
  obtain ⟨v, hv⟩ := h.names e (List.mem_append_left _ (List.mem_append_left _ he))
  unfold valueOverAll
  rw [h.plain e he]
  show (eval (env.push (emptyScope sources)) e >>= fun _ => _) = _
  rw [hv]
  rfl

/-- The names of the conditions are known. -/
theorem check_eq (e : Expr) (he : e ∈ q.condition.toList ++ q.sources.filterMap (·.on)) :
    (env.push (emptyScope sources)).check e = .ok () := by
  obtain ⟨v, hv⟩ := h.names e (List.append_assoc .. ▸ List.mem_append_right _ he)
  unfold Env.check
  rw [hv]
  rfl

theorem eval_eq {scope : List Binding} (hscope : scope ∈ joined.filter P) {e : Expr}
    (he : e ∈ columns.map (·.expr) ++ terms.map (·.1)) : eval (env.push scope) e = .ok (env.valueOf scope e) := by
  obtain ⟨v, hv⟩ := h.values scope hscope e he
  rw [Env.valueOf_eq hv, hv]

/-- A combination of rows gives the keys of the order and a row of the result. -/
theorem keyed (scope : List Binding) (hscope : scope ∈ joined.filter P) :
    (do
      let env := env.push scope
      let keys ← terms.mapM fun (e, descending) => do
        return (⟨← eval env e, ((collationOf? env e).map (·.1)).getD .binary, descending⟩ : SortKey)
      return (keys, ← columns.mapM fun c => eval env c.expr) : Except Fault (List SortKey × List Value)) =
      .ok (sortKeys env terms scope, columns.map fun column => env.valueOf scope column.expr) := by
  have hkeys : (terms.mapM fun (e, descending) => do
      return (⟨← eval (env.push scope) e, ((collationOf? (env.push scope) e).map (·.1)).getD .binary, descending⟩ :
        SortKey) : Except Fault (List SortKey)) = .ok (sortKeys env terms scope) := by
    refine mapM_eq_ok fun term hterm => ?_
    dsimp only
    rw [h.eval_eq hscope (List.mem_append_right _ (List.mem_map_of_mem hterm))]
    rfl
  have hvalues : (columns.mapM fun column => eval (env.push scope) column.expr) =
      .ok (columns.map fun column => env.valueOf scope column.expr) :=
    mapM_eq_ok fun column hcolumn => h.eval_eq hscope (List.mem_append_left _ (List.mem_map_of_mem hcolumn))
  dsimp only
  rw [hkeys, except_ok_bind, hvalues]
  rfl

end Select.Finds

/-- **The rows of a query** are the values of its columns, combination by combination. -/
theorem Select.run_eq {params : List Value} (henv : env = { content := c, params })
    (h : q.Finds env sources columns terms joined P) :
    q.run c params = .ok {
      names := columns.map (·.name)
      rows := (joined.filter P).map fun scope => columns.map fun column => env.valueOf scope column.expr } := by
  have hsumming : columns.any (fun c => (aggregate? c.expr).isSome) = false := by
    rw [List.any_eq_false]
    intro column hcolumn
    simp [h.plain column.expr (List.mem_append_left _ (List.mem_map_of_mem hcolumn))]
  have hcolumns := (forM_eq_ok_iff (l := columns)).2 fun column hcolumn =>
    h.checked _ (List.mem_append_left _ (List.mem_map_of_mem hcolumn))
  have hterms := (forM_eq_ok_iff (l := terms)).2 fun term hterm =>
    h.checked _ (List.mem_append_right _ (List.mem_map_of_mem hterm))
  have hcondition : q.condition.forM (env.push (emptyScope sources)).check = .ok () := by
    cases hq : q.condition with
    | none => rfl
    | some e => exact h.check_eq e (List.mem_append_left _ (by simp [hq]))
  have hon : (q.sources.forM fun source => source.on.forM (env.push (emptyScope sources)).check) = .ok () := by
    refine forM_eq_ok_iff.2 fun source hsource => ?_
    cases ho : source.on with
    | none => rfl
    | some e => exact h.check_eq e (List.mem_append_right _ (List.mem_filterMap.2 ⟨source, hsource, ho⟩))
  have hselected := filterM_eq_ok h.condition
  have hrows := mapM_eq_ok h.keyed
  have hsorted : ((joined.filter P).map fun scope => (sortKeys env terms scope,
      columns.map fun column => env.valueOf scope column.expr)).Pairwise fun a b => mayPrecede a.1 b.1 = true :=
    List.Pairwise.map _ (fun _ _ hab => hab) h.sorted
  unfold Select.run
  dsimp only
  rw [← henv, show c = env.content by rw [henv], h.tables, except_ok_bind,
    show (sources.map fun t => OpenSource.bind t ⟨0, []⟩) = emptyScope sources from rfl, h.results, except_ok_bind,
    ← List.flatMap_def, List.flatMap_singleton', h.order, except_ok_bind, hsumming, h.unlimited, h.all]
  show ((columns.forM _ : Except Fault PUnit) >>= fun _ => _) = _
  rw [hcolumns, except_ok_bind, hcondition, except_ok_bind, hon, except_ok_bind, hterms, except_ok_bind,
    show limitOf env none = .ok none from rfl, except_ok_bind, h.joins, except_ok_bind, hselected, except_ok_bind,
    if_neg Bool.false_ne_true, hrows, except_ok_bind, List.mergeSort_of_pairwise hsorted, List.map_map]
  rfl

/-! ## Columns of sources -/

/-- A qualified name is a column of the table with this label, if there is only one. -/
theorem eval_of (env : Env) {scope : List Binding} {b : Binding} {label name : String} {i : Nat}
    (hb : scope.filter (fun b => sameName b.label label) = [b]) (hi : b.info.columnIndex? name = some i) :
    (env.push scope).resolve (some label) name true = .ok (.column b i) ∧
      eval (env.push scope) (.of label name) = .ok (b.row.value i) := by
  have hresolve : (env.push scope).resolve (some label) name true = .ok (.column b i) := by
    unfold Env.resolve Env.push resolveThrough resolveIn
    simp [hb, hi]
  refine ⟨hresolve, ?_⟩
  unfold Expr.of
  rw [eval, hresolve]
  rfl

theorem open_eq_ok {source : Source} {s : Stored} (h : expectTable c source.table = .ok s) :
    (do return (source, ← expectTable c source.table) : Except Fault OpenSource) = .ok (source, s) := by
  rw [h]
  rfl

/-- A column of a result without a title is named after the column that it is. -/
theorem outputColumns_column (sources : List OpenSource) {q : Option String} {name : String} {quoted : Bool} {b : Binding} {i : Nat}
    (h : env.resolve q name quoted = .ok (.column b i)) (text : String) :
    outputColumns env sources (.value (.column q name quoted) none text) =
      .ok [⟨b.info.columnName i, .column q name quoted, none⟩] := by
  have hname : plainName? env (.column q name quoted) = some (b.info.columnName i) := by
    unfold plainName?
    dsimp only
    rw [h]
  unfold outputColumns
  dsimp only
  rw [hname]
  rfl

/-- Two tables are told apart by their labels. -/
theorem filter_label {a b : Binding} (h : sameName a.label b.label = false) :
    [a, b].filter (fun x => sameName x.label a.label) = [a] ∧ [a, b].filter (fun x => sameName x.label b.label) = [b] := by
  have hcomm : sameName b.label a.label = false := by rw [sameName_comm, h]
  constructor
  · simp [hcomm]
  · simp [h]

/-- The combinations of the rows of two tables where an identifier in the second one is one in the first one. -/
def pairs (a b : OpenSource) (i j : Nat) : List (List Binding) :=
  a.2.rows.flatMap fun row =>
    (b.2.rows.filter fun row' => equalIds (row'.value j) (row.value i) = some true).map fun row' =>
      [OpenSource.bind a row, OpenSource.bind b row']

theorem mem_pairs {a b : OpenSource} {i j : Nat} {scope : List Binding} (h : scope ∈ pairs a b i j) :
    ∃ row ∈ a.2.rows, ∃ row' ∈ b.2.rows, scope = [OpenSource.bind a row, OpenSource.bind b row'] := by
  obtain ⟨row, hr, hscope⟩ := List.mem_flatMap.1 h
  obtain ⟨row', hr', rfl⟩ := List.mem_map.1 hscope
  exact ⟨row, hr, row', (List.mem_filter.1 hr').1, rfl⟩

/-- Nested loops over two tables give these combinations. -/
theorem joinSources_two {a b : OpenSource} (hlabels : sameName a.1.label b.1.label = false) (hfirst : a.1.on = none)
    {x y : String} (hon : b.1.on = some (.equals (.of b.1.label y) (.of a.1.label x))) {i j : Nat}
    (hi : a.2.info.columnIndex? x = some i) (hj : b.2.info.columnIndex? y = some j)
    (ha : ∀ row ∈ a.2.rows, IdOrNull (row.value i)) (hb : ∀ row ∈ b.2.rows, IdOrNull (row.value j)) :
    joinSources env [a, b] [] = .ok (pairs a b i j) := by
  have hinner : ∀ row ∈ a.2.rows, joinSources env [b] [OpenSource.bind a row] =
      .ok ((b.2.rows.filter fun row' => equalIds (row'.value j) (row.value i) = some true).map fun row' =>
        [OpenSource.bind a row, OpenSource.bind b row']) := by
    intro row hr
    rw [List.map_eq_flatMap]
    refine joinSources_cons (fun row' hr' => ?_) fun _ _ => rfl
    obtain ⟨hlabelA, hlabelB⟩ := filter_label (a := OpenSource.bind a row) (b := OpenSource.bind b row') hlabels
    have hright : eval (env.push [OpenSource.bind a row, OpenSource.bind b row']) (.of a.1.label x) =
        .ok (row.value i) := (eval_of env hlabelA hi).2
    have hleft : eval (env.push [OpenSource.bind a row, OpenSource.bind b row']) (.of b.1.label y) =
        .ok (row'.value j) := (eval_of env hlabelB hj).2
    show (env.push [OpenSource.bind a row, OpenSource.bind b row']).satisfies b.1.on = _
    rw [hon]
    unfold Env.satisfies
    dsimp only
    rw [eval_equals_ids hleft hright (hb row' hr') (ha row hr) (truthTest?_quoted ..)]
    show Except.ok (decide ((Value.ofTruth _).truth? = some true)) = _
    rw [truth?_ofTruth]
  have hall : ∀ row ∈ a.2.rows, (env.push ([] ++ [OpenSource.bind a row])).satisfies a.1.on = .ok true :=
    fun row _ => by rw [hfirst]; rfl
  have houter := joinSources_cons hall hinner
  rw [houter, List.filter_true]
  rfl

end GuardedConfig.Sql
