import GuardedConfig.Proofs.Layout
import GuardedConfig.Proofs.Outcome

/-!
# `Proofs.Condition` — conditions on identifiers

The conditions by which fields find their rows compare columns that hold identifiers or nothing with each other
and with whole numbers. Under whatever affinity and collation that happens, the outcome is that of the numbers.

## Contents

* `columnIndex?_of_sameName`, `resolve_named` — names find their columns
* `IdOrNull`, `eval_equals_ids`
* `selectRows_eq`, `selectRows_equals` — what a condition selects
* `eval_first`, `eval_inSelect` — subqueries
-/

namespace GuardedConfig.Sql

variable {L : List TableInfo} {c : Content} {t u p : TableInfo} {k : ForeignKeyInfo} {row : Row} {env : Env}

/-! ## Names -/

/-- In a table whose columns have different names, a name finds its column. -/
theorem columnIndex?_of_sameName (hd : t.columns.Pairwise fun a b => sameName a.name b.name = false) {i : Nat}
    {column : ColumnInfo} (hi : t.columns[i]? = some column) {name : String}
    (hn : sameName column.name name = true) : t.columnIndex? name = some i := by
  obtain ⟨hlt, hcol⟩ := List.getElem?_eq_some_iff.1 hi
  unfold TableInfo.columnIndex?
  rw [List.findIdx?_eq_some_iff_getElem]
  refine ⟨hlt, by rw [hcol]; exact hn, fun j hj => ?_⟩
  have hne := List.pairwise_iff_getElem.1 hd j i (by omega) hlt hj
  rw [hcol, sameName_congr_right hn] at hne
  simpa using hne

/-- A quoted name is a column of the innermost table, if that has one. -/
theorem resolve_named {b : Binding} {rest : List (List Binding)} (hs : env.scopes = [b] :: rest) {name : String}
    {i : Nat} (hi : b.info.columnIndex? name = some i) (quoted : Bool) :
    env.resolve none name quoted = .ok (.column b i) := by
  unfold Env.resolve
  rw [hs]
  unfold resolveThrough resolveIn
  simp [hi]

theorem eval_named {b : Binding} {rest : List (List Binding)} (hs : env.scopes = [b] :: rest) {name : String}
    {i : Nat} (hi : b.info.columnIndex? name = some i) : eval env (.named name) = .ok (b.row.value i) := by
  unfold Expr.named
  rw [eval, resolve_named hs hi]
  rfl

/-! ## Comparisons -/

/-- An identifier, or nothing. -/
def IdOrNull (v : Value) : Prop := v = .null ∨ ∃ n, v = .integer n

theorem IdOrNull.null : IdOrNull .null := .inl rfl

theorem IdOrNull.integer (n : Int) : IdOrNull (.integer n) := .inr ⟨n, rfl⟩

/-- Whether two identifiers are equal; unknown if one is missing. -/
def equalIds (x y : Value) : Option Bool :=
  match x, y with
  | .integer m, .integer n => some (m = n)
  | _, _ => none

theorem compareTruth_ids (a : Option Affinity) (col : Collation) {x y : Value} (hx : IdOrNull x) (hy : IdOrNull y) :
    compareTruth .eq (compareUnder a col x y) x y = equalIds x y := by
  rcases hx with rfl | ⟨m, rfl⟩
  · rcases hy with rfl | ⟨n, rfl⟩ <;> rfl
  · rcases hy with rfl | ⟨n, rfl⟩
    · rw [compareUnder_null]
      rfl
    · rw [compareUnder_integer]
      show some (compare m n == .eq) = some (decide (m = n))
      rw [← compare_beq_eq]
      rfl

/-- An equation is as true as that of the identifiers on its sides. -/
theorem eval_equals_ids {l r : Expr} {x y : Value} (hl : eval env l = .ok x) (hr : eval env r = .ok y)
    (hx : IdOrNull x) (hy : IdOrNull y) (htest : truthTest? env .eq r = none) :
    eval env (.equals l r) = .ok (.ofTruth (equalIds x y)) := by
  unfold Expr.equals
  rw [eval, hl]
  rw [except_ok_bind, hr, except_ok_bind]
  dsimp only
  rw [htest]
  show Except.ok (Value.ofTruth (compareTruth .eq (compareUnder _ _ x y) x y)) = _
  rw [compareTruth_ids _ _ hx hy]

theorem truth?_ofTruth (b : Option Bool) : (Value.ofTruth b).truth? = b := by
  rcases b with _ | _ | _ <;> rfl

theorem truthTest?_quoted (env : Env) (op : BinaryOp) (q : Option String) (name : String) :
    truthTest? env op (.column q name true) = none := by
  cases q <;> rfl

theorem filterAuxM_eq_ok {α ε : Type} {f : α → Except ε Bool} {P : α → Bool} {l : List α}
    (h : ∀ a ∈ l, f a = .ok (P a)) (acc : List α) : l.filterAuxM f acc = .ok ((l.filter P).reverse ++ acc) := by
  induction l generalizing acc with
  | nil => rfl
  | cons a l ih =>
    rw [List.filterAuxM, h a (List.mem_cons_self ..)]
    show l.filterAuxM f (bif P a then a :: acc else acc) = _
    rw [ih fun b hb => h b (List.mem_cons_of_mem _ hb)]
    cases hP : P a <;> simp [hP]

/-- A list is filtered successfully if each of its members can be decided. -/
theorem filterM_eq_ok {α ε : Type} {f : α → Except ε Bool} {P : α → Bool} {l : List α}
    (h : ∀ a ∈ l, f a = .ok (P a)) : l.filterM f = .ok (l.filter P) := by
  unfold List.filterM
  rw [filterAuxM_eq_ok h]
  show Except.ok ((l.filter P).reverse ++ []).reverse = _
  rw [List.append_nil, List.reverse_reverse]

/-- The rows that a condition selects, if it can be evaluated on each of them. -/
theorem selectRows_eq {params : List Value} {s : Stored} {condition : Expr} {P : Row → Bool}
    (h : ∀ row ∈ s.rows, ∃ v,
      eval { content := c, params, scopes := [[{ label := s.info.name, info := s.info, row }]] } condition = .ok v ∧
        (v.truth? = some true ↔ P row = true)) :
    selectRows c params s (some condition) = .ok (s.rows.filter P) := by
  unfold selectRows
  refine filterM_eq_ok fun row hr => ?_
  obtain ⟨v, hv, hP⟩ := h row hr
  unfold Env.satisfies
  dsimp only
  rw [hv]
  show Except.ok (decide (v.truth? = some true)) = .ok (P row)
  congr 1
  rw [Bool.eq_iff_iff, decide_eq_true_iff]
  exact hP

theorem eval_int (env : Env) (n : Int) : eval env (.int n) = .ok (.integer n) := by
  unfold Expr.int
  rw [eval]

/-- Whether a column that holds identifiers is a number. -/
theorem eval_named_equals_int {b : Binding} {rest : List (List Binding)} (hs : env.scopes = [b] :: rest)
    {name : String} {i : Nat} (hi : b.info.columnIndex? name = some i) (hv : IdOrNull (b.row.value i)) (n : Int) :
    eval env (.equals (.named name) (.int n)) = .ok (.ofTruth (equalIds (b.row.value i) (.integer n))) :=
  eval_equals_ids (eval_named hs hi) (eval_int env n) hv (.integer n) rfl

theorem equalIds_eq_true {v : Value} (hv : IdOrNull v) (n : Int) :
    equalIds v (.integer n) = some true ↔ v = .integer n := by
  rcases hv with rfl | ⟨m, rfl⟩ <;> simp [equalIds]

/-- The rows where a column that holds identifiers is a number; the condition can be evaluated on an empty row. -/
theorem selectRows_equals {name : String} {i : Nat} (hi : t.columnIndex? name = some i) (params : List Value)
    {rows : List Row} (hrows : ∀ row ∈ rows, IdOrNull (row.value i)) (n : Int) :
    eval { content := c, params, scopes := [[{ label := t.name, info := t }]] } (.equals (.named name) (.int n)) =
        .ok .null ∧
      selectRows c params ⟨t, rows⟩ (some (.equals (.named name) (.int n))) =
        .ok (rows.filter fun row => row.value i = .integer n) := by
  refine ⟨eval_named_equals_int (b := { label := t.name, info := t }) rfl hi .null n, selectRows_eq fun row hr => ?_⟩
  refine ⟨_, eval_named_equals_int (b := { label := t.name, info := t, row }) rfl hi (hrows row hr) n, ?_⟩
  rw [truth?_ofTruth, equalIds_eq_true (hrows row hr), decide_eq_true_iff]

/-! ## Subqueries -/

/-- What the condition of a subquery selects, where a column that holds identifiers is a number; it can be evaluated
on an empty row. -/
theorem subquery_rows {s : Stored} (table : String) {key : String} {j : Nat} (hj : s.info.columnIndex? key = some j)
    (hrows : ∀ row ∈ s.rows, IdOrNull (row.value j)) (n : Int) :
    eval (env.push [{ label := table, info := s.info, row := ⟨0, []⟩ }]) (.equals (.named key) (.int n)) =
        .ok .null ∧
      (s.rows.filterM fun row => do
        return (← eval (env.push [{ label := table, info := s.info, row }])
          (.equals (.named key) (.int n))).truth? = some true : Except Fault (List Row)) =
        .ok (s.rows.filter fun row => row.value j = .integer n) := by
  have hcondition : ∀ row : Row, IdOrNull (row.value j) →
      eval (env.push [{ label := table, info := s.info, row }]) (.equals (.named key) (.int n)) =
        .ok (.ofTruth (equalIds (row.value j) (.integer n))) := fun row hv =>
    eval_named_equals_int (b := { label := table, info := s.info, row }) rfl hj hv n
  refine ⟨hcondition ⟨0, []⟩ .null, filterM_eq_ok fun row hr => ?_⟩
  rw [hcondition row (hrows row hr)]
  show Except.ok (decide ((Value.ofTruth (equalIds (row.value j) (.integer n))).truth? = some true)) = _
  rw [truth?_ofTruth]
  rcases hrows row hr with hv | ⟨m, hv⟩ <;> rw [hv] <;> simp [equalIds]

/-- A column of the first row that a subquery selects, where a column that holds identifiers is a number. -/
theorem eval_first {s : Stored} {table column key : String} (hf : env.content.find? table = some s) {i j : Nat}
    (hi : s.info.columnIndex? column = some i) (hj : s.info.columnIndex? key = some j)
    (hrows : ∀ row ∈ s.rows, IdOrNull (row.value j)) (n : Int) :
    eval env (.first (.named column) table (.equals (.named key) (.int n))) =
      .ok (((s.rows.find? fun row => row.value j = .integer n).map (·.value i)).getD .null) := by
  have hcolumn : ∀ row : Row, eval (env.push [{ label := table, info := s.info, row }]) (.named column) =
      .ok (row.value i) := fun row => eval_named (b := { label := table, info := s.info, row }) rfl hi
  obtain ⟨hempty, hfilter⟩ := @subquery_rows env s table key j hj hrows n
  rw [eval]
  simp only [hf]
  rw [hcolumn, except_ok_bind, hempty, except_ok_bind, hfilter, except_ok_bind]
  rw [← List.head?_filter]
  cases s.rows.filter fun row => row.value j = .integer n with
  | nil => rfl
  | cons row rows => exact hcolumn row

theorem disjunction_eq_true {a b : Option Bool} :
    disjunction a b = some true ↔ a = some true ∨ b = some true := by
  rcases a with _ | _ | _ <;> rcases b with _ | _ | _ <;> simp [disjunction]

/-- An identifier is among others if it is one of them. -/
theorem among_ids (a : Option Affinity) (col : Collation) {m : Int} {items : List Value}
    (hitems : ∀ v ∈ items, IdOrNull v) : among a col (.integer m) items = some true ↔ .integer m ∈ items := by
  unfold among
  suffices h : ∀ found, items.foldl (fun found y => disjunction found
      (compareTruth .eq (compareUnder a col (.integer m) y) (.integer m) y)) found = some true ↔
        found = some true ∨ .integer m ∈ items by
    rw [h]
    simp
  induction items with
  | nil => simp
  | cons v items ih =>
    intro found
    have hv := hitems v (List.mem_cons_self ..)
    rw [List.foldl_cons, ih (fun w hw => hitems w (List.mem_cons_of_mem _ hw)), disjunction_eq_true,
      compareTruth_ids _ _ (.integer m) hv, List.mem_cons, or_assoc]
    have : equalIds (.integer m) v = some true ↔ .integer m = v := by
      rcases hv with rfl | ⟨n, rfl⟩ <;> simp [equalIds]
    rw [this]

theorem mapM_eq_ok {α β ε : Type} {f : α → Except ε β} {g : α → β} {l : List α} (h : ∀ a ∈ l, f a = .ok (g a)) :
    l.mapM f = .ok (l.map g) := by
  rw [mapM_eq_ok_iff]
  induction l with
  | nil => exact .nil
  | cons a l ih => exact .cons (h a (List.mem_cons_self ..)) (ih fun b hb => h b (List.mem_cons_of_mem _ hb))

/-- Whether an identifier is in a column of the rows that a subquery selects, where a column that holds identifiers
is a number. -/
theorem eval_inSelect {e : Expr} {x : Value} (he : eval env e = .ok x) {s : Stored} {table column key : String}
    (hf : env.content.find? table = some s) {i j : Nat} (hi : s.info.columnIndex? column = some i)
    (hj : s.info.columnIndex? key = some j) (hrows : ∀ row ∈ s.rows, IdOrNull (row.value i) ∧ IdOrNull (row.value j))
    (n : Int) :
    ∃ v, eval env (.inSelect false e (.named column) table (.equals (.named key) (.int n))) = .ok v ∧
      ∀ m, x = .integer m → (v.truth? = some true ↔
        ∃ row ∈ s.rows, row.value j = .integer n ∧ row.value i = .integer m) := by
  have hcolumn : ∀ row : Row, eval (env.push [{ label := table, info := s.info, row }]) (.named column) =
      .ok (row.value i) := fun row => eval_named (b := { label := table, info := s.info, row }) rfl hi
  obtain ⟨hempty, hfilter⟩ := @subquery_rows env s table key j hj (fun row hr => (hrows row hr).2) n
  have hvalues : (s.rows.filter fun row => row.value j = .integer n).mapM
      (fun row => eval (env.push [{ label := table, info := s.info, row }]) (.named column)) =
        .ok ((s.rows.filter fun row => row.value j = .integer n).map (·.value i)) :=
    mapM_eq_ok fun row _ => hcolumn row
  refine ⟨.ofTruth (among
    (Affinity.common (affinityOf? env e)
      (affinityOf? (env.push [{ label := table, info := s.info, row := ⟨0, []⟩ }]) (.named column)))
    (commonCollation (collationOf? env e)
      (collationOf? (env.push [{ label := table, info := s.info, row := ⟨0, []⟩ }]) (.named column)))
    x ((s.rows.filter fun row => row.value j = .integer n).map (·.value i))), ?_, ?_⟩
  · unfold eval
    rw [he]
    simp only [hf, except_ok_bind]
    rw [hcolumn, except_ok_bind, hempty, except_ok_bind, hfilter, except_ok_bind, hvalues]
    rfl
  · rintro m rfl
    rw [truth?_ofTruth, among_ids]
    · rw [List.mem_map]
      constructor
      · rintro ⟨row, hr, hv⟩
        obtain ⟨hr, hn⟩ := List.mem_filter.1 hr
        exact ⟨row, hr, by simpa using hn, hv⟩
      · rintro ⟨row, hr, hn, hv⟩
        exact ⟨row, List.mem_filter.2 ⟨hr, by simpa using hn⟩, hv⟩
    · intro v hv
      obtain ⟨row, hr, rfl⟩ := List.mem_map.1 hv
      exact (hrows row (List.mem_filter.1 hr).1).1

end GuardedConfig.Sql
