import GuardedConfig.Proofs.Owners
import GuardedConfig.Proofs.Query
import Mathlib.Data.List.Nodup

/-!
# `Proofs.Fields` — what fields are read as

A scalar field is read as one row with its column. A reference is read as the row that it owns, and a list as the
rows that it owns, in the order of their identifiers; both give all columns but the key. Where every row has its
owner, the queries of fields say just that, and they never fail.

## Contents

* `Table.read`, `Slot.rows` — the rows of a field
* `Joined`, `run_joined` — two tables that are joined by identifiers
* `run_scalar`, `run_reference`, `run_list` — the queries
* `Regular.readRows_outcome`
-/

namespace GuardedConfig

open Schema Sql

namespace Schema

/-- A row of a table for items as a field is read as: all columns but the key, with their values. -/
def Table.read (t : Table) (row : Row) : Json :=
  Json.object (t.columns.mapIdx fun i column => (column.name, Plan.ofStored (row.value (i + 1))))

/-- The rows that a field is read as. -/
def Slot.rows (content : Content) (slot : Slot) : List Json :=
  match slot.storage with
  | .scalar table column => (content.column table column).map fun v => Json.object [(column, Plan.ofStored v)]
  | .reference _ _ item | .list _ item _ =>
    ((content.rowsOf item.name).filter fun row => (item.name, row.id) ∈ slot.owns content).map item.read

namespace Slot

variable {slot : Slot} {table column : String} {item : Table}

theorem rows_scalar (hs : slot.storage = .scalar table column) (content : Content) :
    slot.rows content = (content.column table column).map fun v => Json.object [(column, Plan.ofStored v)] := by
  unfold Slot.rows
  rw [hs]

theorem rows_reference (hs : slot.storage = .reference table column item) (content : Content) :
    slot.rows content =
      ((content.rowsOf item.name).filter fun row => (item.name, row.id) ∈ slot.owns content).map item.read := by
  unfold Slot.rows
  rw [hs]

theorem rows_list {scalarItems : Bool} (hs : slot.storage = .list table item scalarItems) (content : Content) :
    slot.rows content =
      ((content.rowsOf item.name).filter fun row => (item.name, row.id) ∈ slot.owns content).map item.read := by
  unfold Slot.rows
  rw [hs]

end Slot

end Schema

/-! ## Columns -/

variable {c : Catalog} {s : CompiledSchema} {t p : Table} {slot : Slot} {content : Content} {row : Row}

theorem map_eq_mapIdx {α β : Type} {l : List α} {f : α → β} {g : Nat → α → β}
    (h : ∀ i a, l[i]? = some a → f a = g i a) : l.map f = l.mapIdx g := by
  refine List.ext_getElem? fun i => ?_
  rw [List.getElem?_map, List.getElem?_mapIdx]
  cases hi : l[i]? with
  | none => rfl
  | some a => exact congrArg some (h i a hi)

namespace Schema.Regular

/-- The names of columns and their values make a row as it is read. -/
theorem read_eq (t : Table) (row : Row) (value : String → Value)
    (hvalue : ∀ i column, t.columns[i]? = some column → value column.name = row.value (i + 1)) :
    Json.object (t.columnNames.zip ((t.columnNames.map value).map Plan.ofStored)) = t.read row := by
  unfold Table.read Table.columnNames
  rw [List.map_map, List.map_map, List.zip_map']
  rw [map_eq_mapIdx fun i column hi => by rw [Function.comp_apply, Function.comp_apply, hvalue i column hi]]

theorem columnName_info {i : Nat} {column : Column} (hi : t.columns[i]? = some column) :
    t.info.columnName (i + 1) = column.name := by
  unfold TableInfo.columnName
  rw [getElem?_info hi]
  exact Column.info_name column

theorem expectTable_config (h : Regular c s) (ht : t ∈ s.tables) (ho : s.Owned none content)
    (hrow : content.rowsOf t.name = [row]) : expectTable content t.name = .ok ⟨t.info, [row]⟩ := by
  rw [← hrow]
  exact expectTable_eq h.layout ho.sound (mem_infos ht)

/-- A scalar field is read as its column. -/
theorem run_scalar (h : Regular c s) (hslot : slot ∈ s.slots) {table column : String}
    (hs : slot.storage = .scalar table column) (ho : s.Owned none content) :
    ∃ result, (Plan.readQuery slot.storage).run content [] = .ok result ∧ Store.rowsOf result = slot.rows content := by
  obtain ⟨t, ht, rfl, hn, i, col, hi, rfl, -⟩ := h.scalar hslot hs
  obtain ⟨row, hrow, hid⟩ := ho.row_of_config (mem_infos ht) hn
  have hrow : content.rowsOf t.name = [row] := hrow
  obtain ⟨-, -, hkey⟩ := configRow_fits ht hn ho hrow
  let env : Env := { content, params := [] }
  let source : OpenSource := ({ table := t.name }, ⟨t.info, [row]⟩)
  have hcolumn : t.info.columnIndex? col.name = some (i + 1) := columnIndex?_info (h.distinct t ht) hi rfl
  have hvalue : ∀ r : Row, eval (env.push [OpenSource.bind source r]) (.named col.name) = .ok (r.value (i + 1)) :=
    fun r => eval_named (b := OpenSource.bind source r) rfl hcolumn
  have hcondition : ∀ r : Row, IdOrNull (r.value 0) →
      eval (env.push [OpenSource.bind source r]) (Plan.isConfigRow t.name) =
        .ok (.ofTruth (equalIds (r.value 0) (.integer configRow))) :=
    fun r hr => eval_named_equals_int (b := OpenSource.bind source r) rfl (columnIndex?_key (h.distinct t ht)) hr configRow
  have hfinds : (Plan.readQuery (.scalar t.name col.name)).Finds env [source] [⟨col.name, .named col.name, none⟩] []
      [[OpenSource.bind source row]] (fun _ => true) := by
    constructor
    case all => rfl
    case unlimited => rfl
    case tables => exact mapM_eq_ok_iff.2 (.cons (open_eq_ok (h.expectTable_config ht ho hrow)) .nil)
    case results =>
      have hresolve : (env.push (emptyScope [source])).resolve none col.name true =
          .ok (.column (OpenSource.bind source ⟨0, []⟩) (i + 1)) := resolve_named rfl hcolumn true
      have houtput := outputColumns_column [source] hresolve (quoteName col.name)
      rw [show (OpenSource.bind source ⟨0, []⟩).info.columnName (i + 1) = col.name from columnName_info hi] at houtput
      exact mapM_eq_ok_iff.2 (.cons houtput .nil)
    case order => rfl
    case plain =>
      intro e he
      rw [List.mem_singleton.1 he]
      rfl
    case names =>
      intro e he
      rcases List.mem_cons.1 he with rfl | he
      · exact ⟨_, hvalue ⟨0, []⟩⟩
      · rw [List.mem_singleton.1 he]
        exact ⟨_, hcondition ⟨0, []⟩ .null⟩
    case joins =>
      exact joinSources_cons (P := fun _ => true) (g := fun r => [[OpenSource.bind source r]])
        (fun _ _ => rfl) (fun _ _ => rfl)
    case condition =>
      intro scope hscope
      rw [List.mem_singleton.1 hscope]
      show Except.map _ (eval (env.push [OpenSource.bind source row]) (Plan.isConfigRow t.name)) = _
      rw [hcondition row (hkey ▸ .integer configRow), hkey]
      rfl
    case values =>
      intro scope hscope e he
      rw [List.mem_singleton.1 (List.mem_filter.1 hscope).1, List.mem_singleton.1 he]
      exact ⟨_, hvalue row⟩
    case sorted => exact List.pairwise_singleton _ _
  refine ⟨_, hs ▸ Select.run_eq rfl hfinds, ?_⟩
  rw [Slot.rows_scalar hs, h.column_of_place ht ho.sound hi, hrow]
  show [Json.object [(col.name, Plan.ofStored (env.valueOf [OpenSource.bind source row] (.named col.name)))]] = _
  rw [Env.valueOf_eq (hvalue row)]
  rfl

/-- Two tables of a query that are joined by identifiers, where each combination belongs to the row of a config and is
read as a row of one of them. -/
structure Joined (content : Content) (p : Table) (a b : OpenSource) (x y label owner key : String) (i j k : Nat)
    (info : TableInfo) (pick keyed : Row → Row → Row) : Prop where
  labels : sameName a.1.label b.1.label = false
  first : expectTable content a.1.table = .ok a.2
  second : expectTable content b.1.table = .ok b.2
  free : a.1.on = none
  on : b.1.on = some (.equals (.of b.1.label y) (.of a.1.label x))
  left : a.2.info.columnIndex? x = some i
  right : b.2.info.columnIndex? y = some j
  leftIds : ∀ row ∈ a.2.rows, IdOrNull (row.value i)
  rightIds : ∀ row ∈ b.2.rows, IdOrNull (row.value j)
  picked : ∀ r r', [OpenSource.bind a r, OpenSource.bind b r'].filter (fun x => sameName x.label label) =
    [{ label, info := p.info, row := pick r r' }]
  owned : ∀ r r', [OpenSource.bind a r, OpenSource.bind b r'].filter (fun x => sameName x.label owner) =
    [{ label := owner, info, row := keyed r r' }]
  key : info.columnIndex? key = some k
  configRow : ∀ r ∈ a.2.rows, ∀ r' ∈ b.2.rows, (keyed r r').value k = .integer configRow

section

variable {a b : OpenSource} {x y label owner key : String} {i j k : Nat} {info : TableInfo} {pick keyed : Row → Row → Row}

namespace Joined

/-- A column of the table that is read. -/
theorem eval_column (h : Joined content p a b x y label owner key i j k info pick keyed) {name : String} {m : Nat}
    (hm : p.info.columnIndex? name = some m) (env : Env) (r r' : Row) :
    eval (env.push [OpenSource.bind a r, OpenSource.bind b r']) (.of label name) = .ok ((pick r r').value m) :=
  (eval_of _ (h.picked r r') hm).2

/-- The condition holds of every combination. -/
theorem eval_condition (h : Joined content p a b x y label owner key i j k info pick keyed) (env : Env) {r r' : Row}
    (hv : IdOrNull ((keyed r r').value k)) :
    eval (env.push [OpenSource.bind a r, OpenSource.bind b r']) (.equals (.of owner key) (.int Schema.configRow)) =
      .ok (.ofTruth (equalIds ((keyed r r').value k) (.integer Schema.configRow))) :=
  eval_equals_ids (eval_of _ (h.owned r r') h.key).2 (eval_int _ _) hv (.integer _) rfl

/-- On empty rows there is no identifier. -/
theorem keyed_empty (h : Joined content p a b x y label owner key i j k info pick keyed) :
    IdOrNull ((keyed ⟨0, []⟩ ⟨0, []⟩).value k) := by
  have hmem := List.mem_of_mem_filter (h.owned ⟨0, []⟩ ⟨0, []⟩ ▸ List.mem_singleton_self _)
  have hrow : keyed ⟨0, []⟩ ⟨0, []⟩ = ⟨0, []⟩ := by
    rcases List.mem_cons.1 hmem with he | he
    · exact congrArg Binding.row he
    · exact congrArg Binding.row (List.mem_singleton.1 he)
  rw [hrow]
  exact .null

end Joined

/-- The columns of the result. -/
def outputs (label : String) (p : Table) : List OutputColumn := p.columnNames.map fun name => ⟨name, .of label name, none⟩

theorem columnIndex?_of_name (hd : p.HasDistinctColumns) {name : String} (hname : name ∈ p.columnNames) :
    ∃ m, p.info.columnIndex? name = some m ∧ p.info.columnName m = name := by
  obtain ⟨column, hcolumn, rfl⟩ := List.mem_map.1 hname
  obtain ⟨m, hm⟩ := List.getElem?_of_mem hcolumn
  exact ⟨m + 1, columnIndex?_info hd hm rfl, columnName_info hm⟩

/-- Terms that are columns are what a query is ordered by. -/
theorem orderTerms_eq {order : List (Expr × Bool)} (horder : ∀ term ∈ order, ∃ name, term.1 = .of label name)
    (columns : List OutputColumn) :
    (order.mapIdxM fun i (e, descending) => do return (← orderExpr columns (i + 1) e, descending)) = .ok order := by
  have hterm : ∀ i term, order[i]? = some term → (do
      return (← orderExpr columns (i + 1) term.1, term.2) : Except Sql.Fault (Expr × Bool)) = .ok term := by
    intro i term hi
    obtain ⟨name, hname⟩ := horder term (List.mem_of_getElem? hi)
    rw [hname]
    exact congrArg (fun e => Except.ok (e, term.2)) hname.symm
  have hsame : (order.mapIdx fun _ term => term) = order :=
    List.ext_getElem? fun i => by rw [List.getElem?_mapIdx, Option.map_id_fun', id]
  have hterms := mapIdxM_eq_ok hterm
  rw [hsame] at hterms
  exact hterms

namespace Joined

theorem outputs_eq (h : Joined content p a b x y label owner key i j k info pick keyed) (hd : p.HasDistinctColumns)
    (env : Env) : (Plan.columnsOf label p).mapM (outputColumns (env.push (emptyScope [a, b])) [a, b]) =
      .ok ((outputs label p).map ([·])) := by
  have houtput : ∀ name ∈ p.columnNames, outputColumns (env.push (emptyScope [a, b])) [a, b]
      (.value (.of label name) none (Sql.columnText (some label) name true)) = .ok [⟨name, .of label name, none⟩] := by
    intro name hname
    obtain ⟨m, hm, hcolumn⟩ := columnIndex?_of_name hd hname
    have hresolve := (eval_of env (h.picked ⟨0, []⟩ ⟨0, []⟩) hm).1
    have houtput := outputColumns_column [a, b] hresolve (Sql.columnText (some label) name true)
    rw [show TableInfo.columnName _ m = name from hcolumn] at houtput
    exact houtput
  unfold outputs Plan.columnsOf
  rw [List.mapM_map, List.map_map]
  exact mapM_eq_ok houtput

/-- The names of the condition by which the tables are joined are known. -/
theorem eval_on (h : Joined content p a b x y label owner key i j k info pick keyed) (env : Env) {e : Expr}
    (he : e ∈ [a.1, b.1].filterMap (·.on)) : ∃ v, eval (env.push (emptyScope [a, b])) e = .ok v := by
  have hon : [a.1, b.1].filterMap (·.on) = [.equals (.of b.1.label y) (.of a.1.label x)] := by
    simp [h.free, h.on]
  rw [hon] at he
  obtain ⟨hlabelA, hlabelB⟩ :=
    filter_label (a := OpenSource.bind a ⟨0, []⟩) (b := OpenSource.bind b ⟨0, []⟩) h.labels
  have hright := (eval_of env hlabelA h.left).2
  have hleft := (eval_of env hlabelB h.right).2
  rw [List.mem_singleton.1 he]
  exact ⟨_, eval_equals_ids hleft hright .null .null (truthTest?_quoted ..)⟩

variable {order : List (Expr × Bool)}

theorem finds (h : Joined content p a b x y label owner key i j k info pick keyed) (hd : p.HasDistinctColumns)
    (horder : ∀ term ∈ order, ∃ name m, term.1 = .of label name ∧ p.info.columnIndex? name = some m)
    (hsorted : (pairs a b i j).Pairwise fun u v =>
      mayPrecede (sortKeys { content } order u) (sortKeys { content } order v) = true) :
    Select.Finds {
      columns := Plan.columnsOf label p, sources := [a.1, b.1]
      condition := some (.equals (.of owner key) (.int Schema.configRow)), order } { content } [a, b] (outputs label p)
        order (pairs a b i j) (fun _ => true) := by
  -- columns and terms are columns of the table that is read
  have hexprs : ∀ e ∈ (outputs label p).map (·.expr) ++ order.map (·.1), ∃ name m, e = .of label name ∧
      p.info.columnIndex? name = some m := by
    intro e he
    rcases List.mem_append.1 he with he | he
    · obtain ⟨column, hcolumn, rfl⟩ := List.mem_map.1 he
      obtain ⟨name, hname, rfl⟩ := List.mem_map.1 hcolumn
      obtain ⟨m, hm, -⟩ := columnIndex?_of_name hd hname
      exact ⟨name, m, rfl, hm⟩
    · obtain ⟨term, hterm, rfl⟩ := List.mem_map.1 he
      exact horder term hterm
  constructor
  case all => rfl
  case unlimited => rfl
  case tables => exact mapM_eq_ok_iff.2 (.cons (open_eq_ok h.first) (.cons (open_eq_ok h.second) .nil))
  case results => exact h.outputs_eq hd _
  case order =>
    exact orderTerms_eq (fun term hterm => (horder term hterm).imp fun _ hname => hname.elim fun _ hname => hname.1) _
  case plain =>
    intro e he
    obtain ⟨name, m, rfl, -⟩ := hexprs e he
    rfl
  case names =>
    intro e he
    rcases List.mem_append.1 he with he | he
    · rcases List.mem_append.1 he with he | he
      · obtain ⟨name, m, rfl, hm⟩ := hexprs e he
        exact ⟨_, h.eval_column hm _ ⟨0, []⟩ ⟨0, []⟩⟩
      · rw [List.mem_singleton.1 he]
        exact ⟨_, h.eval_condition _ h.keyed_empty⟩
    · exact h.eval_on _ he
  case joins => exact joinSources_two h.labels h.free h.on h.left h.right h.leftIds h.rightIds
  case condition =>
    intro scope hscope
    obtain ⟨r, hr, r', hr', rfl⟩ := mem_pairs hscope
    have hone := h.configRow r hr r' hr'
    show Except.map _ (eval (Env.push { content } [OpenSource.bind a r, OpenSource.bind b r']) _) = _
    rw [h.eval_condition _ (hone ▸ .integer _), hone]
    rfl
  case values =>
    intro scope hscope e he
    obtain ⟨r, hr, r', hr', rfl⟩ := mem_pairs (List.mem_filter.1 hscope).1
    obtain ⟨name, m, rfl, hm⟩ := hexprs e he
    exact ⟨_, h.eval_column hm _ r r'⟩
  case sorted =>
    rw [List.filter_true]
    exact hsorted

/-- A combination of rows is read as the row that is picked from it. -/
theorem read_pair (h : Joined content p a b x y label owner key i j k info pick keyed) (hd : p.HasDistinctColumns)
    (env : Env) (r r' : Row) :
    Json.object (((outputs label p).map (·.name)).zip (((outputs label p).map fun column =>
      env.valueOf [OpenSource.bind a r, OpenSource.bind b r'] column.expr).map Plan.ofStored)) =
      p.read (pick r r') := by
  have hread := read_eq p (pick r r')
    (fun name => env.valueOf [OpenSource.bind a r, OpenSource.bind b r'] (.of label name)) fun m column hm =>
      Env.valueOf_eq (h.eval_column (columnIndex?_info hd hm rfl) env r r')
  have hnames : (outputs label p).map (·.name) = p.columnNames := by
    unfold outputs
    rw [List.map_map]
    exact List.map_id _
  have hvalues : ((outputs label p).map fun column =>
      env.valueOf [OpenSource.bind a r, OpenSource.bind b r'] column.expr) =
        p.columnNames.map fun name => env.valueOf [OpenSource.bind a r, OpenSource.bind b r'] (.of label name) := by
    unfold outputs
    rw [List.map_map]
    rfl
  rw [hnames, hvalues, hread]

/-- The combinations of rows stand in the order of the identifiers of the first table. -/
theorem pairwise_key (h : Joined content p a b x y label owner key i j k info pick keyed) (hpick : ∀ r r', pick r r' = r)
    (hkey : p.info.columnIndex? p.key = some 0) (hids : ∀ r ∈ a.2.rows, r.value 0 = .integer r.id)
    (hordered : Ordered a.2.rows) :
    (pairs a b i j).Pairwise fun u v => mayPrecede (sortKeys { content } [(.of label p.key, false)] u)
      (sortKeys { content } [(.of label p.key, false)] v) = true := by
  have hkeys : ∀ r ∈ a.2.rows, ∀ r', ∃ collation,
      sortKeys { content } [(.of label p.key, false)] [OpenSource.bind a r, OpenSource.bind b r'] =
        [⟨.integer r.id, collation, false⟩] := by
    intro r hr r'
    have hvalue : Env.valueOf { content } [OpenSource.bind a r, OpenSource.bind b r'] (.of label p.key) =
        .integer r.id := (Env.valueOf_eq (h.eval_column hkey _ r r')).trans (by rw [hpick, hids r hr])
    exact ⟨_, congrArg (fun v => [SortKey.mk v _ false]) hvalue⟩
  have hprecede : ∀ r ∈ a.2.rows, ∀ r' ∈ a.2.rows, r.id ≤ r'.id → ∀ u v,
      mayPrecede (sortKeys { content } [(.of label p.key, false)] [OpenSource.bind a r, OpenSource.bind b u])
        (sortKeys { content } [(.of label p.key, false)] [OpenSource.bind a r', OpenSource.bind b v]) = true := by
    intro r hr r' hr' hle u v
    obtain ⟨collation, hr⟩ := hkeys r hr u
    obtain ⟨collation', hr'⟩ := hkeys r' hr' v
    rw [hr, hr']
    exact mayPrecede_of_le hle _ _
  -- the combinations of one row have its identifier, those of different rows stand as these do
  refine List.pairwise_flatMap.2 ⟨fun r hr => ?_, hordered.imp_of_mem fun hr hr' hlt => ?_⟩
  · exact List.Pairwise.map _ (fun u v _ => hprecede r hr r hr (Int.le_refl _) u v)
      (List.pairwise_of_forall (R := fun _ _ => True) fun _ _ => trivial)
  · intro u hu v hv
    obtain ⟨r', -, rfl⟩ := List.mem_map.1 hu
    obtain ⟨r'', -, rfl⟩ := List.mem_map.1 hv
    exact hprecede _ hr _ hr' (Int.le_of_lt hlt) _ _

end Joined

/-- The rows of a query on two tables. -/
theorem run_joined (hd : p.HasDistinctColumns) (h : Joined content p a b x y label owner key i j k info pick keyed)
    (order : List (Expr × Bool))
    (horder : ∀ term ∈ order, ∃ name m, term.1 = .of label name ∧ p.info.columnIndex? name = some m)
    (hsorted : (pairs a b i j).Pairwise fun u v =>
      mayPrecede (sortKeys { content } order u) (sortKeys { content } order v) = true) :
    ∃ result, Select.run {
        columns := Plan.columnsOf label p, sources := [a.1, b.1]
        condition := some (.equals (.of owner key) (.int Schema.configRow)), order } content [] = .ok result ∧
      Store.rowsOf result = a.2.rows.flatMap fun r =>
        (b.2.rows.filter fun r' => equalIds (r'.value j) (r.value i) = some true).map fun r' => p.read (pick r r') := by
  refine ⟨_, Select.run_eq rfl (h.finds hd horder hsorted), ?_⟩
  unfold Store.rowsOf pairs
  rw [List.filter_true, List.map_map, List.map_flatMap]
  refine List.flatMap_congr fun r hr => ?_
  rw [List.map_map]
  exact List.map_congr_left fun r' hr' => h.read_pair hd _ r r'

end

/-- The rows of a table for items that a slot owns. -/
theorem rows_of_link (h : Regular c s) (hslot : slot ∈ s.slots) (hc : content.Sound s.infos) {link : Link}
    (hlink : slot.link? s.tables = some link) (hparent : link.2.parent = p.name) :
    ((content.rowsOf p.name).filter fun row => (p.name, row.id) ∈ slot.owns content) =
      (content.rowsOf p.name).filter fun row => row.id ∈ content.held link := by
  rw [h.owns_eq hslot hc, hlink, Option.toList_some, List.flatMap_singleton, hparent]
  refine List.filter_congr fun row _ => ?_
  simp

/-- A reference is read as the row that it owns. -/
theorem run_reference (h : Regular c s) (hslot : slot ∈ s.slots) {table column : String} {target : Table}
    (hs : slot.storage = .reference table column target) (ho : s.Owned none content) :
    ∃ result, (Plan.readQuery slot.storage).run content [] = .ok result ∧ Store.rowsOf result = slot.rows content := by
  obtain ⟨t, ht, rfl, hn, hp, hitem, hk⟩ := h.reference hslot hs
  obtain ⟨row, hrow, hid⟩ := ho.row_of_config (mem_infos ht) hn
  have hrow : content.rowsOf t.name = [row] := hrow
  obtain ⟨hmem, hfits, hkey⟩ := configRow_fits ht hn ho hrow
  obtain ⟨i, col, hi, hname, hplace⟩ := h.place ht hk
  have htarget := expectTable_eq h.layout ho.sound (mem_infos hp)
  let a : OpenSource := ({ table := t.name, shortName := some "c" }, ⟨t.info, [row]⟩)
  let b : OpenSource := (
    { table := target.name, shortName := some "t", on := some (.equals (.of "t" target.key) (.of "c" column)) },
    ⟨target.info, content.rowsOf target.name⟩)
  have hlabels : sameName a.1.label b.1.label = false := show sameName "c" "t" = false by decide +kernel
  have hids : ∀ row' ∈ content.rowsOf target.name, row'.value 0 = .integer row'.id :=
    fun row' hr' => (ho.sound.fits target.info (mem_infos hp) row' hr').key
  have hjoined : Joined content target a b column target.key "t" "c" (primaryKey t.name) (i + 1) 0 0 t.info
      (fun _ r' => r') (fun r _ => r) := by
    constructor
    case labels => exact hlabels
    case first => exact h.expectTable_config ht ho hrow
    case second => exact htarget
    case free => rfl
    case on => rfl
    case left => exact columnIndex?_info (h.distinct t ht) hi hname
    case right => exact columnIndex?_key (h.distinct target hp)
    case leftIds =>
      intro r hr
      rw [List.mem_singleton.1 hr, ← hplace]
      exact hfits.links _ (List.mem_map_of_mem hk)
    case rightIds => exact fun r hr => hids r hr ▸ .integer r.id
    case picked => exact fun r r' => (filter_label (a := OpenSource.bind a r) (b := OpenSource.bind b r') hlabels).2
    case owned => exact fun r r' => (filter_label (a := OpenSource.bind a r) (b := OpenSource.bind b r') hlabels).1
    case key => exact columnIndex?_key (h.distinct t ht)
    case configRow => exact fun r hr _ _ => List.mem_singleton.1 hr ▸ hkey
  obtain ⟨result, hrun, hrows⟩ := run_joined (h.distinct target hp) hjoined [] (fun _ ht => nomatch ht)
    (List.pairwise_of_forall fun _ _ => rfl)
  refine ⟨result, hs ▸ hrun, ?_⟩
  have hlink := Described.link?_reference h.plain ht hs
  have hheld := held_of_rowsOf (t.link ⟨column, target.name, some .setNull⟩) rfl hrow
  rw [hrows, Slot.rows_reference hs, h.rows_of_link hslot ho.sound hlink rfl, hheld, List.flatMap_singleton]
  congr 1
  refine List.filter_congr fun r hr => ?_
  have hvalue : IdOrNull (row.value (i + 1)) := hplace ▸ hfits.links _ (List.mem_map_of_mem hk)
  show decide (equalIds (r.value 0) (row.value (i + 1)) = some true) = decide (r.id ∈ (row.value
    ((ForeignKey.mk column target.name (some .setNull)).info t.info.columns).column).id?.toList)
  rw [hplace, hids r hr]
  rcases hvalue with hv | ⟨n, hv⟩ <;> rw [hv] <;> simp [equalIds, Value.id?]

/-- The members of a list are its own, each of them once. -/
theorem nodup_held (h : Regular c s) (hp : p ∈ s.tables) (hitem : c.IsItem p.name) (ho : s.Owned none content)
    {link : Link} (hl : link ∈ s.owners) (hparent : link.2.parent = p.name) : (content.held link).Nodup := by
  obtain ⟨hleaf, hn⟩ := h.leaf hp hitem
  have hperm := ho.conserved p.info (mem_infos hp) hn hleaf
  have hnodup : (content.owned s.owners p.name).Nodup :=
    hperm.nodup_iff.2 (ho.sound.ordered p.info (mem_infos hp)).nodup_ids
  unfold Content.owned at hnodup
  exact (List.nodup_flatMap.1 hnodup).1 link (List.mem_filter.2 ⟨hl, decide_eq_true hparent⟩)

theorem flatMap_ite {α β : Type} (l : List α) (P : α → Prop) [DecidablePred P] (f : α → β) :
    (l.flatMap fun a => if P a then [f a] else []) = (l.filter fun a => P a).map f := by
  induction l with
  | nil => rfl
  | cons a l ih => by_cases ha : P a <;> simp [ha, ih]

/-- A row is linked once if it is linked at all. -/
theorem matches_eq {rows : List Row} {i : Nat} (hnodup : (rows.filterMap fun r => (r.value i).id?).Nodup) (n : Int)
    (x : Json) : ((rows.filter fun r => equalIds (r.value i) (.integer n) = some true).map fun _ => x) =
      if n ∈ rows.filterMap fun r => (r.value i).id? then [x] else [] := by
  have hcount := hnodup.count (a := n)
  unfold List.count at hcount
  rw [List.countP_filterMap, List.countP_eq_length_filter] at hcount
  have hsame : (rows.filter fun r => ((r.value i).id?.map (· == n)).getD false) =
      rows.filter fun r => equalIds (r.value i) (.integer n) = some true := by
    refine List.filter_congr fun r _ => ?_
    cases r.value i <;> simp [Value.id?, equalIds, beq_eq_decide]
  rw [List.map_const', ← hsame, hcount]
  split <;> rfl

/-- A list is read as the rows that it owns, in the order of their identifiers. -/
theorem run_list (h : Regular c s) (hslot : slot ∈ s.slots) {table : String} {item : Table} {scalarItems : Bool}
    (hs : slot.storage = .list table item scalarItems) (ho : s.Owned none content) :
    ∃ result, (Plan.readQuery slot.storage).run content [] = .ok result ∧ Store.rowsOf result = slot.rows content := by
  obtain ⟨t, ht, rfl, hn, hp, hitem, hj⟩ := h.list hslot hs
  obtain ⟨hplace, -, hindex, howner⟩ := h.junction_columns hj
  have hrowsOf := expectTable_eq h.layout ho.sound (mem_infos hp)
  have hlinks := expectTable_eq h.layout ho.sound (mem_infos hj)
  let a : OpenSource := ({ table := item.name, shortName := some "i" }, ⟨item.info, content.rowsOf item.name⟩)
  let b : OpenSource := (
    { table := junctionName item.name t.name, shortName := some "j",
      on := some (.equals (.of "j" item.key) (.of "i" item.key)) },
    ⟨(Table.junction item.name t.name).info, content.rowsOf (junctionName item.name t.name)⟩)
  have hlabels : sameName a.1.label b.1.label = false := show sameName "i" "j" = false by decide +kernel
  have hids : ∀ r ∈ content.rowsOf item.name, r.value 0 = .integer r.id :=
    fun r hr => (ho.sound.fits item.info (mem_infos hp) r hr).key
  have hjoined : Joined content item a b item.key item.key "i" "j" (primaryKey t.name) 0 1 2
      (Table.junction item.name t.name).info (fun r _ => r) (fun _ r' => r') := by
    constructor
    case labels => exact hlabels
    case first => exact hrowsOf
    case second => exact hlinks
    case free => rfl
    case on => rfl
    case left => exact columnIndex?_key (h.distinct item hp)
    case right => exact hindex
    case leftIds => exact fun r hr => hids r hr ▸ .integer r.id
    case rightIds =>
      intro r hr
      obtain ⟨⟨m, hm⟩, -⟩ := h.junction_row hn hj ho hr
      exact hm ▸ .integer m
    case picked => exact fun r r' => (filter_label (a := OpenSource.bind a r) (b := OpenSource.bind b r') hlabels).1
    case owned => exact fun r r' => (filter_label (a := OpenSource.bind a r) (b := OpenSource.bind b r') hlabels).2
    case key => exact howner
    case configRow => exact fun _ _ r' hr' => (h.junction_row hn hj ho hr').2
  have hkey : item.info.columnIndex? item.key = some 0 := columnIndex?_key (h.distinct item hp)
  obtain ⟨result, hrun, hrows⟩ := run_joined (h.distinct item hp) hjoined [(.of "i" item.key, false)]
    (fun term hterm => ⟨item.key, 0, by rw [List.mem_singleton.1 hterm], hkey⟩)
    (hjoined.pairwise_key (fun _ _ => rfl) hkey hids (ho.sound.ordered item.info (mem_infos hp)))
  refine ⟨result, hs ▸ hrun, ?_⟩
  have hlink := Slot.link?_list hs s.tables
  have hmem : (Table.junction item.name t.name).link (itemKey item.name) ∈ s.owners :=
    List.mem_filterMap.2 ⟨slot, hslot, hlink⟩
  have hnodup := h.nodup_held hp hitem ho hmem rfl
  have hheld : content.held ((Table.junction item.name t.name).link (itemKey item.name)) =
      (content.rowsOf (junctionName item.name t.name)).filterMap fun r => (r.value 1).id? := by
    unfold Content.held
    rw [← hplace]
    rfl
  rw [hheld] at hnodup
  rw [hrows, Slot.rows_list hs, h.rows_of_link hslot ho.sound hlink rfl, hheld, ← flatMap_ite]
  refine List.flatMap_congr fun r hr => ?_
  rw [← matches_eq hnodup, hids r hr]

/-- **Where every row has its owner, a field can be read**: its rows are those of its slot, and the store stays as it
is. -/
theorem readRows_outcome (h : Regular c s) (hslot : slot ∈ s.slots) {store : Store} (ho : s.Owned none store.content) :
    outcome (Plan.readRows (Plan.readCommand slot.storage)) store = (.ok (slot.rows store.content), store) := by
  obtain ⟨result, hrun, hrows⟩ : ∃ result, (Plan.readQuery slot.storage).run store.content [] = .ok result ∧
      Store.rowsOf result = slot.rows store.content := by
    cases hs : slot.storage with
    | scalar table column => exact hs ▸ h.run_scalar hslot hs ho
    | reference table column target => exact hs ▸ h.run_reference hslot hs ho
    | list table item scalarItems => exact hs ▸ h.run_list hslot hs ho
  have hperform : store.session.perform (.select (Plan.readQuery slot.storage)) [] = (.ok result, store.session) := by
    unfold Session.perform Session.prepare
    dsimp only
    rw [show (Plan.readQuery slot.storage).run store.session.content [] = .ok result from hrun]
    rfl
  have hquery : outcome (Store.perform (.select (Plan.readQuery slot.storage)) []) store = (.ok result, store) := by
    unfold Store.perform
    rw [Store.onSession_outcome, hperform]
    rfl
  exact (outcome_bind_ok hquery).trans (by rw [hrows]; rfl)

end Schema.Regular

end GuardedConfig
