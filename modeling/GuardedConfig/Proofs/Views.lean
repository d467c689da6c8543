import GuardedConfig.Proofs.Outcome
import GuardedConfig.Sql.Query

/-!
# `Proofs.Views` — what an expression sees of a content

An expression looks at the content only through its subqueries, and a subquery looks only at its table. So without
subqueries the content does not matter, and the identifiers that have been used never do.

## Contents

* `Expr.Sees` — two contents that an expression cannot tell apart
* `affinityOf?_congr`, `collationOf?_congr`, `eval_congr` — along the structure of expressions
* `joinSources_of_tables`, `valueOverAll_of_tables`, `Select.run_of_tables` — queries look at tables alone
-/

namespace GuardedConfig.Sql

variable {c d : Content} {params : List Value}

/-! ## Contents that look the same -/

namespace Expr

/-- The table of a subquery. -/
def subquery? : Expr → Option String
  | first _ table _ | inSelect _ _ _ table _ => some table
  | _ => none

/-- Two contents have the same tables for the subqueries among some parts. -/
def SameFor (parts : List Expr) (c d : Content) : Prop :=
  ∀ part ∈ parts, ∀ table ∈ part.subquery?, c.find? table = d.find? table

/-- Two contents are the same to an expression: they have the same tables for its subqueries. -/
abbrev Sees (e : Expr) (c d : Content) : Prop := SameFor e.parts c d

/-- Without subqueries, the content does not matter. -/
theorem Sees.of_none {e : Expr} (h : ∀ part ∈ e.parts, part.subquery? = none) (c d : Content) : e.Sees c d := by
  intro part hpart table htable
  rw [h part hpart] at htable
  cases htable

/-- Contents with the same tables are the same to all expressions. -/
theorem Sees.of_tables (h : c.tables = d.tables) (e : Expr) : e.Sees c d := by
  intro _ _ table _
  unfold Content.find?
  rw [h]

theorem sameFor_append {ps qs : List Expr} : SameFor (ps ++ qs) c d ↔ SameFor ps c d ∧ SameFor qs c d :=
  List.forall_mem_append

theorem sameFor_cons {e : Expr} {ps : List Expr} :
    SameFor (e :: ps) c d ↔ (∀ table ∈ e.subquery?, c.find? table = d.find? table) ∧ SameFor ps c d :=
  List.forall_mem_cons

/-- An expression that is no subquery is left with its parts. -/
theorem SameFor.tail {e : Expr} {ps : List Expr} (h : SameFor (e :: ps) c d) : SameFor ps c d := (sameFor_cons.1 h).2

end Expr

open Sql.Expr

/-! ## Operands -/

theorem affinityOf?_congr : ∀ {e : Expr} (_ : e.Sees c d) (scopes : List (List Binding)),
    affinityOf? ⟨c, params, scopes⟩ e = affinityOf? ⟨d, params, scopes⟩ e
  | .collate e name, h, scopes => by
    simp only [affinityOf?]
    exact affinityOf?_congr (h.tail : e.Sees c d) scopes
  | .first selected table condition, h, scopes => by
    obtain ⟨hcolumn, -⟩ := sameFor_append.1 h
    obtain ⟨htable, hcolumn⟩ := sameFor_cons.1 hcolumn
    simp only [affinityOf?, htable table rfl]
    cases d.find? table with
    | none => rfl
    | some t => exact affinityOf?_congr hcolumn _
  | .cast .., _, _ | .column .., _, _ | .literal _, _, _ | .parameter _, _, _ | .unary .., _, _ | .binary .., _, _
  | .call .., _, _ | .between .., _, _ | .isNull .., _, _ | .inList .., _, _ | .choose .., _, _ | .inSelect .., _, _ => by
    simp only [affinityOf?]
    try rfl

/-- Collations are a matter of the tables in scope. -/
theorem collationOf?_congr (c d : Content) (params : List Value) (scopes : List (List Binding)) :
    ∀ e : Expr, collationOf? ⟨c, params, scopes⟩ e = collationOf? ⟨d, params, scopes⟩ e
  | .cast e _ => by
    simp only [collationOf?]
    exact collationOf?_congr c d params scopes e
  | .unary op e => by
    cases op with
    | plus =>
      simp only [collationOf?]
      exact collationOf?_congr c d params scopes e
    | negate | bitNot | not => rfl
  | .column .. | .collate .. | .literal _ | .parameter _ | .binary .. | .call .. | .between .. | .isNull .. | .inList ..
  | .choose .. | .first .. | .inSelect .. => rfl

/-! ## Values -/

mutual

/-- The value of an expression is the same in contents that are the same to it. -/
theorem eval_congr : ∀ {e : Expr} (_ : e.Sees c d) (scopes : List (List Binding)),
    eval ⟨c, params, scopes⟩ e = eval ⟨d, params, scopes⟩ e
  | .literal _, _, _ | .parameter _, _, _ | .column .., _, _ => by
    simp only [eval]
    try rfl
  | .unary _ e, h, scopes | .cast e _, h, scopes | .collate e _, h, scopes | .isNull _ e, h, scopes => by
    simp only [eval, eval_congr (h.tail : e.Sees c d) scopes]
  | .binary op l r, h, scopes => by
    obtain ⟨hl, hr⟩ := sameFor_append.1 h
    have htest : truthTest? ⟨c, params, scopes⟩ op r = truthTest? ⟨d, params, scopes⟩ op r := rfl
    simp only [eval, eval_congr hl.tail scopes, eval_congr hr scopes, htest, affinityOf?_congr hl.tail scopes,
      affinityOf?_congr hr scopes, collationOf?_congr c d params scopes]
  | .call name args star, h, scopes => by
    simp only [eval, evalAll_congr h.tail scopes, collationOf?_congr c d params scopes]
  | .between negated e low high, h, scopes => by
    obtain ⟨h, hhigh⟩ := sameFor_append.1 h
    obtain ⟨he, hlow⟩ := sameFor_append.1 h
    simp only [eval, eval_congr he.tail scopes, eval_congr hlow scopes, eval_congr hhigh scopes,
      affinityOf?_congr he.tail scopes, affinityOf?_congr hlow scopes, affinityOf?_congr hhigh scopes,
      collationOf?_congr c d params scopes]
  | .inList negated e items, h, scopes => by
    obtain ⟨he, hitems⟩ := sameFor_append.1 h
    simp only [eval, eval_congr he.tail scopes, evalAll_congr hitems scopes, affinityOf?_congr he.tail scopes,
      collationOf?_congr c d params scopes]
  | .choose conditions results otherwise, h, scopes => by
    obtain ⟨h, hotherwise⟩ := sameFor_append.1 h
    obtain ⟨hconditions, hresults⟩ := sameFor_append.1 h
    simp only [eval, evalAll_congr hconditions.tail scopes, evalAll_congr hresults scopes,
      eval_congr hotherwise scopes]
  | .first selected table condition, h, scopes => by
    obtain ⟨h, hcondition⟩ := sameFor_append.1 h
    obtain ⟨htable, hcolumn⟩ := sameFor_cons.1 h
    have hcolumn := fun scopes => eval_congr hcolumn scopes
    have hcondition := fun scopes => eval_congr hcondition scopes
    simp only [eval, htable table rfl, Env.push, hcolumn, hcondition]
  | .inSelect negated e selected table condition, h, scopes => by
    obtain ⟨h, hcondition⟩ := sameFor_append.1 h
    obtain ⟨h, hcolumn⟩ := sameFor_append.1 h
    obtain ⟨htable, he⟩ := sameFor_cons.1 h
    have haffinity : ∀ scopes, affinityOf? ⟨c, params, scopes⟩ selected = affinityOf? ⟨d, params, scopes⟩ selected :=
      affinityOf?_congr hcolumn
    have hcolumn := fun scopes => eval_congr hcolumn scopes
    have hcondition := fun scopes => eval_congr hcondition scopes
    simp only [eval, htable table rfl, Env.push, hcolumn, hcondition, eval_congr he scopes, affinityOf?_congr he scopes,
      haffinity, collationOf?_congr c d params]

theorem evalAll_congr : ∀ {es : List Expr} (_ : SameFor (partsOfAll es) c d) (scopes : List (List Binding)),
    evalAll ⟨c, params, scopes⟩ es = evalAll ⟨d, params, scopes⟩ es
  | [], _, _ => by simp only [evalAll]
  | e :: es, h, scopes => by
    obtain ⟨he, hes⟩ := sameFor_append.1 h
    simp only [evalAll, eval_congr he scopes, evalAll_congr hes scopes]

end

/-! ## Queries -/

section Queries

variable (h : c.tables = d.tables) (scopes : List (List Binding))
include h

theorem eval_of_tables (e : Expr) : eval ⟨c, params, scopes⟩ e = eval ⟨d, params, scopes⟩ e :=
  eval_congr (.of_tables h e) scopes

theorem satisfies_of_tables (condition : Option Expr) :
    Env.satisfies ⟨c, params, scopes⟩ condition = Env.satisfies ⟨d, params, scopes⟩ condition := by
  cases condition with
  | none => rfl
  | some e => simp only [Env.satisfies, eval_of_tables h]

theorem joinSources_of_tables (sources : List OpenSource) (scope : List Binding) :
    joinSources ⟨c, params, scopes⟩ sources scope = joinSources ⟨d, params, scopes⟩ sources scope := by
  induction sources generalizing scope with
  | nil => rfl
  | cons source sources ih =>
    have hrest := funext ih
    simp only [joinSources, Env.push, satisfies_of_tables h, hrest]

theorem check_of_tables : Env.check ⟨c, params, scopes⟩ = Env.check ⟨d, params, scopes⟩ :=
  funext fun e => by simp only [Env.check, eval_of_tables h]

theorem valueOverAll_of_tables (rows : List (List Binding)) (empty : List Binding) (e : Expr) :
    valueOverAll ⟨c, params, scopes⟩ rows empty e = valueOverAll ⟨d, params, scopes⟩ rows empty e := by
  have hcollation : ∀ scopes, collationOf? ⟨c, params, scopes⟩ = collationOf? ⟨d, params, scopes⟩ :=
    fun scopes => funext (collationOf?_congr c d params scopes)
  simp only [valueOverAll, Env.push, check_of_tables h, eval_of_tables h, hcollation]

/-- A query does not depend on the identifiers that have been used. -/
theorem Select.run_of_tables (s : Select) : s.run c params = s.run d params := by
  have htable : ∀ table, expectTable c table = expectTable d table := fun table => by
    simp only [expectTable, Content.find?, h]
  have hcolumns : ∀ scopes sources, outputColumns ⟨c, params, scopes⟩ sources = outputColumns ⟨d, params, scopes⟩ sources :=
    fun scopes sources => funext fun column => by cases column <;> rfl
  have hlimit : ∀ limit, limitOf ⟨c, params, []⟩ limit = limitOf ⟨d, params, []⟩ limit := fun limit => by
    simp only [limitOf, eval_of_tables h]
  simp only [Select.run, Env.push, htable, hcolumns, check_of_tables h, valueOverAll_of_tables h, hlimit,
    joinSources_of_tables h, satisfies_of_tables h, eval_of_tables h, collationOf?_congr c d params]

end Queries

end GuardedConfig.Sql
