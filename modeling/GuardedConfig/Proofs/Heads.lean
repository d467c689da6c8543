import GuardedConfig.Proofs.Definition

/-!
# `Proofs.Heads` — every text begins with the name and the key of its table

The text of a table begins with its name and the line of its key, whatever its columns say. The reader keeps what it
has read unless it stops, and no part of a definition takes a column or the key away. So if the store takes a text for a
definition, it defines a table with this name and this key.

## Contents

* `lexemes_prefix`, `head_prefix` — the tokens that a text begins with
* `Parts.Continues` — parts are only added: `readColumns_continues`
* `TableInfo.Begins` — a name and a key, which stay: `Begins.addItem`
* `Table.IsAlone`, `Table.IsSimple.isAlone`, `head_of_read`
-/

namespace GuardedConfig

namespace Sql

/-! ## Tokens -/

theorem run_bind_eq_ok {α β : Type} {x : Reading α} {f : α → Reading β} {c : Cursor} {r : β × Cursor} :
    (x >>= f).run c = .ok r ↔ ∃ a c', x.run c = .ok (a, c') ∧ (f a).run c' = .ok r := by
  rw [StateT.run_bind, except_bind_eq_ok]
  exact ⟨fun ⟨⟨a, c'⟩, hx, hf⟩ => ⟨a, c', hx, hf⟩, fun ⟨a, c', hx, hf⟩ => ⟨⟨a, c'⟩, hx, hf⟩⟩

/-- A text that begins with tokens, whatever it goes on with. -/
theorem lexemes_prefix {text : String} {ls : List Lexeme} {tail : List Char} (htext : text.toList = charsOf ls ++ tail)
    (hnul : NulFree (charsOf ls)) (h : Neatly ls (tail.takeWhile (·.toNat != 0))) :
    ls <+: lexemes text := by
  have hcut : text.toList.takeWhile (·.toNat != 0) = charsOf ls ++ tail.takeWhile (·.toNat != 0) := by
    rw [htext, List.takeWhile_append_of_pos fun c hc => by simpa using hnul c hc]
  obtain ⟨k, hk⟩ := Nat.exists_eq_add_of_le (length_le_charsOf h)
  unfold lexemes
  dsimp only
  rw [hcut, show (charsOf ls ++ tail.takeWhile (·.toNat != 0)).length + 1 =
      ls.length + (k + (tail.takeWhile (·.toNat != 0)).length + 1) by
    rw [List.length_append, hk]
    omega, lexemesFrom_charsOf h]
  exact List.prefix_append _ _

/-! ## Parts -/

namespace Parts

/-- What is read after some parts: unless something stops the reading, the parts are still there. -/
def Continues (p p' : Parts) : Prop := p'.stop = none → p.stop = none ∧ p.items <:+ p'.items

variable {p p' p'' : Parts}

theorem Continues.refl (p : Parts) : p.Continues p := fun h => ⟨h, List.suffix_refl _⟩

theorem Continues.trans (h : p.Continues p') (h' : p'.Continues p'') : p.Continues p'' := by
  intro hstop
  obtain ⟨hstop, hsuffix'⟩ := h' hstop
  obtain ⟨hstop, hsuffix⟩ := h hstop
  exact ⟨hstop, hsuffix.trans hsuffix'⟩

theorem continues_add (p : Parts) (item : TableItem) (c : Cursor) : p.Continues (p.add item c) :=
  fun h => ⟨h, List.suffix_cons _ _⟩

theorem continues_addOption (p : Parts) (option : TableOption) (c : Cursor) : p.Continues (p.addOption option c) :=
  fun h => ⟨h, List.suffix_refl _⟩

theorem continues_fail (p : Parts) (f : Fault) : p.Continues (p.fail f) := nofun

/-- The part that is left out is one before which the reading stops. -/
theorem continues_failAt (p : Parts) (c : Cursor) : p.Continues (p.failAt c) := by
  unfold failAt
  dsimp only
  split
  · exact continues_fail p _
  · split <;> exact nofun

end Parts

open Parts

theorem readColumnConstraints_continues (fuel : Nat) (name : Option String) (p : Parts) (c : Cursor) :
    p.Continues (readColumnConstraints fuel name p c).1 := by
  induction fuel generalizing name p c with
  | zero => exact .refl p
  | succ fuel ih =>
    rw [readColumnConstraints]
    split
    · exact continues_fail p _
    · exact ih _ _ _
    · split
      · exact .refl p
      · exact (continues_add p _ _).trans (ih _ _ _)
      · exact continues_fail p _

theorem readTableConstraints_continues (fuel : Nat) (name : Option String) (p : Parts) (c : Cursor) :
    p.Continues (readTableConstraints fuel name p c).1 := by
  induction fuel generalizing name p c with
  | zero => exact .refl p
  | succ fuel ih =>
    rw [readTableConstraints]
    split
    · exact continues_fail p _
    · exact ih _ _ _
    · split
      · exact (continues_add p _ _).trans (ih _ _ _)
      · exact continues_fail p _
      · split
        · split
          · dsimp only
            split
            · exact ih _ _ _
            · exact continues_failAt p _
          · exact .refl p
        · exact .refl p

theorem readFurther_continues_of {fuel : Nat} (h : ∀ p c, Continues p (readColumns fuel p c).1) (p : Parts) (c : Cursor) :
    p.Continues (readFurther fuel p c).1 := by
  unfold readFurther
  split
  · split
    · dsimp only
      split
      · exact readTableConstraints_continues _ _ _ _
      · split
        · exact continues_failAt p _
        · exact h _ _
    · exact .refl p
  · exact .refl p

theorem readColumns_continues (fuel : Nat) (p : Parts) (c : Cursor) : p.Continues (readColumns fuel p c).1 := by
  induction fuel generalizing p c with
  | zero => exact .refl p
  | succ fuel ih =>
    rw [readColumns]
    dsimp only
    split
    · exact continues_fail p _
    · rename_i column c' _
      have hconstraints := (continues_add p (.column column) c').trans
        (readColumnConstraints_continues (c'.rest.length + 1) none _ c')
      split
      · exact hconstraints
      · exact hconstraints.trans (readFurther_continues_of ih _ _)

theorem readFurther_continues (fuel : Nat) (p : Parts) (c : Cursor) : p.Continues (readFurther fuel p c).1 :=
  readFurther_continues_of (readColumns_continues fuel) p c

theorem readOptions_continues (fuel : Nat) (p : Parts) (c : Cursor) : p.Continues (readOptions fuel p c).1 := by
  induction fuel generalizing p c with
  | zero => exact .refl p
  | succ fuel ih =>
    rw [readOptions]
    split
    · exact .refl p
    · dsimp only
      split
      · exact continues_failAt p _
      · split
        · exact (continues_addOption p _ _).trans (ih _ _)
        · exact continues_fail p _

/-- What stands behind the columns of a definition. -/
def readEnd (p : Parts) (c : Cursor) : Parts × Cursor :=
  if p.stop.isSome then (p, c)
  else
    match (expectSign ")").run c with
    | .error _ => (p.failAt c, c)
    | .ok (_, c) => readOptions (c.rest.length + 1) p c

theorem readEnd_continues (p : Parts) (c : Cursor) : p.Continues (readEnd p c).1 := by
  unfold readEnd
  split
  · exact .refl p
  · split
    · exact continues_failAt p _
    · exact readOptions_continues _ _ _

/-! ## Tables -/

theorem map_modify {α β : Type} {f : α → α} {g : α → β} (h : ∀ a, g (f a) = g a) (l : List α) (i : Nat) :
    (l.modify i f).map g = l.map g := by
  refine List.ext_getElem? fun j => ?_
  rw [List.getElem?_map, List.getElem?_map, List.getElem?_modify]
  cases l[j]? with
  | none => rfl
  | some a => by_cases hij : i = j <;> simp [hij, h]

/-- A table with a name, whose first column is its key. -/
structure TableInfo.Begins (t : TableInfo) (title label : String) : Prop where
  name : t.name = title
  key : t.key = some 0
  hasPrimaryKey : t.hasPrimaryKey = true
  columns : [label] <+: t.columns.map (·.name)

namespace TableInfo.Begins

variable {t t' : TableInfo} {title label : String}

theorem withLast (h : t.Begins title label) {f : ColumnInfo → ColumnInfo} (hf : ∀ c, (f c).name = c.name) :
    (withLast t f).Begins title label where
  name := h.name
  key := h.key
  hasPrimaryKey := h.hasPrimaryKey
  columns := by
    show [label] <+: (t.columns.modify _ f).map (·.name)
    rw [map_modify hf]
    exact h.columns

theorem addColumn (h : t.Begins title label) {c : ColumnDef} (hok : addColumn t c = .ok t') : t'.Begins title label := by
  unfold Sql.addColumn at hok
  split at hok
  · cases hok
  · cases hok
    refine ⟨h.name, h.key, h.hasPrimaryKey, ?_⟩
    rw [List.map_append]
    exact h.columns.trans (List.prefix_append _ _)

theorem addUnique (h : t.Begins title label) {columns : List (Nat × Collation)} {conflict : Option Conflict} {primary : Bool}
    (hok : addUnique t columns conflict primary = .ok t') : t'.Begins title label := by
  unfold Sql.addUnique at hok
  split at hok
  · cases hok
    exact ⟨h.name, h.key, h.hasPrimaryKey, h.columns⟩
  · split at hok
    · cases hok
    · cases hok
      exact ⟨h.name, h.key, h.hasPrimaryKey, h.columns⟩

/-- There is no second key. -/
theorem addPrimaryKey_ne_ok (h : t.Begins title label) {column : Option Nat} {columns : Except Fault (List (Nat × Collation))}
    {descending autoincrement : Bool} {conflict : Option Conflict} :
    addPrimaryKey t column columns descending autoincrement conflict ≠ .ok t' := by
  unfold addPrimaryKey
  rw [if_pos h.hasPrimaryKey]
  nofun

theorem addColumnConstraint (h : t.Begins title label) {c : ColumnConstraint} (hok : addColumnConstraint t c = .ok t') :
    t'.Begins title label := by
  cases c with
  | primaryKey => exact absurd hok h.addPrimaryKey_ne_ok
  | notNull conflict =>
    cases hok
    exact h.withLast fun _ => rfl
  | null =>
    cases hok
    exact h
  | unique conflict => exact h.addUnique hok
  | check condition label =>
    cases hok
    exact ⟨h.name, h.key, h.hasPrimaryKey, h.columns⟩
  | default e =>
    unfold Sql.addColumnConstraint at hok
    dsimp only at hok
    split at hok
    · cases hok
      exact h.withLast fun _ => rfl
    · cases hok
  | collate name =>
    unfold Sql.addColumnConstraint at hok
    dsimp only at hok
    split at hok
    · cases hok
    · rename_i collation _
      cases hok
      obtain ⟨hname, hkey, hprimary, hcolumns⟩ := h.withLast (f := fun c => { c with collation }) fun _ => rfl
      exact ⟨hname, hkey, hprimary, hcolumns⟩
  | references r =>
    unfold Sql.addColumnConstraint at hok
    dsimp only at hok
    split at hok
    · cases hok
    · cases hok
      exact ⟨h.name, h.key, h.hasPrimaryKey, h.columns⟩
  | defer deferred =>
    cases hok
    exact ⟨h.name, h.key, h.hasPrimaryKey, h.columns⟩
  | generated e => cases hok

theorem addConstraint (h : t.Begins title label) {c : TableConstraint} (hok : addConstraint t c = .ok t') :
    t'.Begins title label := by
  cases c with
  | primaryKey => exact absurd hok h.addPrimaryKey_ne_ok
  | unique columns conflict =>
    obtain ⟨_, -, hok⟩ := except_bind_eq_ok.1 hok
    exact h.addUnique hok
  | check condition label =>
    cases hok
    exact ⟨h.name, h.key, h.hasPrimaryKey, h.columns⟩
  | foreignKey columns r =>
    unfold Sql.addConstraint at hok
    dsimp only at hok
    split at hok
    · cases hok
    · obtain ⟨_, -, hok⟩ := except_bind_eq_ok.1 hok
      cases hok
      exact ⟨h.name, h.key, h.hasPrimaryKey, h.columns⟩

/-- Whatever is added to a table, its name and its key stay. -/
theorem addItem (h : t.Begins title label) {item : TableItem} (hok : addItem t item = .ok t') : t'.Begins title label := by
  cases item with
  | column c => exact h.addColumn hok
  | columnConstraint c => exact h.addColumnConstraint hok
  | constraint c => exact h.addConstraint hok

theorem addItems (h : t.Begins title label) {items : List TableItem} (hok : items.foldlM Sql.addItem t = .ok t') :
    t'.Begins title label := by
  induction items generalizing t with
  | nil =>
    cases hok
    exact h
  | cons item items ih =>
    rw [List.foldlM_cons] at hok
    obtain ⟨next, hitem, hok⟩ := except_bind_eq_ok.1 hok
    exact ih (h.addItem hitem) hok

end TableInfo.Begins

end Sql

namespace Schema

open Sql

variable {t : Table}

/-! ## Texts of tables -/

/-- The text of a table begins with its name and the line of its key. A sign follows. -/
theorem head_prefix (h : NulFree t.name.toList) :
    ∃ gap c ls, lexemes t.createText = t.headTokens ++ (t.keyTokens ++ sign gap c :: ls) := by
  obtain ⟨gap, c, tail, htail, hnul, hneat⟩ : ∃ gap c tail,
      (t.columns.map Table.columnLine ++ t.constraints ++ t.foreignKeys.map Table.foreignKeyLine).flatMap
        (fun line => ',' :: (lineBreak ++ line.toList)) ++ ['\n', ')'] = charsOf [sign gap c] ++ tail ∧
      NulFree (charsOf [sign gap c]) ∧
      ∀ rest, Neatly [sign gap c] rest ∧ Separated (charsOf [sign gap c] ++ rest) := by
    cases t.columns.map Table.columnLine ++ t.constraints ++ t.foreignKeys.map Table.foreignKeyLine with
    | nil =>
      exact ⟨['\n'], ')', [], rfl, by decide, fun _ =>
        ⟨⟨neat_sign (by decide) (by decide), .inl rfl, trivial⟩, separated_cons (by decide) _⟩⟩
    | cons line lines =>
      exact ⟨[], ',', _, rfl, by decide, fun _ =>
        ⟨⟨neat_sign (by decide) (by decide), .inl rfl, trivial⟩, separated_cons (by decide) _⟩⟩
  have htext : t.createText.toList = charsOf (t.headTokens ++ (t.keyTokens ++ [sign gap c])) ++ tail := by
    rw [toList_createText, htail, charsOf_append, charsOf_append]
    simp only [List.append_assoc]
  obtain ⟨hneat, hseparated⟩ := hneat (tail.takeWhile (·.toNat != 0))
  have hnul : NulFree (charsOf (t.headTokens ++ (t.keyTokens ++ [sign gap c]))) := by
    rw [charsOf_append, charsOf_append]
    exact nulFree_append.2 ⟨Table.nulFree_headTokens h, nulFree_append.2 ⟨Table.nulFree_keyTokens h, hnul⟩⟩
  obtain ⟨ls, hls⟩ := lexemes_prefix htext hnul (neatly_append.2 ⟨t.neatly_headTokens _, neatly_append.2
    ⟨t.neatly_keyTokens hseparated, hneat⟩⟩)
  exact ⟨gap, c, ls, by rw [← hls]; simp⟩

/-- A definition that begins with the name and the line of the key of a table. -/
theorem head_of_readTable {gap : List Char} {c : Char} {ls : List Lexeme} {d : TableText} {after : Cursor}
    (hread : readTable.run { rest := t.headTokens.drop 2 ++ (t.keyTokens ++ sign gap c :: ls) } = .ok (d, after)) :
    d.ifNotExists = true ∧ d.name = t.name ∧ (d.stop = none → t.keyItems <+: d.items) := by
  let start := t.keyTokens ++ sign gap c :: ls
  let named := quoted [' '] t.name :: sign [' '] '(' :: start
  unfold readTable at hread
  rw [run_bind_ok (show (skipWord "IF").run _ =
      .ok (true, { rest := keyword "NOT" :: keyword "EXISTS" :: named }) from rfl), if_pos rfl,
    run_bind_ok (show (expectWord "NOT").run _ = .ok ((), { rest := keyword "EXISTS" :: named }) from rfl),
    run_bind_ok (show (expectWord "EXISTS").run _ = .ok ((), { rest := named }) from rfl)] at hread
  obtain ⟨⟨name, tokens⟩, _, hname, hread⟩ := run_bind_eq_ok.1 hread
  cases hname
  obtain ⟨⟨⟩, _, hopen, hread⟩ := run_bind_eq_ok.1 hread
  cases hopen
  obtain ⟨_, _, hget, hread⟩ := run_bind_eq_ok.1 hread
  cases hget
  -- the key is read first, and what is read later leaves it
  obtain ⟨p, hp, heq⟩ := readColumns_key (ls.length + 5) t (show Parts.Found {} [] from ⟨rfl, rfl, rfl⟩) gap c ls
  have hcontinues := readFurther_continues (ls.length + 5) p { rest := sign gap c :: ls }
  rw [← heq] at hcontinues
  cases hread
  refine ⟨rfl, rfl, fun hstop => ?_⟩
  obtain ⟨-, hitems⟩ := (hcontinues.trans (readEnd_continues _ _)) hstop
  rw [hp.items, List.append_nil] at hitems
  have hprefix := List.reverse_prefix.2 hitems
  rwa [List.reverse_reverse] at hprefix

theorem head_of_readFirst (hname : NulFree t.name.toList) {d : TableText} {parameters : Nat} {rest : List Lexeme}
    (hread : readFirst (lexemes t.createText) = .ok (some ⟨.create d, parameters, rest⟩)) :
    d.ifNotExists = true ∧ d.name = t.name ∧ (d.stop = none → t.keyItems <+: d.items) := by
  obtain ⟨gap, c, ls, hlexemes⟩ := head_prefix hname
  rw [hlexemes] at hread
  have hfirst : (t.headTokens ++ (t.keyTokens ++ sign gap c :: ls)).dropWhile (·.isSign ";") =
      t.headTokens ++ (t.keyTokens ++ sign gap c :: ls) := rfl
  have hsentence : readSentence.run { rest := t.headTokens ++ (t.keyTokens ++ sign gap c :: ls) } =
      ((do
        let read ← withTokens readTable
        return .create { read.1 with text := "CREATE TABLE " ++ textOf read.2 } : Reading Sentence).run
          { rest := t.headTokens.drop 2 ++ (t.keyTokens ++ sign gap c :: ls) }) := rfl
  unfold readFirst at hread
  rw [hfirst] at hread
  split at hread
  · cases hread
  · rw [hsentence] at hread
    split at hread
    · rename_i sentence c hrun
      cases hread
      obtain ⟨read, _, hread, hrun⟩ := run_bind_eq_ok.1 hrun
      cases hrun
      obtain ⟨_, _, hget, hread⟩ := run_bind_eq_ok.1 hread
      cases hget
      obtain ⟨table, _, htable, hread⟩ := run_bind_eq_ok.1 hread
      obtain ⟨_, _, -, hread⟩ := run_bind_eq_ok.1 hread
      cases hread
      have hhead := head_of_readTable htable
      exact hhead
    · cases hread

/-- **Whatever a text defines has the name and the key of its table.** -/
theorem head_of_read {d : TableText} {parameters : Nat} {rest : List Lexeme}
    (hread : readFirst (lexemes t.createText) = .ok (some ⟨.create d, parameters, rest⟩)) :
    d.ifNotExists = true ∧ d.name = t.name ∧ ∀ info, d.info = .ok info → info.Begins t.name t.key := by
  by_cases hname : NulFree t.name.toList
  · obtain ⟨hexists, hnamed, hitems⟩ := head_of_readFirst hname hread
    refine ⟨hexists, hnamed, fun info hinfo => ?_⟩
    unfold TableText.info at hinfo
    obtain ⟨i, hfold, hinfo⟩ := except_bind_eq_ok.1 hinfo
    cases hfault : d.fault? with
    | some f =>
      rw [hfault] at hinfo
      cases hinfo
    | none =>
      rw [hfault] at hinfo
      obtain ⟨⟨⟩, -, hinfo⟩ := except_bind_eq_ok.1 hinfo
      obtain ⟨⟨⟩, -, hinfo⟩ := except_bind_eq_ok.1 hinfo
      cases hinfo
      obtain ⟨items, hitems⟩ := hitems (Option.or_eq_none_iff.1 hfault).2
      rw [← hitems, List.foldlM_append] at hfold
      obtain ⟨first, hkey, hfold⟩ := except_bind_eq_ok.1 hfold
      have hbegins : first.Begins t.name t.key := by
        rw [hnamed] at hkey
        cases hkey
        exact ⟨rfl, rfl, rfl, List.prefix_refl _⟩
      exact hbegins.addItems hfold
  · obtain ⟨text, hlexemes⟩ := Table.lexemes_createText_of_nul hname
    obtain ⟨f, hf⟩ := readFirst_of_illegal [' '] text
    rw [hlexemes, hf] at hread
    cases hread

/-- A table whose text is read as a definition and nothing else. -/
def Table.IsAlone (t : Table) : Prop :=
  ∃ d parameters, readFirst (lexemes t.createText) = .ok (some ⟨.create d, parameters, []⟩)

theorem Table.IsSimple.isAlone (h : t.IsSimple) (hw : t.IsWritable) : t.IsAlone := by
  refine ⟨t.definition, 0, ?_⟩
  rw [lexemes_createText h hw]
  exact readFirst_tokens h

end Schema

end GuardedConfig
