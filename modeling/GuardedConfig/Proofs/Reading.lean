import GuardedConfig.Proofs.Outcome
import GuardedConfig.Proofs.TableText
import GuardedConfig.Sql.ReadStatement

/-!
# `Proofs.Reading` — the definition that the tokens of a table describe

The tokens of the statement that creates a simple table are read back as its parts: the key, the columns with what
junctions demand of theirs, and the foreign keys. The reader stops at no token before the end.

## Contents

* `Column.items`, `ForeignKey.item`, `Table.items`
* `readTypeName_keyword`, `readColumnConstraints_sign`, `readColumns_bare`, `readColumns_required`
* `IsRead` — the lines of columns
* `readTableConstraints_foreignKeys`, `readFurther_lines` — by induction on the lines
* `Table.definition`, `readFirst_tokensWith`, `readFirst_tokens`
-/

namespace GuardedConfig.Schema

open Sql

/-! ## Parts -/

/-- The parts of a definition that a column gives. -/
def Column.items (c : Column) : List TableItem :=
  if c.type = linkType then [.column ⟨c.name, "INTEGER"⟩, .columnConstraint (.notNull none)]
  else [.column ⟨c.name, c.type⟩]

/-- What the store does by a rule. -/
def DeleteRule.action : DeleteRule → ReferenceAction
  | cascade => .cascade
  | setNull => .setNull
  | setDefault => .setDefault
  | restrict => .restrict
  | noAction => .noAction

/-- The clause of a foreign key. -/
def ForeignKey.clause (k : ForeignKey) : References where
  table := k.references
  columns := [primaryKey k.references]
  onDelete := (k.onDelete.map DeleteRule.action).getD .noAction

/-- The part of a definition that a foreign key gives. -/
def ForeignKey.item (k : ForeignKey) : TableItem := .constraint (.foreignKey [k.column] k.clause)

/-- The parts of a definition that the key gives. -/
def Table.keyItems (t : Table) : List TableItem :=
  [.column ⟨t.key, "INTEGER"⟩, .columnConstraint (.primaryKey false none true)]

/-- The parts of the definition of a simple table. -/
def Table.items (t : Table) : List TableItem :=
  t.keyItems ++ (t.columns.flatMap Column.items ++ t.foreignKeys.map ForeignKey.item)

/-- The parts of the definition of a table whose columns give some parts. -/
def Table.itemsWith (item : Column → List TableItem) (t : Table) : List TableItem :=
  t.keyItems ++ (t.columns.flatMap item ++ t.foreignKeys.map ForeignKey.item)

end GuardedConfig.Schema

namespace GuardedConfig.Sql

open Schema

/-! ## Steps -/

theorem run_bind_ok {α β : Type} {x : Reading α} {c c' : Cursor} {a : α} (h : x.run c = .ok (a, c'))
    (f : α → Reading β) : (x >>= f).run c = (f a).run c' := by
  rw [StateT.run_bind, h]
  rfl

/-- A type of one word. -/
theorem readTypeName_keyword {w : String} (hw : isTypePart (keyword w) = true) {l : Lexeme}
    (hl : isTypePart l = false) (hsign : l.isSign "(" = false) (ls : List Lexeme) :
    readTypeName.run { rest := keyword w :: l :: ls } = .ok (w, { rest := l :: ls }) := by
  have hwords : ∀ fuel, (readTypeWords (fuel + 2)).run { rest := keyword w :: l :: ls } =
      .ok ((), { rest := l :: ls }) := by
    intro fuel
    have hstop : (readTypeWords (fuel + 1)).run { rest := l :: ls } = .ok ((), { rest := l :: ls }) := by
      rw [readTypeWords, run_bind_ok (show peek?.run _ = .ok (some l, _) from rfl), Option.map_some, Option.getD_some,
        hl]
      rfl
    rw [readTypeWords, run_bind_ok (show peek?.run _ = .ok (some (keyword w), _) from rfl), Option.map_some,
      Option.getD_some, hw, if_pos rfl,
      run_bind_ok (show advance.run _ = .ok ((), { rest := l :: ls }) from rfl), hstop]
  have hskip : (skipSign "(").run { rest := l :: ls } = .ok (false, { rest := l :: ls }) := by
    unfold skipSign
    rw [run_bind_ok (show peek?.run _ = .ok (some l, _) from rfl), Option.map_some, Option.getD_some, hsign]
    rfl
  have hstep : (do
      let before := (← get).rest.length
      readTypeWords before
      if (← get).rest.length < before then
        if ← skipSign "(" then
          readSignedNumber
          if ← skipSign "," then readSignedNumber
          expectSign ")" : Reading Unit).run { rest := keyword w :: l :: ls } = .ok ((), { rest := l :: ls }) := by
    rw [run_bind_ok (show (get : Reading Cursor).run _ = .ok (_, _) from rfl)]
    dsimp only
    rw [show (keyword w :: l :: ls).length = ls.length + 2 from rfl, run_bind_ok (hwords _),
      run_bind_ok (show (get : Reading Cursor).run _ = .ok (_, _) from rfl),
      if_pos (show (l :: ls).length < ls.length + 2 from Nat.lt_succ_self _), run_bind_ok hskip]
    rfl
  unfold readTypeName withTokens
  rw [run_bind_ok (show _ = Except.ok (((), [keyword w]), ({ rest := l :: ls } : Cursor)) from ?_)]
  · have htext : textOf [keyword w] = w := by
      show String.ofList (w.toList ++ []) = w
      rw [List.append_nil, String.ofList_toList]
    show Except.ok (textOf [keyword w], _) = _
    rw [htext]
  · rw [run_bind_ok (show (get : Reading Cursor).run _ = .ok (_, _) from rfl), run_bind_ok hstep,
      run_bind_ok (show (get : Reading Cursor).run _ = .ok (_, _) from rfl)]
    show Except.ok (((), (keyword w :: l :: ls).take (ls.length + 1 + 1 - (ls.length + 1))), _) = _
    rw [Nat.add_sub_cancel_left]
    rfl

/-- A sign is no constraint of a column. -/
theorem readColumnConstraint_sign (name : Option String) (gap : List Char) (c : Char) (ls : List Lexeme) :
    (readColumnConstraint name).run { rest := sign gap c :: ls } = .ok (none, { rest := sign gap c :: ls }) := by
  unfold readColumnConstraint
  rw [run_bind_ok (show (skipWord "DEFAULT").run _ = .ok (false, _) from rfl), if_neg (by simp),
    run_bind_ok (show (skipWord "NULL").run _ = .ok (false, _) from rfl), if_neg (by simp),
    run_bind_ok (show (get : Reading Cursor).run _ = .ok (_, _) from rfl)]
  split
  · rw [run_bind_ok (show readDeferrable.run _ = .ok (none, _) from rfl)]
    rfl
  · rfl

theorem readColumnConstraints_sign (fuel : Nat) (p : Parts) (gap : List Char) (c : Char) (ls : List Lexeme) :
    readColumnConstraints (fuel + 1) none p { rest := sign gap c :: ls } = (p, { rest := sign gap c :: ls }) := by
  rw [readColumnConstraints, show readConstraintName.run { rest := sign gap c :: ls } =
    .ok (none, { rest := sign gap c :: ls }) from rfl]
  dsimp only
  rw [readColumnConstraint_sign]

/-- What stands behind a column and its constraints. -/
def readFurther (fuel : Nat) (p : Parts) (c : Cursor) : Parts × Cursor :=
  match c.rest with
  | comma :: rest =>
    if comma.isSign "," then
      let after := { c with rest := rest }
      if (rest.head?.map beginsConstraint).getD false then readTableConstraints (rest.length + 1) none p after
      else if rest.isEmpty then (p.failAt after, after)
      else readColumns fuel p after
    else (p, c)
  | [] => (p, c)

/-- A column is its name and its type, and then its constraints. -/
theorem readColumns_eq (fuel : Nat) (p : Parts) {name type : String} {ls rest rest' : List Lexeme}
    (htype : readTypeName.run { rest := ls } = .ok (type, { rest })) {p' : Parts}
    (hconstraints : readColumnConstraints (rest.length + 1) none (p.add (.column ⟨name, type⟩) { rest }) { rest } =
      (p', { rest := rest' })) (hstop : p'.stop = none) :
    readColumns (fuel + 1) p { rest := quoted lineBreak name :: ls } = readFurther fuel p' { rest := rest' } := by
  have hcolumn : (do
      let name ← expectName
      return ⟨name, ← readTypeName⟩ : Reading ColumnDef).run { rest := quoted lineBreak name :: ls } =
      .ok (⟨name, type⟩, { rest }) := by
    rw [run_bind_ok (show expectName.run _ = .ok (name, { rest := ls }) from rfl), run_bind_ok htype]
    rfl
  rw [readColumns]
  dsimp only
  rw [hcolumn]
  dsimp only
  rw [hconstraints]
  dsimp only
  rw [hstop]
  rfl

/-! ## Lines -/

/-- What reading has found without stopping. -/
structure Parts.Found (p : Parts) (items : List TableItem) : Prop where
  items : p.items = items
  options : p.options = []
  stop : p.stop = none

theorem Parts.Found.add {p : Parts} {items : List TableItem} (h : p.Found items) (item : TableItem) (c : Cursor) :
    (p.add item c).Found (item :: items) :=
  ⟨congrArg (item :: ·) h.items, h.options, h.stop⟩

/-- The line of the key is read. -/
theorem readColumns_key (fuel : Nat) (t : Table) {p : Parts} {items : List TableItem} (h : p.Found items)
    (gap : List Char) (c : Char) (ls : List Lexeme) :
    ∃ p', p'.Found (t.keyItems.reverse ++ items) ∧
      readColumns (fuel + 1) p { rest := t.keyTokens ++ sign gap c :: ls } =
        readFurther fuel p' { rest := sign gap c :: ls } := by
  let rest := keyword "PRIMARY" :: keyword "KEY" :: keyword "AUTOINCREMENT" :: sign gap c :: ls
  have htype : readTypeName.run { rest := keyword "INTEGER" :: rest } = .ok ("INTEGER", { rest }) :=
    readTypeName_keyword rfl rfl rfl _
  have hadded := (h.add (.column ⟨t.key, "INTEGER"⟩) { rest }).add
    (.columnConstraint (.primaryKey false none true)) { rest := sign gap c :: ls }
  refine ⟨_, hadded, readColumns_eq fuel p htype ?_ hadded.stop⟩
  show readColumnConstraints (ls.length + 4 + 1) none _ _ = _
  rw [readColumnConstraints, show readConstraintName.run { rest } = .ok (none, { rest }) from rfl]
  dsimp only
  rw [show (readColumnConstraint none).run { rest } =
    .ok (some (.primaryKey false none true), { rest := sign gap c :: ls }) from rfl]
  dsimp only
  rw [readColumnConstraints_sign]

theorem readColumns_bare (fuel : Nat) {name type : String} (htype : isTypePart (keyword type) = true) {p : Parts}
    {items : List TableItem} (h : p.Found items) (gap : List Char) {c : Char} (hsign : c ∈ [')', ',']) (ls : List Lexeme) :
    ∃ p', p'.Found (.column ⟨name, type⟩ :: items) ∧
      readColumns (fuel + 1) p { rest := quoted lineBreak name :: keyword type :: sign gap c :: ls } =
        readFurther fuel p' { rest := sign gap c :: ls } := by
  have hopen : (sign gap c).isSign "(" = false := by
    simp only [List.mem_cons, List.not_mem_nil, or_false] at hsign
    rcases hsign with rfl | rfl <;> rfl
  have hread : readTypeName.run { rest := keyword type :: sign gap c :: ls } =
      .ok (type, { rest := sign gap c :: ls }) := readTypeName_keyword htype rfl hopen ls
  have hadded := h.add (.column ⟨name, type⟩) { rest := sign gap c :: ls }
  exact ⟨_, hadded, readColumns_eq fuel p hread (readColumnConstraints_sign _ _ gap c ls) hadded.stop⟩

theorem readColumns_required (fuel : Nat) {name type : String} (htype : isTypePart (keyword type) = true) {p : Parts}
    {items : List TableItem} (h : p.Found items) (gap : List Char) (c : Char) (ls : List Lexeme) :
    ∃ p', p'.Found (.columnConstraint (.notNull none) :: .column ⟨name, type⟩ :: items) ∧
      readColumns (fuel + 1) p
          { rest := quoted lineBreak name :: keyword type :: keyword "NOT" :: keyword "NULL" :: sign gap c :: ls } =
        readFurther fuel p' { rest := sign gap c :: ls } := by
  let rest := keyword "NOT" :: keyword "NULL" :: sign gap c :: ls
  have hread : readTypeName.run { rest := keyword type :: rest } = .ok (type, { rest }) :=
    readTypeName_keyword htype rfl rfl _
  have hadded := (h.add (.column ⟨name, type⟩) { rest }).add
    (.columnConstraint (.notNull none)) { rest := sign gap c :: ls }
  refine ⟨_, hadded, readColumns_eq fuel p hread ?_ hadded.stop⟩
  show readColumnConstraints (ls.length + 3 + 1) none _ _ = _
  rw [readColumnConstraints, show readConstraintName.run { rest } = .ok (none, { rest }) from rfl]
  dsimp only
  rw [show (readColumnConstraint none).run { rest } =
    .ok (some (.notNull none), { rest := sign gap c :: ls }) from rfl]
  dsimp only
  rw [readColumnConstraints_sign]

/-- Tokens that are read as a column with its constraints. -/
structure IsRead (name : String) (line : List Lexeme) (items : List TableItem) : Prop where
  head : ∃ rest, line = quoted lineBreak name :: rest
  read (fuel : Nat) {p : Parts} {found : List TableItem} (h : p.Found found) (gap : List Char) {c : Char}
    (hsign : c ∈ [')', ',']) (ls : List Lexeme) :
    ∃ p', p'.Found (items.reverse ++ found) ∧
      readColumns (fuel + 1) p { rest := line ++ sign gap c :: ls } = readFurther fuel p' { rest := sign gap c :: ls }

/-- The line of a simple column is read. -/
theorem isRead_column {column : Column} (hc : column.IsSimple) : IsRead column.name column.tokens column.items where
  head := ⟨_, rfl⟩
  read fuel _ _ h gap _ hsign ls := by
    unfold Column.items Column.tokens Column.typeTokens
    split
    · exact readColumns_required fuel rfl h gap _ ls
    · rename_i hne
      exact readColumns_bare fuel (isTypePart_keyword (hc.resolve_right hne)) h gap hsign ls

/-- The line of a foreign key is read. -/
theorem readTableConstraint_foreignKey (k : ForeignKey) (gap : List Char) (c : Char) (ls : List Lexeme) :
    (readTableConstraint none).run { rest := k.tokens ++ sign gap c :: ls } =
      .ok (some (.foreignKey [k.column] k.clause), { rest := sign gap c :: ls }) := by
  obtain ⟨column, references, rule⟩ := k
  rcases rule with _ | _ | _ | _ | _ | _ <;> rfl

/-- The end of a definition. -/
def closing : List Lexeme := [sign ['\n'] ')']

/-- A foreign key is read, and what stands behind it is left. -/
theorem readTableConstraints_foreignKey (fuel : Nat) (k : ForeignKey) (p : Parts) (gap : List Char) (c : Char)
    (ls : List Lexeme) :
    readTableConstraints (fuel + 1) none p { rest := k.tokens ++ sign gap c :: ls } =
      readTableConstraints fuel none (p.add k.item { rest := sign gap c :: ls }) { rest := sign gap c :: ls } := by
  rw [readTableConstraints, show readConstraintName.run { rest := k.tokens ++ sign gap c :: ls } =
    .ok (none, { rest := k.tokens ++ sign gap c :: ls }) from rfl]
  dsimp only
  rw [readTableConstraint_foreignKey]
  rfl

theorem readTableConstraints_closing (fuel : Nat) (p : Parts) :
    readTableConstraints (fuel + 1) none p { rest := closing } = (p, { rest := closing }) := by
  rw [readTableConstraints, show readConstraintName.run { rest := closing } = .ok (none, { rest := closing }) from rfl]
  dsimp only
  rw [show (readTableConstraint none).run { rest := closing } = .ok (none, { rest := closing }) from rfl]
  rfl

theorem beginsConstraint_foreignKey (k : ForeignKey) (ls : List Lexeme) :
    ((k.tokens ++ ls).head?.map beginsConstraint).getD false = true := rfl

theorem readTableConstraints_comma (fuel : Nat) (p : Parts) {ls : List Lexeme}
    (h : (ls.head?.map beginsConstraint).getD false = true) :
    readTableConstraints (fuel + 1) none p { rest := sign [] ',' :: ls } =
      readTableConstraints fuel none p { rest := ls } := by
  rw [readTableConstraints, show readConstraintName.run { rest := sign [] ',' :: ls } =
    .ok (none, { rest := sign [] ',' :: ls }) from rfl]
  dsimp only
  rw [show (readTableConstraint none).run { rest := sign [] ',' :: ls } =
    .ok (none, { rest := sign [] ',' :: ls }) from rfl]
  dsimp only
  rw [if_pos (show (sign [] ',').isSign "," = true from rfl), h, if_pos rfl]

theorem readFurther_closing (fuel : Nat) (p : Parts) : readFurther fuel p { rest := closing } = (p, { rest := closing }) :=
  rfl

theorem readFurther_constraint (fuel : Nat) (p : Parts) {ls : List Lexeme}
    (h : (ls.head?.map beginsConstraint).getD false = true) :
    readFurther fuel p { rest := sign [] ',' :: ls } = readTableConstraints (ls.length + 1) none p { rest := ls } := by
  unfold readFurther
  dsimp only
  rw [if_pos (show (sign [] ',').isSign "," = true from rfl), h, if_pos rfl]

theorem readFurther_column (fuel : Nat) (p : Parts) (name : String) (ls : List Lexeme) :
    readFurther fuel p { rest := sign [] ',' :: quoted lineBreak name :: ls } =
      readColumns fuel p { rest := quoted lineBreak name :: ls } := rfl

/-- The tokens of lines with commas before them. -/
def furtherTokens (lines : List (List Lexeme)) : List Lexeme := lines.flatMap (sign [] ',' :: ·) ++ closing

theorem furtherTokens_cons (line : List Lexeme) (lines : List (List Lexeme)) :
    furtherTokens (line :: lines) = sign [] ',' :: (line ++ furtherTokens lines) := by
  unfold furtherTokens
  rw [List.flatMap_cons, List.append_assoc, List.cons_append]

/-- The lines begin with a comma, or there are none. -/
theorem exists_furtherTokens (lines : List (List Lexeme)) :
    ∃ gap c ls, furtherTokens lines = sign gap c :: ls ∧ c ∈ [')', ','] := by
  cases lines with
  | nil => exact ⟨['\n'], ')', [], rfl, by decide⟩
  | cons line lines => exact ⟨[], ',', _, furtherTokens_cons line lines, by decide⟩

theorem one_le_length_foreignKey (k : ForeignKey) : 1 ≤ k.tokens.length := Nat.succ_pos _

theorem length_le_foreignKeys (keys : List ForeignKey) :
    2 * keys.length + 1 ≤ (furtherTokens (keys.map ForeignKey.tokens)).length := by
  induction keys with
  | nil => exact Nat.le_refl _
  | cons k keys ih =>
    have := one_le_length_foreignKey k
    rw [List.map_cons, furtherTokens_cons, List.length_cons, List.length_cons, List.length_append]
    omega

theorem length_le_columns (line : Column → List Lexeme) (columns : List Column) (lines : List (List Lexeme)) :
    columns.length < (furtherTokens (columns.map line ++ lines)).length := by
  induction columns with
  | nil =>
    obtain ⟨gap, c, ls, hlines, -⟩ := exists_furtherTokens lines
    rw [List.map_nil, List.nil_append, hlines]
    exact Nat.succ_pos _
  | cons column columns ih =>
    rw [List.map_cons, List.cons_append, furtherTokens_cons, List.length_cons, List.length_cons, List.length_append]
    omega

/-- The lines of foreign keys are read. -/
theorem readTableConstraints_foreignKeys (k : ForeignKey) (keys : List ForeignKey) {fuel : Nat}
    (hfuel : 2 * keys.length + 2 ≤ fuel) {p : Parts} {items : List TableItem} (h : p.Found items) :
    ∃ p', p'.Found (((k :: keys).map ForeignKey.item).reverse ++ items) ∧
      readTableConstraints fuel none p { rest := k.tokens ++ furtherTokens (keys.map ForeignKey.tokens) } =
        (p', { rest := closing }) := by
  obtain ⟨fuel, rfl⟩ : ∃ n, fuel = n + 2 := ⟨fuel - 2, by omega⟩
  induction keys generalizing k fuel p items with
  | nil =>
    refine ⟨_, h.add k.item { rest := closing }, ?_⟩
    exact (readTableConstraints_foreignKey (fuel + 1) k p _ _ []).trans (readTableConstraints_closing fuel _)
  | cons next keys ih =>
    rw [List.length_cons] at hfuel
    obtain ⟨fuel, rfl⟩ : ∃ n, fuel = n + 2 := ⟨fuel - 2, by omega⟩
    obtain ⟨p', hp', heq⟩ := ih next
      (h.add k.item { rest := sign [] ',' :: (next.tokens ++ furtherTokens (keys.map ForeignKey.tokens)) }) fuel
      (by omega)
    refine ⟨p', ?_, ?_⟩
    · rw [List.map_cons, List.reverse_cons, List.append_assoc]
      exact hp'
    · rw [List.map_cons, furtherTokens_cons, readTableConstraints_foreignKey,
        readTableConstraints_comma _ _ (beginsConstraint_foreignKey next _), heq]

/-- The lines of columns and foreign keys are read. -/
theorem readFurther_lines {line : Column → List Lexeme} {item : Column → List TableItem} {columns : List Column}
    (hcolumns : ∀ c ∈ columns, IsRead c.name (line c) (item c)) (keys : List ForeignKey)
    {fuel : Nat} (hfuel : columns.length < fuel) {p : Parts} {items : List TableItem} (h : p.Found items) :
    ∃ p', p'.Found ((columns.flatMap item ++ keys.map ForeignKey.item).reverse ++ items) ∧
      readFurther fuel p
        { rest := furtherTokens (columns.map line ++ keys.map ForeignKey.tokens) } =
        (p', { rest := closing }) := by
  induction columns generalizing fuel p items with
  | nil =>
    cases keys with
    | nil => exact ⟨p, h, readFurther_closing fuel p⟩
    | cons k keys =>
      have hlength : 2 * keys.length + 2 ≤
          (k.tokens ++ furtherTokens (keys.map ForeignKey.tokens)).length + 1 := by
        have := one_le_length_foreignKey k
        have := length_le_foreignKeys keys
        rw [List.length_append]
        omega
      obtain ⟨p', hp', heq⟩ := readTableConstraints_foreignKeys k keys hlength h
      refine ⟨p', hp', ?_⟩
      rw [List.map_nil, List.nil_append, List.map_cons, furtherTokens_cons,
        readFurther_constraint _ _ (beginsConstraint_foreignKey k _), heq]
  | cons column columns ih =>
    rw [List.length_cons] at hfuel
    obtain ⟨fuel, rfl⟩ : ∃ n, fuel = n + 1 := ⟨fuel - 1, by omega⟩
    have hcolumn := hcolumns column (List.mem_cons_self ..)
    obtain ⟨rest, hhead⟩ := hcolumn.head
    obtain ⟨gap, c, ls, hrest, hsign⟩ :=
      exists_furtherTokens (columns.map line ++ keys.map ForeignKey.tokens)
    obtain ⟨p₁, hp₁, heq₁⟩ := hcolumn.read fuel h gap hsign ls
    obtain ⟨p', hp', heq⟩ := ih (fun c hc => hcolumns c (List.mem_cons_of_mem _ hc)) (show columns.length < fuel by omega) hp₁
    refine ⟨p', ?_, ?_⟩
    · rw [List.flatMap_cons, List.append_assoc, List.reverse_append, List.append_assoc]
      exact hp'
    · rw [List.map_cons, List.cons_append, furtherTokens_cons, hhead, List.cons_append, readFurther_column,
        ← List.cons_append, ← hhead, hrest, heq₁, ← hrest, heq]

end GuardedConfig.Sql

namespace GuardedConfig.Schema

open Sql

/-! ## Statements -/

/-- What is known about the definition of a simple table. -/
def Table.definition (t : Table) : TableText where
  ifNotExists := true
  name := t.name
  written := (quoteName t.name)
  text := t.createText
  items := t.items

/-- What is known about the definition of a table whose columns give some parts. -/
def Table.definitionWith (item : Column → List TableItem) (t : Table) : TableText where
  ifNotExists := true
  name := t.name
  written := (quoteName t.name)
  text := t.createText
  items := t.itemsWith item

variable {t : Table} {line : Column → List Lexeme} {item : Column → List TableItem}

theorem textOf_quoted (gap : List Char) (name : String) : textOf [quoted gap name] = quoteName name := by
  show String.ofList ((quoteName name).toList ++ []) = _
  rw [List.append_nil, String.ofList_toList]

/-- The tokens after the words `CREATE TABLE`. -/
def Table.restTokens (line : Column → List Lexeme) (t : Table) : List Lexeme :=
  keyword "IF" :: keyword "NOT" :: keyword "EXISTS" :: quoted [' '] t.name :: sign [' '] '(' ::
    (t.keyTokens ++ furtherTokens (t.columns.map line ++ t.foreignKeys.map ForeignKey.tokens))

theorem readTable_tokens (h : ∀ c ∈ t.columns, IsRead c.name (line c) (item c)) :
    readTable.run { rest := t.restTokens line } = .ok ({ t.definitionWith item with text := "" }, { rest := [] }) := by
  let lines := t.columns.map line ++ t.foreignKeys.map ForeignKey.tokens
  let start := t.keyTokens ++ furtherTokens lines
  obtain ⟨gap, c, ls, hlines, -⟩ := exists_furtherTokens lines
  -- the lines, as many as there is fuel for
  obtain ⟨fuel, hfuel⟩ : ∃ n, start.length = n + 1 := ⟨_, rfl⟩
  obtain ⟨p₁, hp₁, heq₁⟩ := readColumns_key fuel t (show Parts.Found {} [] from ⟨rfl, rfl, rfl⟩) gap c ls
  have hlt : t.columns.length < fuel := by
    have hcolumns : t.columns.length < (furtherTokens lines).length := length_le_columns line t.columns _
    have hstart : start.length = 5 + (furtherTokens lines).length := List.length_append
    omega
  obtain ⟨p, hp, heq⟩ := readFurther_lines h t.foreignKeys hlt hp₁
  have hread : readColumns start.length {} { rest := start } = (p, { rest := closing }) := by
    rw [hfuel]
    show readColumns (fuel + 1) {} { rest := t.keyTokens ++ furtherTokens lines } = _
    rw [hlines, heq₁, ← hlines]
    exact heq
  have hitems : p.items.reverse = t.itemsWith item := by
    rw [hp.items, List.append_nil, ← List.reverse_append, List.reverse_reverse]
    rfl
  have hname : (withTokens expectName).run { rest := quoted [' '] t.name :: sign [' '] '(' :: start } =
      .ok ((t.name, [quoted [' '] t.name]), { rest := sign [' '] '(' :: start }) := by
    show Except.ok ((t.name, (quoted [' '] t.name :: sign [' '] '(' :: start).take
      (start.length + 1 + 1 - (start.length + 1))), _) = _
    rw [Nat.add_sub_cancel_left]
    rfl
  let named := quoted [' '] t.name :: sign [' '] '(' :: start
  unfold readTable Table.restTokens
  rw [run_bind_ok (show (skipWord "IF").run _ =
      .ok (true, { rest := keyword "NOT" :: keyword "EXISTS" :: named }) from rfl), if_pos rfl,
    run_bind_ok (show (expectWord "NOT").run _ = .ok ((), { rest := keyword "EXISTS" :: named }) from rfl),
    run_bind_ok (show (expectWord "EXISTS").run _ = .ok ((), { rest := named }) from rfl)]
  dsimp only
  rw [run_bind_ok hname]
  dsimp only
  rw [run_bind_ok (show (expectSign "(").run _ = .ok ((), { rest := start }) from rfl),
    run_bind_ok (show (get : Reading Cursor).run _ = .ok (_, _) from rfl)]
  dsimp only
  rw [hread]
  dsimp only
  rw [hp.stop]
  simp only [Option.isSome_none, Bool.false_eq_true, if_false]
  rw [show (expectSign ")").run { rest := closing } = .ok ((), { rest := [] }) from rfl]
  show Except.ok (TableText.mk true t.name (textOf [quoted [' '] t.name]) "" p.items.reverse p.options.reverse p.stop, _) =
    _
  rw [textOf_quoted, hitems, hp.options, hp.stop]
  rfl

/-- The tokens of a table give its text back. -/
theorem textOf_tokens (h : t.createText.toList = charsOf (t.tokensWith line)) :
    "CREATE TABLE " ++ textOf (t.restTokens line) = t.createText := by
  apply String.ext
  rw [h, String.toList_append]
  show "CREATE TABLE ".toList ++ (String.ofList ("IF".toList ++ charsOf (t.restTokens line).tail)).toList =
    [] ++ "CREATE".toList ++
      (([' '] ++ "TABLE".toList) ++ (([' '] ++ "IF".toList) ++ charsOf (t.restTokens line).tail))
  rw [String.toList_ofList]
  simp

/-- The tokens of a table are read as its definition, if its columns are read from their lines. -/
theorem readFirst_tokensWith (hchars : t.createText.toList = charsOf (t.tokensWith line))
    (hlines : ∀ c ∈ t.columns, IsRead c.name (line c) (item c)) :
    readFirst (t.tokensWith line) = .ok (some ⟨.create (t.definitionWith item), 0, []⟩) := by
  have hdefinition : (withTokens readTable).run { rest := t.restTokens line } =
      .ok (({ t.definitionWith item with text := "" }, t.restTokens line), { rest := [] }) := by
    unfold withTokens
    rw [run_bind_ok (show (get : Reading Cursor).run _ = .ok (_, _) from rfl), run_bind_ok (readTable_tokens hlines),
      run_bind_ok (show (get : Reading Cursor).run _ = .ok (_, _) from rfl)]
    show Except.ok ((_, (t.restTokens line).take ((t.restTokens line).length - 0)), _) = _
    rw [Nat.sub_zero, List.take_length]
  have hsentence : readSentence.run { rest := t.tokensWith line } =
      .ok (.create (t.definitionWith item), { rest := [] }) := by
    have hsteps : readSentence.run { rest := t.tokensWith line } =
        ((do
          let read ← withTokens readTable
          return .create { read.1 with text := "CREATE TABLE " ++ textOf read.2 } : Reading Sentence).run
            { rest := t.restTokens line }) := rfl
    rw [hsteps, run_bind_ok hdefinition]
    dsimp only
    rw [textOf_tokens hchars]
    rfl
  have htokens : (t.tokensWith line).dropWhile (·.isSign ";") = t.tokensWith line := rfl
  unfold readFirst
  rw [htokens]
  split
  · rename_i hempty
    cases hempty
  · rw [hsentence]

/-- **The tokens of a simple table are read as its definition.** -/
theorem readFirst_tokens (h : t.IsSimple) :
    readFirst t.tokens = .ok (some ⟨.create t.definition, 0, []⟩) :=
  readFirst_tokensWith (Table.charsOf_tokensWith h.constraints fun c hc => (h.columns c hc).isLine)
    fun c hc => isRead_column (h.columns c hc)

/-- Where the name of a table is cut off, nothing can be read. -/
theorem readFirst_of_illegal (gap text : List Char) :
    ∃ f, readFirst (Table.createTokens ++ [⟨.illegal, gap, text⟩]) = .error f :=
  ⟨_, rfl⟩

end GuardedConfig.Schema
