import GuardedConfig.Proofs.Lexing
import GuardedConfig.Proofs.Outcome
import GuardedConfig.Schema.Table
import GuardedConfig.Sql.ReadStatement

/-!
# `Proofs.TableText` — the tokens of the statement that creates a table

The statement that creates a table is written line by line: the key, the columns, the foreign keys. If every column
has a bare type word, or is the whole number of a junction, the text of the statement is cut into the tokens of
these lines.

## Contents

* `keyword`, `quoted`, `sign` — the tokens of definitions
* `Column.IsSimple`, `Table.IsSimple`, `Table.tokens`
* `toList_createText`, `Column.IsLine`, `Table.charsOf_tokensWith`
* `lexemes_createText_of_lines`, `lexemes_createText`, `lexemes_createText_of_nul`
-/

namespace GuardedConfig.Sql

open Schema Text

/-! ## Tokens -/

/-- A word after a blank. -/
def keyword (w : String) : Lexeme := ⟨.word, [' '], w.toList⟩

/-- A quoted name. -/
def quoted (gap : List Char) (name : String) : Lexeme := ⟨.quotedName name true, gap, (quoteName name).toList⟩

/-- A sign. -/
def sign (gap : List Char) (c : Char) : Lexeme := ⟨.sign, gap, [c]⟩

/-- What stands before a line. -/
def lineBreak : List Char := ['\n', ' ', ' ', ' ', ' ']

theorem neat_keyword {w : String} (h : isBareWord w.toList = true) : (keyword w).Neat :=
  neat_word (by decide) h

/-! ## Type words -/

theorem isNameChar_of_toLower {c : Char} (h : isNameChar c.toLower = true) : isNameChar c = true := by
  rcases toLower_cases c with ⟨hletter, -⟩ | hc
  · simp [isNameChar, hletter]
  · rwa [hc] at h

theorem toUpper_toLower (c : Char) : c.toLower.toUpper = c.toUpper := by
  rcases toLower_cases c with ⟨-, hlt⟩ | hc
  · have hall : ∀ n < 128, (Char.ofNat n).toLower.toUpper = (Char.ofNat n).toUpper := by decide +kernel
    have := hall c.toNat hlt
    rwa [Char.ofNat_toNat] at this
  · rw [hc]

/-- A word is bare if it is when written in lower case. -/
theorem isBareWord_of_toLower {cs : List Char} (h : isBareWord (cs.map Char.toLower) = true) : isBareWord cs = true := by
  cases cs with
  | nil => cases h
  | cons c cs =>
    simp only [isBareWord, List.map_cons, Bool.and_eq_true, bne_iff_ne, List.all_map, List.all_eq_true,
      Function.comp_apply] at h ⊢
    obtain ⟨⟨⟨hc, hx⟩, -⟩, hcs⟩ := h
    refine ⟨⟨⟨isAsciiLetter_of_toLower hc, ?_⟩, ?_⟩, fun d hd => isNameChar_of_toLower (hcs d hd)⟩
    · rintro rfl
      exact hx (by decide)
    · rintro rfl
      exact hx (by decide)

/-- A type word is one of the known ones in some case. -/
theorem exists_of_isTypeWord {w : String} (h : isTypeWord w = true) :
    ∃ v ∈ typeWords, w.toList.map Char.toLower = v.toList.map Char.toLower := by
  obtain ⟨v, hv, he⟩ := List.any_eq_true.1 h
  exact ⟨v, hv, (eq_of_beq he).symm⟩

theorem isBareWord_of_isTypeWord {w : String} (h : isTypeWord w = true) : isBareWord w.toList = true := by
  obtain ⟨v, hv, he⟩ := exists_of_isTypeWord h
  have hall : ∀ v ∈ typeWords, isBareWord (v.toList.map Char.toLower) = true := by decide +kernel
  exact isBareWord_of_toLower (he ▸ hall v hv)

/-- The upper case of a type word is a known one. -/
theorem word?_keyword_of_isTypeWord {w : String} (h : isTypeWord w = true) :
    ∃ v ∈ typeWords, (keyword w).word? = some v := by
  obtain ⟨v, hv, he⟩ := exists_of_isTypeWord h
  have hall : ∀ v ∈ typeWords, String.ofList (v.toList.map Char.toUpper) = v := by decide +kernel
  refine ⟨v, hv, ?_⟩
  have hupper : w.toList.map Char.toUpper = v.toList.map Char.toUpper := by
    have := congrArg (List.map Char.toUpper) he
    simpa only [List.map_map, Function.comp_def, toUpper_toLower] using this
  show some (String.ofList (w.toList.map Char.toUpper)) = some v
  rw [hupper, hall v hv]

theorem isTypePart_keyword {w : String} (h : isTypeWord w = true) : isTypePart (keyword w) = true := by
  obtain ⟨v, hv, hw⟩ := word?_keyword_of_isTypeWord h
  have hall : ∀ v ∈ typeWords, reservedWords.contains v = false ∧ joinWords.contains v = false ∧
      (some v == some "GENERATED") = false := by decide +kernel
  obtain ⟨hreserved, hjoin, hgenerated⟩ := hall v hv
  have hname : (keyword w).name? = some w := by
    show (if reservedWords.contains ((keyword w).word?.getD "") = true then none else some (keyword w).written) = _
    rw [hw, Option.getD_some, hreserved]
    show some (String.ofList w.toList) = some w
    rw [String.ofList_toList]
  show ((if joinWords.contains ((keyword w).word?.getD "") = true then none else (keyword w).name?).isSome &&
    !((keyword w).word? == some "GENERATED")) = true
  rw [hname, hw, Option.getD_some, hjoin, hgenerated]
  rfl

end GuardedConfig.Sql

namespace GuardedConfig.Schema

open Sql Text

/-! ## The text of a table -/

/-- The type of the columns of a junction. -/
def linkType : String := "INTEGER NOT NULL"

/-- A column with a bare type word, or one of a junction. -/
def Column.IsSimple (c : Column) : Prop := isTypeWord c.type = true ∨ c.type = linkType

/-- The tokens of the type of a column. -/
def Column.typeTokens (c : Column) : List Lexeme :=
  if c.type = linkType then [keyword "INTEGER", keyword "NOT", keyword "NULL"] else [keyword c.type]

/-- The tokens of the line of a column. -/
def Column.tokens (c : Column) : List Lexeme := quoted lineBreak c.name :: c.typeTokens

/-- The keywords of a rule. -/
def DeleteRule.words : DeleteRule → List String
  | cascade => ["CASCADE"]
  | setNull => ["SET", "NULL"]
  | setDefault => ["SET", "DEFAULT"]
  | restrict => ["RESTRICT"]
  | noAction => ["NO", "ACTION"]

/-- The tokens of the rule of a foreign key. -/
def ForeignKey.ruleTokens (k : ForeignKey) : List Lexeme :=
  match k.onDelete with
  | some rule => keyword "ON" :: keyword "DELETE" :: rule.words.map keyword
  | none => []

/-- The tokens of the line of a foreign key. -/
def ForeignKey.tokens (k : ForeignKey) : List Lexeme :=
  ⟨.word, lineBreak, "FOREIGN".toList⟩ :: keyword "KEY" :: sign [' '] '(' :: quoted [] k.column :: sign [] ')' ::
    keyword "REFERENCES" :: quoted [' '] k.references :: sign [' '] '(' ::
    quoted [] (primaryKey k.references) :: sign [] ')' :: k.ruleTokens

namespace Table

/-- The tokens before the name of a table. -/
def createTokens : List Lexeme :=
  [⟨.word, [], "CREATE".toList⟩, keyword "TABLE", keyword "IF", keyword "NOT", keyword "EXISTS"]

/-- The tokens before the lines of a table. -/
def headTokens (t : Table) : List Lexeme := createTokens ++ [quoted [' '] t.name, sign [' '] '(']

/-- The tokens of the line of the key. -/
def keyTokens (t : Table) : List Lexeme :=
  [quoted lineBreak t.key, keyword "INTEGER", keyword "PRIMARY", keyword "KEY", keyword "AUTOINCREMENT"]

/-- The tokens of the lines after that of the key. -/
def lineTokens (t : Table) : List (List Lexeme) := t.columns.map Column.tokens ++ t.foreignKeys.map ForeignKey.tokens

/-- The tokens of a table without constraints. -/
def tokens (t : Table) : List Lexeme :=
  t.headTokens ++ (t.keyTokens ++ (t.lineTokens.flatMap (sign [] ',' :: ·) ++ [sign ['\n'] ')']))

/-- The tokens of a table without constraints whose columns are written in some way. -/
def tokensWith (line : Column → List Lexeme) (t : Table) : List Lexeme :=
  t.headTokens ++ (t.keyTokens ++
    ((t.columns.map line ++ t.foreignKeys.map ForeignKey.tokens).flatMap (sign [] ',' :: ·) ++ [sign ['\n'] ')']))

/-- A table whose columns are simple and which has no constraints. -/
structure IsSimple (t : Table) : Prop where
  columns : ∀ c ∈ t.columns, c.IsSimple
  constraints : t.constraints = []

end Table

theorem charsOf_column (c : Column) : charsOf c.tokens = lineBreak ++ (Table.columnLine c).toList := by
  unfold Table.columnLine Column.tokens Column.typeTokens
  split
  · rename_i h
    rw [h]
    simp [quoted, keyword, linkType]
  · simp [quoted, keyword]

theorem charsOf_foreignKey (k : ForeignKey) : charsOf k.tokens = lineBreak ++ (Table.foreignKeyLine k).toList := by
  unfold Table.foreignKeyLine ForeignKey.tokens ForeignKey.ruleTokens
  rcases k.onDelete with _ | _ | _ | _ | _ | _ <;>
    simp [quoted, sign, keyword, lineBreak, DeleteRule.words, DeleteRule.name]

theorem toList_intercalate_lines (first : String) (lines : List String) :
    lineBreak ++ (joinWith ",\n    " (first :: lines)).toList =
      lineBreak ++ first.toList ++ lines.flatMap fun line => ',' :: (lineBreak ++ line.toList) := by
  unfold joinWith
  induction lines generalizing first with
  | nil => simp
  | cons line lines ih =>
    rw [String.intercalate_cons_cons, String.toList_append, String.toList_append, List.flatMap_cons]
    have ih := ih line
    have hsep : ",\n    ".toList = ',' :: lineBreak := rfl
    rw [hsep]
    simp only [List.append_assoc, List.cons_append] at ih ⊢
    rw [ih]

theorem charsOf_headTokens (t : Table) :
    charsOf t.headTokens = "CREATE TABLE IF NOT EXISTS ".toList ++ ((quoteName t.name).toList ++ [' ', '(']) := by
  unfold Table.headTokens Table.createTokens
  simp [quoted, sign, keyword]

theorem charsOf_keyTokens (t : Table) : charsOf t.keyTokens = lineBreak ++ t.keyLine.toList := by
  unfold Table.keyTokens Table.keyLine
  simp [quoted, keyword]

/-- The text of a table: its key, and then the other lines. -/
theorem toList_createText (t : Table) :
    t.createText.toList = charsOf t.headTokens ++ (charsOf t.keyTokens ++
      ((t.columns.map Table.columnLine ++ t.constraints ++ t.foreignKeys.map Table.foreignKeyLine).flatMap
        (fun line => ',' :: (lineBreak ++ line.toList)) ++ ['\n', ')'])) := by
  have hlines := toList_intercalate_lines t.keyLine
    (t.columns.map Table.columnLine ++ t.constraints ++ t.foreignKeys.map Table.foreignKeyLine)
  have hopen : " (\n    ".toList = [' ', '('] ++ lineBreak := by simp [lineBreak]
  have hclose : "\n)".toList = ['\n', ')'] := by simp
  unfold Table.createText Table.lines
  rw [String.toList_append, String.toList_append, String.toList_append, String.toList_append, hclose, hopen,
    charsOf_headTokens, charsOf_keyTokens]
  generalize "CREATE TABLE IF NOT EXISTS ".toList = begins
  simp only [List.append_assoc, List.cons_append] at hlines ⊢
  rw [← List.append_assoc lineBreak (joinWith _ _).toList, hlines]
  simp only [List.append_assoc]

namespace Table

theorem neatly_createTokens {tail : List Char} (h : Separated tail) : Neatly createTokens tail :=
  ⟨neat_word (by decide) (by decide +kernel), .inr (separated_cons (by decide) _),
    neat_keyword (by decide +kernel), .inr (separated_cons (by decide) _),
    neat_keyword (by decide +kernel), .inr (separated_cons (by decide) _),
    neat_keyword (by decide +kernel), .inr (separated_cons (by decide) _),
    neat_keyword (by decide +kernel), .inr h, trivial⟩

theorem neatly_headTokens (t : Table) (tail : List Char) : Neatly t.headTokens tail :=
  neatly_append.2 ⟨neatly_createTokens (separated_cons (by decide) _),
    neat_quotedName (by decide) _, .inr (separated_cons (by decide) _),
    neat_sign (by decide) (by decide), .inl rfl, trivial⟩

theorem neatly_keyTokens (t : Table) {tail : List Char} (h : Separated tail) : Neatly t.keyTokens tail :=
  ⟨neat_quotedName (by decide) _, .inr (separated_cons (by decide) _),
    neat_keyword (by decide +kernel), .inr (separated_cons (by decide) _),
    neat_keyword (by decide +kernel), .inr (separated_cons (by decide) _),
    neat_keyword (by decide +kernel), .inr (separated_cons (by decide) _),
    neat_keyword (by decide +kernel), .inr h, trivial⟩

end Table

/-- Tokens that are the line of a column. -/
structure Column.IsLine (c : Column) (line : List Lexeme) : Prop where
  chars : charsOf line = lineBreak ++ (Table.columnLine c).toList
  neat {tail : List Char} : Separated tail → Neatly line tail
  nulFree : NulFree c.name.toList → NulFree (charsOf line)

theorem ForeignKey.neatly (k : ForeignKey) {tail : List Char} (h : Separated tail) : Neatly k.tokens tail := by
  have hrule : Neatly k.ruleTokens tail ∧ Separated (charsOf k.ruleTokens ++ tail) := by
    unfold ruleTokens
    rcases k.onDelete with _ | rule
    · exact ⟨trivial, h⟩
    · refine ⟨⟨neat_keyword (by decide +kernel), .inr (separated_cons (by decide) _),
        neat_keyword (by decide +kernel), ?_⟩, separated_cons (by decide) _⟩
      rcases rule with _ | _ | _ | _ | _
      all_goals
        first
          | exact ⟨.inr (separated_cons (by decide) _), neat_keyword (by decide +kernel), .inr h, trivial⟩
          | exact ⟨.inr (separated_cons (by decide) _), neat_keyword (by decide +kernel),
              .inr (separated_cons (by decide) _), neat_keyword (by decide +kernel), .inr h, trivial⟩
  exact ⟨neat_word (by decide) (by decide +kernel), .inr (separated_cons (by decide) _),
    neat_keyword (by decide +kernel), .inr (separated_cons (by decide) _),
    neat_sign (by decide) (by decide), .inl rfl,
    neat_quotedName (by decide) _, .inr (separated_cons (by decide) _),
    neat_sign (by decide) (by decide), .inl rfl,
    neat_keyword (by decide +kernel), .inr (separated_cons (by decide) _),
    neat_quotedName (by decide) _, .inr (separated_cons (by decide) _),
    neat_sign (by decide) (by decide), .inl rfl,
    neat_quotedName (by decide) _, .inr (separated_cons (by decide) _),
    neat_sign (by decide) (by decide), .inl rfl, hrule.1⟩

/-- Lines with commas before them. -/
theorem neatly_lines {lines : List (List Lexeme)} (hlines : ∀ line ∈ lines, ∀ tail, Separated tail → Neatly line tail)
    {tail : List Char} (h : Separated tail) :
    Neatly (lines.flatMap (sign [] ',' :: ·)) tail ∧ Separated (charsOf (lines.flatMap (sign [] ',' :: ·)) ++ tail) := by
  induction lines with
  | nil => exact ⟨trivial, h⟩
  | cons line lines ih =>
    obtain ⟨hrest, hsep⟩ := ih fun l hl => hlines l (List.mem_cons_of_mem _ hl)
    refine ⟨?_, separated_cons (by decide) _⟩
    rw [List.flatMap_cons, neatly_append]
    exact ⟨⟨neat_sign (by decide) (by decide), .inl rfl, hlines line (List.mem_cons_self ..) _ hsep⟩, hrest⟩

namespace Table

variable {t : Table} {line : Column → List Lexeme}

theorem charsOf_tokensWith (hconstraints : t.constraints = []) (hlines : ∀ c ∈ t.columns, c.IsLine (line c)) :
    t.createText.toList = charsOf (t.tokensWith line) := by
  have hcolumns : t.columns.flatMap (fun c => ',' :: (lineBreak ++ (columnLine c).toList)) =
      charsOf (t.columns.flatMap fun c => sign [] ',' :: line c) := by
    unfold charsOf
    rw [List.flatMap_assoc]
    exact List.flatMap_congr fun c hc => congrArg (',' :: ·) (hlines c hc).chars.symm
  have hkeys : t.foreignKeys.flatMap (fun k => ',' :: (lineBreak ++ (foreignKeyLine k).toList)) =
      charsOf (t.foreignKeys.flatMap fun k => sign [] ',' :: k.tokens) := by
    unfold charsOf
    rw [List.flatMap_assoc]
    exact List.flatMap_congr fun k _ => congrArg (',' :: ·) (charsOf_foreignKey k).symm
  have hclose : charsOf [sign ['\n'] ')'] = ['\n', ')'] := rfl
  rw [toList_createText, hconstraints, List.append_nil, List.flatMap_append, List.flatMap_map, List.flatMap_map,
    hcolumns, hkeys, ← hclose]
  unfold tokensWith
  rw [List.flatMap_append, List.flatMap_map, List.flatMap_map, charsOf_append, charsOf_append, charsOf_append,
    charsOf_append]

theorem neatly_tokensWith (hlines : ∀ c ∈ t.columns, c.IsLine (line c)) : Neatly (t.tokensWith line) [] := by
  have hclose : Neatly [sign ['\n'] ')'] [] := ⟨neat_sign (by decide) (by decide), .inl rfl, trivial⟩
  have hall : ∀ l ∈ t.columns.map line ++ t.foreignKeys.map ForeignKey.tokens, ∀ tail, Separated tail →
      Neatly l tail := by
    intro l hl tail htail
    rcases List.mem_append.1 hl with hl | hl
    · obtain ⟨c, hc, rfl⟩ := List.mem_map.1 hl
      exact (hlines c hc).neat htail
    · obtain ⟨k, -, rfl⟩ := List.mem_map.1 hl
      exact k.neatly htail
  obtain ⟨hneat, hsep⟩ := neatly_lines hall
    (show Separated (charsOf [sign ['\n'] ')'] ++ []) from separated_cons (by decide) _)
  unfold tokensWith
  rw [neatly_append, neatly_append, neatly_append]
  refine ⟨t.neatly_headTokens _, t.neatly_keyTokens ?_, hneat, hclose⟩
  rw [charsOf_append, List.append_assoc]
  exact hsep

end Table

/-! ## Names without NUL -/

/-- A table none of whose names has a NUL. -/
structure Table.IsWritable (t : Table) : Prop where
  name : NulFree t.name.toList
  columns : ∀ c ∈ t.columns, NulFree c.name.toList
  foreignKeys : ∀ k ∈ t.foreignKeys, NulFree k.column.toList ∧ NulFree k.references.toList

theorem nulFree_primaryKey {name : String} (h : NulFree name.toList) : NulFree (primaryKey name).toList := by
  unfold primaryKey
  rw [String.toList_append]
  exact nulFree_append.2 ⟨h, by decide +kernel⟩

theorem nulFree_keyword {w : String} (h : isBareWord w.toList = true) :
    NulFree (keyword w).gap ∧ NulFree (keyword w).text :=
  ⟨show NulFree [' '] by decide, nulFree_of_isBareWord h⟩

theorem nulFree_quoted {gap : List Char} (hgap : NulFree gap) {name : String} (h : NulFree name.toList) :
    NulFree (quoted gap name).gap ∧ NulFree (quoted gap name).text :=
  ⟨hgap, nulFree_quoteName h⟩

/-- The tokens of a simple column are its line. -/
theorem Column.IsSimple.isLine {c : Column} (hc : c.IsSimple) : c.IsLine c.tokens where
  chars := charsOf_column c
  neat h := by
    unfold Column.tokens Column.typeTokens
    split
    · exact ⟨neat_quotedName (by decide) _, .inr (separated_cons (by decide) _),
        neat_keyword (by decide +kernel), .inr (separated_cons (by decide) _),
        neat_keyword (by decide +kernel), .inr (separated_cons (by decide) _),
        neat_keyword (by decide +kernel), .inr h, trivial⟩
    · rename_i hne
      exact ⟨neat_quotedName (by decide) _, .inr (separated_cons (by decide) _),
        neat_keyword (isBareWord_of_isTypeWord (hc.resolve_right hne)), .inr h, trivial⟩
  nulFree h := by
    have htype : ∀ l ∈ c.typeTokens, NulFree l.gap ∧ NulFree l.text := by
      unfold Column.typeTokens
      split
      · decide +kernel
      · rename_i hne
        intro l hl
        rw [List.mem_singleton.1 hl]
        exact nulFree_keyword (isBareWord_of_isTypeWord (hc.resolve_right hne))
    exact nulFree_charsOf.2 (List.forall_mem_cons.2 ⟨nulFree_quoted (by decide) h, htype⟩)

theorem ForeignKey.nulFree {k : ForeignKey} (hcolumn : NulFree k.column.toList) (href : NulFree k.references.toList) :
    NulFree (charsOf k.tokens) := by
  have hrule : ∀ l ∈ k.ruleTokens, NulFree l.gap ∧ NulFree l.text := by
    unfold ruleTokens
    rcases k.onDelete with _ | _ | _ | _ | _ | _ <;> decide +kernel
  have hsign : ∀ c ∈ ['(', ')'], ∀ gap ∈ [[], [' ']], NulFree (sign gap c).gap ∧ NulFree (sign gap c).text := by
    decide
  refine nulFree_charsOf.2 ?_
  unfold ForeignKey.tokens
  simp only [List.forall_mem_cons]
  exact ⟨⟨show NulFree lineBreak by decide, by decide +kernel⟩, nulFree_keyword (by decide +kernel),
    hsign _ (by decide) _ (by decide), nulFree_quoted nulFree_nil hcolumn, hsign _ (by decide) _ (by decide),
    nulFree_keyword (by decide +kernel), nulFree_quoted (by decide) href, hsign _ (by decide) _ (by decide),
    nulFree_quoted nulFree_nil (nulFree_primaryKey href), hsign _ (by decide) _ (by decide), hrule⟩

namespace Table

variable {t : Table}

theorem nulFree_headTokens (h : NulFree t.name.toList) : NulFree (charsOf t.headTokens) := by
  rw [charsOf_headTokens]
  exact nulFree_append.2 ⟨by decide +kernel, nulFree_append.2 ⟨nulFree_quoteName h, by decide⟩⟩

theorem nulFree_keyTokens (h : NulFree t.name.toList) : NulFree (charsOf t.keyTokens) := by
  rw [charsOf_keyTokens]
  unfold keyLine
  rw [String.toList_append]
  exact nulFree_append.2 ⟨by decide, nulFree_append.2 ⟨nulFree_quoteName (nulFree_primaryKey h), by decide +kernel⟩⟩

theorem nulFree_tokensWith {line : Column → List Lexeme} (hlines : ∀ c ∈ t.columns, c.IsLine (line c))
    (hw : t.IsWritable) : NulFree (charsOf (t.tokensWith line)) := by
  have hall : NulFree (charsOf
      ((t.columns.map line ++ t.foreignKeys.map ForeignKey.tokens).flatMap (sign [] ',' :: ·))) := by
    refine nulFree_charsOf.2 (List.forall_mem_flatMap.2 fun l hl => List.forall_mem_cons.2 ⟨by decide, ?_⟩)
    rcases List.mem_append.1 hl with hl | hl
    · obtain ⟨c, hc, rfl⟩ := List.mem_map.1 hl
      exact nulFree_charsOf.1 ((hlines c hc).nulFree (hw.columns c hc))
    · obtain ⟨k, hk, rfl⟩ := List.mem_map.1 hl
      exact nulFree_charsOf.1 (ForeignKey.nulFree (hw.foreignKeys k hk).1 (hw.foreignKeys k hk).2)
  unfold tokensWith
  rw [charsOf_append, charsOf_append, charsOf_append]
  exact nulFree_append.2 ⟨nulFree_headTokens hw.name, nulFree_append.2 ⟨nulFree_keyTokens hw.name,
    nulFree_append.2 ⟨hall, by decide⟩⟩⟩

/-- The text of a table is cut into its tokens, if its columns are written in their lines. -/
theorem lexemes_createText_of_lines {line : Column → List Lexeme} (hconstraints : t.constraints = [])
    (hlines : ∀ c ∈ t.columns, c.IsLine (line c)) (hw : t.IsWritable) : lexemes t.createText = t.tokensWith line :=
  lexemes_eq (charsOf_tokensWith hconstraints hlines) (nulFree_tokensWith hlines hw) (neatly_tokensWith hlines)

/-- **The text of a simple table is cut into its tokens.** -/
theorem lexemes_createText (h : t.IsSimple) (hw : t.IsWritable) : lexemes t.createText = t.tokens :=
  lexemes_createText_of_lines h.constraints (fun c hc => (h.columns c hc).isLine) hw

/-- A NUL in the name of a table cuts the text off inside the name. -/
theorem lexemes_createText_of_nul (h : ¬ NulFree t.name.toList) :
    ∃ text, lexemes t.createText = createTokens ++ [⟨.illegal, [' '], text⟩] := by
  obtain ⟨front, nul, back, hname, hfront, hzero⟩ := exists_first_nul h
  have hnul : nul ≠ '"' := by
    rintro rfl
    exact absurd hzero (by decide)
  have hquote : (quoteName t.name).toList = '"' :: (doubleQuotes front ++ nul :: (doubleQuotes back ++ ['"'])) := by
    rw [toList_quoteName, hname, doubleQuotes_append, doubleQuotes, if_neg hnul, List.append_assoc, List.cons_append]
  have htext : ∃ rest, t.createText.toList =
      charsOf createTokens ++ ([' '] ++ '"' :: (doubleQuotes front ++ nul :: rest)) := by
    rw [toList_createText]
    generalize charsOf t.keyTokens ++ _ = more
    refine ⟨doubleQuotes back ++ '"' :: ([' ', '('] ++ more), ?_⟩
    unfold headTokens
    rw [charsOf_append, charsOf_cons, show (quoted [' '] t.name).text = _ from hquote, charsOf_cons, charsOf_nil]
    simp [quoted, sign]
  obtain ⟨rest, htext⟩ := htext
  exact ⟨_, lexemes_cut (by decide +kernel) (by decide) (by decide) hfront hzero htext
    (neatly_createTokens (separated_cons (by decide) _))⟩

end Table

end GuardedConfig.Schema
