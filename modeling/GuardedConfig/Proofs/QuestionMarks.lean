import GuardedConfig.Plan.Steps
import GuardedConfig.Proofs.Lexing
import GuardedConfig.Proofs.Steps

/-!
# `Proofs.QuestionMarks` — the parameters in the text of a statement

The store counts the parameters of a statement by the question marks in its text. A name may contain any character, so
only question marks outside quotes count. The statements of a field are put together from words, names between quotes
and parameters, and each of these pieces leaves no quote open, so their marks add up.

## Contents

* `marks` — the question marks outside quotes
* `HasMarks` — pieces of a text, with `HasMarks.append`, `HasMarks.joinWith`, `HasMarks.quoteName`
* `Command.IsMarked`, with `insertRow_marked` and `readCommand_marked` — the statements of a field
-/

namespace GuardedConfig.Sql

open Schema Text

/-- The question marks that stand outside quotes, where `quote` is the quote that is open. -/
def marksFrom : (quote : Option Char) → List Char → Nat
  | _, [] => 0
  | some q, c :: cs => marksFrom (if c = q then none else some q) cs
  | none, c :: cs =>
    if c = '?' then marksFrom none cs + 1
    else marksFrom (if c = '"' ∨ c = '\'' then some c else none) cs

/-- The number of question marks of a text that stand outside quotes. -/
def marks (text : String) : Nat := marksFrom none text.toList

/-- A piece of a text has some question marks and leaves no quote open. -/
def HasMarks (n : Nat) (piece : String) : Prop :=
  ∀ rest, marksFrom none (piece.toList ++ rest) = n + marksFrom none rest

theorem HasMarks.marks_eq {n : Nat} {text : String} (h : HasMarks n text) : marks text = n := by
  have hrest := h []
  rw [List.append_nil] at hrest
  exact hrest

namespace HasMarks

variable {m n : Nat} {s t : String}

theorem append (hs : HasMarks m s) (ht : HasMarks n t) : HasMarks (m + n) (s ++ t) := by
  intro rest
  rw [String.toList_append, List.append_assoc, hs, ht, Nat.add_assoc]

/-- A piece without marks before another one. -/
theorem after (hs : HasMarks 0 s) (ht : HasMarks n t) : HasMarks n (s ++ t) := by
  have h := hs.append ht
  rwa [Nat.zero_add] at h

/-- A piece without marks behind another one. -/
theorem before (hs : HasMarks n s) (ht : HasMarks 0 t) : HasMarks n (s ++ t) := hs.append ht

/-- A character that neither is a question mark nor begins a quote. -/
def isPlain (c : Char) : Bool := c != '?' && c != '"' && c != '\''

/-- Words without quotes have no marks. -/
theorem word (h : s.toList.all isPlain = true) : HasMarks 0 s := by
  intro rest
  rw [Nat.zero_add]
  generalize s.toList = cs at h
  induction cs with
  | nil => rfl
  | cons c cs ih =>
    obtain ⟨hc, hcs⟩ := Bool.and_eq_true_iff.1 h
    have hc : c ≠ '?' ∧ c ≠ '"' ∧ c ≠ '\'' := by simpa [isPlain, and_assoc] using hc
    rw [List.cons_append, marksFrom, if_neg hc.1, if_neg (not_or.2 hc.2), ih hcs]

theorem empty : HasMarks 0 "" := fun _ => (Nat.zero_add _).symm

theorem mark : HasMarks 1 "?" := fun rest => Nat.add_comm (marksFrom none rest) 1

/-- A name between quotes has no marks, whatever its characters: a doubled quote closes and opens. -/
theorem quoteName (name : String) : HasMarks 0 (quoteName name) := by
  intro rest
  -- by induction on the name, inside the quotes: after a doubled quote they are open again
  have hinside : ∀ cs : List Char, marksFrom (some '"') (doubleQuotes cs ++ '"' :: rest) = marksFrom none rest := by
    intro cs
    induction cs with
    | nil => rfl
    | cons c cs ih =>
      rw [doubleQuotes]
      split
      · exact ih
      · rename_i hc
        rw [List.cons_append, marksFrom, if_neg hc, ih]
  rw [toList_quoteName, List.cons_append, List.append_assoc, Nat.zero_add]
  exact hinside name.toList

/-- Pieces with the same number of marks each, between separators without marks. -/
theorem joinWith {sep : String} (hsep : HasMarks 0 sep) {parts : List String} (h : ∀ part ∈ parts, HasMarks n part) :
    HasMarks (n * parts.length) (joinWith sep parts) := by
  unfold Text.joinWith
  induction parts with
  | nil => exact fun rest => (Nat.zero_add _).symm
  | cons part parts ih =>
    obtain ⟨hpart, hparts⟩ := List.forall_mem_cons.1 h
    cases parts with
    | nil =>
      rw [String.intercalate_singleton, List.length_singleton, Nat.mul_one]
      exact hpart
    | cons next parts =>
      rw [String.intercalate_cons_cons, List.length_cons, Nat.mul_add, Nat.mul_one, Nat.add_comm]
      exact (hpart.append hsep).append (ih hparts)

theorem joinWith_zero {sep : String} (hsep : HasMarks 0 sep) {parts : List String}
    (h : ∀ part ∈ parts, HasMarks 0 part) : HasMarks 0 (Text.joinWith sep parts) := by
  have hjoined := joinWith hsep h
  rwa [Nat.zero_mul] at hjoined

/-! ## Expressions -/

variable {a b : Expr}

theorem named (name : String) : HasMarks 0 (Expr.named name).text := quoteName name

theorem of {source : String} (h : source.toList.all isPlain = true) (name : String) :
    HasMarks 0 (Expr.of source name).text := by
  change HasMarks 0 (source ++ "." ++ Schema.quoteName name)
  exact .before (.before (word h) (word (by decide))) (quoteName name)

theorem parameter (index : Nat) : HasMarks 1 (Expr.parameter index).text := mark

theorem equals (ha : a.isAtom = true) (hb : b.isAtom = true) (hm : HasMarks m a.text) (hn : HasMarks n b.text) :
    HasMarks (m + n) (Expr.equals a b).text := by
  change HasMarks (m + n) (Expr.operand a.isAtom a.text ++ " " ++ "=" ++ " " ++ Expr.operand b.isAtom b.text)
  rw [ha, hb]
  exact .append (.before (.before (.before hm (word (by decide))) (word (by decide))) (word (by decide))) hn

theorem clause {word : String} (hword : word.toList.all isPlain = true) (h : HasMarks n a.text) :
    HasMarks n (clause word (some a)) := .after (.word hword) h

end HasMarks

end GuardedConfig.Sql

namespace GuardedConfig.Plan

open Schema Sql
open Text (joinWith)

/-! ## The statements of a field -/

theorem configRow_hasMarks : HasMarks 0 (Expr.int configRow).text := by
  change HasMarks 0 (literalText (.integer configRow))
  exact .word (by decide +kernel)

theorem isConfigRow_hasMarks (table : String) : HasMarks 0 (isConfigRow table).text :=
  .equals rfl rfl (.named _) configRow_hasMarks

theorem where_hasMarks (table : String) : HasMarks 0 (clause " WHERE " (some (isConfigRow table))) :=
  .clause (by decide) (isConfigRow_hasMarks table)

/-- A statement with as many parameters as its text has question marks outside quotes. -/
def Command.IsMarked (c : Command) : Prop := marks c.statement.text = c.params.length

theorem updateColumn_marked (table column : String) (p : Param) : (updateColumn table column p).IsMarked := by
  have hset : HasMarks 1 (joinWith ", " [quoteName column ++ " = " ++ (Expr.parameter 1).text]) := by
    rw [joinWith, String.intercalate_singleton]
    exact .after (.before (.quoteName column) (.word (by decide))) (.parameter 1)
  have htext : HasMarks 1 ("UPDATE" ++ "" ++ " " ++ quoteName table ++ " SET " ++
      joinWith ", " [quoteName column ++ " = " ++ (Expr.parameter 1).text] ++
      clause " WHERE " (some (isConfigRow table))) :=
    .before (.after (.before (.before (.word (by decide)) (.quoteName table)) (.word (by decide))) hset)
      (where_hasMarks table)
  exact htext.marks_eq

/-- A deletion by a condition without parameters has none. -/
theorem delete_marked (table : String) {condition : Expr} (h : HasMarks 0 condition.text) :
    marks (Statement.delete { table, condition := some condition }).text = 0 := by
  have htext : HasMarks 0 ("DELETE FROM " ++ quoteName table ++ clause " WHERE " (some condition)) :=
    .before (.before (.word (by decide)) (.quoteName table)) (.clause (by decide) h)
  exact htext.marks_eq

theorem releaseRow_marked (table column : String) (target : Table) : (releaseRow table column target).IsMarked := by
  have hselect : HasMarks 0 (Expr.first (.named column) table (isConfigRow table)).text := by
    change HasMarks 0 ("(SELECT " ++ (Expr.named column).text ++ " FROM " ++ quoteName table ++ " WHERE " ++
      (isConfigRow table).text ++ ")")
    exact .before (.before (.before (.before (.before (.before (.word (by decide)) (.named column)) (.word (by decide)))
      (.quoteName table)) (.word (by decide))) (isConfigRow_hasMarks table)) (.word (by decide))
  exact delete_marked target.name (.equals rfl rfl (.named target.key) hselect)

theorem deleteMembers_marked (table : String) (item : Table) : (deleteMembers table item).IsMarked := by
  refine delete_marked item.name ?_
  change HasMarks 0 ((Expr.named item.key).text ++ " IN (SELECT " ++ (Expr.named item.key).text ++ " FROM " ++
    quoteName (junctionName item.name table) ++ " WHERE " ++ (isConfigRow table).text ++ ")")
  exact .before (.before (.before (.before (.before (.before (.before (.named item.key) (.word (by decide)))
    (.named item.key)) (.word (by decide))) (.quoteName _)) (.word (by decide))) (isConfigRow_hasMarks table))
    (.word (by decide))

theorem deleteLinks_marked (table : String) (item : Table) : (deleteLinks table item).IsMarked :=
  delete_marked _ (isConfigRow_hasMarks table)

/-- The text of an insertion of one row into some columns. -/
theorem insert_marked (table : String) (columns : List String) {n : Nat} {values : List Expr}
    (h : HasMarks n (joinWith ", " (values.map Expr.text))) :
    marks (Statement.insert { table, columns := some columns, rows := some [values] }).text = n := by
  have hcolumns : HasMarks 0 (joinWith ", " (columns.map quoteName)) := by
    refine .joinWith_zero (.word (by decide)) fun part hpart => ?_
    obtain ⟨name, -, rfl⟩ := List.mem_map.1 hpart
    exact .quoteName name
  have hrows : HasMarks n (joinWith ", " ["(" ++ joinWith ", " (values.map Expr.text) ++ ")"]) := by
    rw [joinWith, String.intercalate_singleton]
    exact .before (.after (.word (by decide)) h) (.word (by decide))
  have htext : HasMarks n ("INSERT" ++ "" ++ " INTO " ++ quoteName table ++
      (" (" ++ joinWith ", " (columns.map quoteName) ++ ")") ++
      (" VALUES " ++ joinWith ", " ["(" ++ joinWith ", " (values.map Expr.text) ++ ")"])) :=
    .after (.before (.before (.word (by decide)) (.quoteName table))
      (.before (.before (.word (by decide)) hcolumns) (.word (by decide)))) (.after (.word (by decide)) hrows)
  exact htext.marks_eq

theorem linkRow_marked (table : String) (item : Table) : (linkRow table item).IsMarked := by
  refine insert_marked _ _ ?_
  rw [joinWith, List.map_cons, List.map_cons, List.map_nil, String.intercalate_cons_cons, String.intercalate_singleton]
  exact .before (.before (.parameter 1) (.word (by decide))) configRow_hasMarks

/-- A row is inserted with one parameter for each of its members; without members, there is none. -/
theorem insertRow_marked {t : Table} {members : List (String × Json)} {c : Command}
    (h : insertRow t members = .ok c) : c.IsMarked := by
  unfold insertRow at h
  split at h
  · cases h
    have htext : HasMarks 0 ("INSERT" ++ "" ++ " INTO " ++ quoteName t.name ++ "" ++ " DEFAULT VALUES") :=
      .before (.before (.before (.word (by decide)) (.quoteName t.name)) (.word (by decide))) (.word (by decide))
    exact htext.marks_eq
  · obtain ⟨params, _, h⟩ := except_bind_eq_ok.1 h
    cases h
    unfold Command.IsMarked
    rw [List.length_map]
    refine insert_marked t.name _ ?_
    have hparts : ∀ part ∈ ((List.range params.length).map fun i => Expr.parameter (i + 1)).map Expr.text,
        HasMarks 1 part := by
      simp only [List.map_map, List.forall_mem_map]
      exact fun i _ => .parameter (i + 1)
    have hvalues := HasMarks.joinWith (.word (s := ", ") (by decide)) hparts
    rwa [List.length_map, List.length_map, List.length_range, Nat.one_mul] at hvalues

/-! ## The query of a field -/

theorem columnsOf_hasMarks {source : String} (h : source.toList.all HasMarks.isPlain = true) (t : Table) :
    HasMarks 0 (joinWith ", " ((columnsOf source t).map (·.printed))) := by
  refine .joinWith_zero (.word (by decide)) fun part hpart => ?_
  simp only [columnsOf, List.map_map, List.mem_map] at hpart
  obtain ⟨name, -, rfl⟩ := hpart
  exact .before (.of h name) (.word (by decide))

theorem source_hasMarks (table : String) {shortName : Option String} (h : ∀ a ∈ shortName, HasMarks 0 a)
    {on : Option Expr} (hon : ∀ e ∈ on, HasMarks 0 e.text) :
    HasMarks 0 ({ table, shortName, on } : Source).text := by
  unfold Source.text
  refine .before (.before (.quoteName table) ?_) ?_
  · cases shortName with
    | none => exact .empty
    | some a => exact .before (.word (by decide)) (h a rfl)
  · cases on with
    | none => exact .empty
    | some e => exact .clause (by decide) (hon e rfl)

/-- A query without parameters in its parts has none. -/
theorem select_marked {columns : List ResultColumn} {sources : List Source} {condition : Expr} (order : List Expr)
    (hcolumns : HasMarks 0 (joinWith ", " (columns.map (·.printed)))) (hsources : ∀ s ∈ sources, HasMarks 0 s.text)
    (hcondition : HasMarks 0 condition.text) (horder : ∀ e ∈ order, HasMarks 0 e.text) :
    marks (Statement.select
      { columns, sources, condition := some condition, order := order.map fun e => (e, false) }).text = 0 := by
  have hfrom : HasMarks 0 (if sources.isEmpty then "" else " FROM " ++ joinWith " JOIN " (sources.map (·.text))) := by
    split
    · exact .word (by decide)
    · exact .before (.word (by decide)) (.joinWith_zero (.word (by decide)) (List.forall_mem_map.2 hsources))
  let keys := (order.map fun e => (e, false)).map fun key => key.1.text ++ if key.2 then " DESC" else ""
  have horder : HasMarks 0 (if keys.isEmpty then "" else " ORDER BY " ++ joinWith ", " keys) := by
    split
    · exact .word (by decide)
    · refine .before (.word (by decide)) (.joinWith_zero (.word (by decide)) fun key hkey => ?_)
      simp only [keys, List.map_map, List.mem_map] at hkey
      obtain ⟨e, he, rfl⟩ := hkey
      exact .before (horder e he) (.word rfl)
  have htext : HasMarks 0 ("SELECT " ++ "" ++ joinWith ", " (columns.map (·.printed)) ++
      (if sources.isEmpty then "" else " FROM " ++ joinWith " JOIN " (sources.map (·.text))) ++
      clause " WHERE " (some condition) ++ (if keys.isEmpty then "" else " ORDER BY " ++ joinWith ", " keys) ++ "") :=
    .before (.before (.before (.before (.before (.word (by decide)) hcolumns) hfrom) (.clause (by decide) hcondition))
      horder) (.word (by decide))
  exact htext.marks_eq

/-- The query of a field has no parameters. -/
theorem readCommand_marked (storage : Storage) : (readCommand storage).IsMarked := by
  have hname : ∀ name : String, name.toList.all HasMarks.isPlain = true → ∀ a ∈ some name, HasMarks 0 a :=
    fun name h a ha => Option.some.inj ha ▸ .word h
  have hjoin : ∀ (left right : String) (a b : String), left.toList.all HasMarks.isPlain = true →
      right.toList.all HasMarks.isPlain = true →
      ∀ e ∈ some (Expr.equals (.of left a) (.of right b)), HasMarks 0 e.text :=
    fun left right a b hl hr e he => Option.some.inj he ▸ .equals rfl rfl (.of hl a) (.of hr b)
  cases storage with
  | scalar table column =>
    have hsource : HasMarks 0 ({ table } : Source).text := by
      refine source_hasMarks table ?_ ?_ <;> exact fun _ h => nomatch h
    refine select_marked [] (.joinWith_zero (.word (by decide)) fun part hpart => ?_)
      (List.forall_mem_singleton.2 hsource) (isConfigRow_hasMarks table) nofun
    obtain rfl := List.mem_singleton.1 hpart
    exact .before (.named column) (.word (by decide))
  | reference table column target =>
    refine select_marked [] (columnsOf_hasMarks (by decide) target) (List.forall_mem_cons.2 ⟨?_, ?_⟩)
      (.equals rfl rfl (.of (by decide) _) configRow_hasMarks) nofun
    · exact source_hasMarks table (hname "c" (by decide)) nofun
    · exact List.forall_mem_singleton.2 (source_hasMarks target.name (hname "t" (by decide))
        (hjoin "t" "c" _ _ (by decide) (by decide)))
  | list table item scalarItems =>
    refine select_marked [.of "i" item.key] (columnsOf_hasMarks (by decide) item)
      (List.forall_mem_cons.2 ⟨?_, ?_⟩) (.equals rfl rfl (.of (by decide) _) configRow_hasMarks)
      (List.forall_mem_singleton.2 (.of (by decide) _))
    · exact source_hasMarks item.name (hname "i" (by decide)) nofun
    · exact List.forall_mem_singleton.2 (source_hasMarks _ (hname "j" (by decide))
        (hjoin "j" "i" _ _ (by decide) (by decide)))

end GuardedConfig.Plan
