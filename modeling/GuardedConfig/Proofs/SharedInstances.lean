import GuardedConfig.Proofs.Batches
import GuardedConfig.Proofs.Instances
import GuardedConfig.Proofs.Pieces
import GuardedConfig.Proofs.Trigger.Printing

/-!
# `Proofs.SharedInstances` — calls with one literal share one table

How an argument is written does not matter, only what it is read as: blanks around it, quotes, a plus sign and leading
zeros do not reach its literal. Two calls of one template get the same table exactly if their arguments have the same
literal, wherever the calls stand, and this table is created once. The literal of a whole number or of a text is itself
an argument that is read as the same literal.

## Contents

* `coerce_integer`, `coerce_text` — arguments that are whole numbers or texts
* `coerce_literal` — reading a literal once more
* `suffix_eq_iff` — the suffix and the literal tell each other
* `StructDecl.argumentFor?`, `CompiledSchema.CreatesOnce`
* `instances_by_literal`
-/

namespace GuardedConfig

/-! ## Literals -/

namespace Field

open Text Decimal Schema

variable {declared raw raw' : String} {a b : Argument}

theorem isBlank_of_isAsciiDigit {c : Char} (h : isAsciiDigit c = true) : isBlank c = false := by
  simp only [isAsciiDigit, Bool.and_eq_true, decide_eq_true_eq, Char.le_def, UInt32.le_iff_toNat_le] at h
  have hlow : 48 ≤ c.toNat := h.1
  have hhigh : c.toNat ≤ 57 := h.2
  simp only [isBlank, Bool.or_eq_false_iff, Bool.and_eq_false_iff, decide_eq_false_iff_not, beq_eq_false_iff_ne]
  omega

/-- The text of a whole number has no blanks. -/
theorem trim_intText (n : Int) : trim (Json.intText n) = Json.intText n := by
  have hdigits : ∀ c ∈ Nat.toDigits 10 n.natAbs, isBlank c = false :=
    fun c hc => isBlank_of_isAsciiDigit (Trigger.isAsciiDigit_of_mem_toDigits c hc)
  have hchars : ∀ c ∈ (Json.intText n).toList, isBlank c = false := by
    rw [Trigger.toList_intText]
    split
    · exact List.forall_mem_cons.2 ⟨by decide, hdigits⟩
    · exact hdigits
  unfold trim
  rw [trimWith_eq_self (fun c hc => hchars c (List.mem_of_mem_head? hc)) fun c hc => hchars c (List.mem_of_getLast? hc),
    String.ofList_toList]

/-- A whole number is an argument of its type, with its text as the literal. -/
theorem coerce_integer (htype : Builtin.ofName? (toUpper declared) = some .integer) :
    coerce declared raw = .ok a ↔
      ∃ n, readInt? (trim raw).toList = some n ∧ a = ⟨Json.intText n, numberSuffix (Json.intText n)⟩ := by
  unfold coerce
  dsimp only
  rw [htype]
  dsimp only
  cases readInt? (trim raw).toList with
  | none => simp
  | some n => simp [eq_comm]

/-- A character that may stand in an argument that is a text. -/
def isTextPart (c : Char) : Bool := isAsciiLetter c || isAsciiDigit c || c == '_'

/-- A quote of either kind. -/
def isQuote (c : Char) : Bool := c == '\'' || c == '"'

/-- The argument that a text is. -/
def textArgument (inner : List Char) : Argument := ⟨"'" ++ String.ofList inner ++ "'", String.ofList inner⟩

/-- A text is an argument of its type, with quotes around it as the literal. -/
theorem coerce_text (htype : Builtin.ofName? (toUpper declared) = some .text) :
    coerce declared raw = .ok a ↔ ∃ inner, trimWith isQuote (trim raw).toList = inner ∧ inner ≠ [] ∧
      (∀ c ∈ inner, isTextPart c = true) ∧ a = textArgument inner := by
  have hcoerce : coerce declared raw =
      if (trimWith isQuote (trim raw).toList).isEmpty || !(trimWith isQuote (trim raw).toList).all isTextPart then
        .error (.invalidArgument (trim raw) declared)
      else .ok (textArgument (trimWith isQuote (trim raw).toList)) := by
    unfold coerce
    dsimp only
    rw [htype]
    rfl
  rw [hcoerce]
  generalize trimWith isQuote (trim raw).toList = inner
  split
  · rename_i hrefused
    have hrefused : inner ≠ [] → ¬ ∀ c ∈ inner, isTextPart c = true := by
      intro hne hall
      simp [hne, List.all_eq_true.2 hall] at hrefused
    constructor
    · intro h
      cases h
    · rintro ⟨_, rfl, hne, hall, -⟩
      exact absurd hall (hrefused hne)
  · rename_i haccepted
    simp only [Bool.or_eq_true, List.isEmpty_iff, Bool.not_eq_true', not_or, Bool.not_eq_false] at haccepted
    constructor
    · intro h
      cases h
      exact ⟨inner, rfl, haccepted.1, List.all_eq_true.1 haccepted.2, rfl⟩
    · rintro ⟨_, rfl, -, -, rfl⟩
      rfl

theorem isQuote_of_isTextPart {c : Char} (h : isTextPart c = true) : isQuote c = false := by
  have hquotes : isTextPart '\'' = false ∧ isTextPart '"' = false := by decide
  simp only [isQuote, Bool.or_eq_false_iff, beq_eq_false_iff_ne]
  constructor
  · rintro rfl
    exact absurd h (by simp [hquotes.1])
  · rintro rfl
    exact absurd h (by simp [hquotes.2])

/-- The quotes of a literal are what is trimmed from it. -/
theorem trimWith_quoted {inner : List Char} (hinner : ∀ c ∈ inner, isTextPart c = true) (hne : inner ≠ []) :
    trimWith isQuote ('\'' :: (inner ++ ['\''])) = inner := by
  have hfirst : ('\'' :: (inner ++ ['\''])).dropWhile isQuote = inner ++ ['\''] := by
    obtain ⟨c, rest, rfl⟩ := List.exists_cons_of_ne_nil hne
    have hc : isQuote c = false := isQuote_of_isTextPart (hinner c (List.mem_cons_self ..))
    simp [List.dropWhile, hc, show isQuote '\'' = true from rfl]
  have hlast : inner.rdropWhile isQuote = inner :=
    List.rdropWhile_eq_self_iff.2 fun h => by simp [isQuote_of_isTextPart (hinner _ (List.getLast_mem h))]
  rw [trimWith, hfirst, dropEndWhile_eq_rdropWhile, List.rdropWhile_concat_pos _ _ _ rfl, hlast]

/-- **A literal is read as itself**: the literal of a whole number or of a text is an argument with the same literal and
the same suffix. -/
theorem coerce_literal (htype : Builtin.ofName? (toUpper declared) = some .integer ∨
      Builtin.ofName? (toUpper declared) = some .text) (h : coerce declared raw = .ok a) :
    coerce declared a.literal = .ok a := by
  rcases htype with hinteger | htext
  · obtain ⟨n, hn, rfl⟩ := (coerce_integer hinteger).1 h
    refine (coerce_integer hinteger).2 ⟨n, ?_, rfl⟩
    rw [trim_intText]
    exact Trigger.readInt?_intText (Trigger.isInt64_of_readInt? hn)
  · obtain ⟨inner, -, hne, hparts, rfl⟩ := (coerce_text htext).1 h
    refine (coerce_text htext).2 ⟨inner, ?_, hne, hparts, rfl⟩
    have hchars : (textArgument inner).literal.toList = '\'' :: (inner ++ ['\'']) := by
      simp [textArgument]
    have hlast : ∀ c ∈ (textArgument inner).literal.toList.getLast?, isBlank c = false := by
      intro c hc
      rw [hchars, ← List.cons_append, List.getLast?_concat] at hc
      cases hc
      decide
    have hfirst : ∀ c ∈ (textArgument inner).literal.toList.head?, isBlank c = false := by
      intro c hc
      rw [hchars] at hc
      cases hc
      decide
    have htrim : trim (textArgument inner).literal = (textArgument inner).literal := by
      unfold trim
      rw [trimWith_eq_self hfirst hlast, String.ofList_toList]
    rw [htrim, hchars]
    exact trimWith_quoted hparts hne

/-- Within one type, arguments have the same suffix exactly if they have the same literal. -/
theorem suffix_eq_iff (ha : coerce declared raw = .ok a) (hb : coerce declared raw' = .ok b) :
    a.suffix = b.suffix ↔ a.literal = b.literal := by
  constructor
  · intro h
    rw [argument_eq_of_suffix ha hb h]
  · intro h
    obtain ⟨hnumber, literal, -, rfl⟩ | ⟨htext, inner, rfl⟩ := coerce_eq_ok ha <;>
      obtain ⟨hnumber', literal', -, rfl⟩ | ⟨htext', inner', rfl⟩ := coerce_eq_ok hb
    · exact congrArg numberSuffix h
    · exact absurd htext' hnumber
    · exact absurd htext hnumber'
    · have hchars := congrArg String.toList h
      simp only [String.toList_append, List.append_assoc, List.append_cancel_left_eq,
        List.append_cancel_right_eq] at hchars
      exact String.toList_inj.1 hchars

end Field

open GuardedConfig.Field

/-! ## Calls -/

/-- What a template reads a written argument as, by the type of its rule. -/
def StructDecl.argumentFor? (d : StructDecl) (raw : String) : Option Argument := do
  let text ← d.argument
  let rule ← (ArgumentRule.parse text).toOption
  (coerce rule.type raw).toOption

namespace Schema

/-- Of all statements of a schema exactly one creates a table with the name of this one, and it creates this one. -/
def CompiledSchema.CreatesOnce (s : CompiledSchema) (t : Table) : Prop :=
  s.statements.filter (fun statement => statement.table?.any (·.name == t.name)) = [.create t]

variable {c : Catalog} {s : CompiledSchema} {ds : Declarations} {d : StructDecl} {raw raw' : String} {t : Table}

/-- The name of an instance is made of the name of its template and the suffix of its argument. -/
theorem argumentFor?_of_expansion {e : Expansion} (h : d.expansion? raw = some e) :
    ∃ a, d.argumentFor? raw = some a ∧ e.name = instanceName d.name a.suffix := by
  obtain ⟨text, rule, a, htext, hrule, ha, rfl⟩ := expansion_eq_some h
  exact ⟨a, by simp [StructDecl.argumentFor?, htext, hrule, ha, Except.toOption], rfl⟩

/-- Within one template, arguments have the same suffix exactly if they have the same literal. -/
theorem suffix_eq_iff_of_argumentFor {a b : Argument} (ha : d.argumentFor? raw = some a)
    (hb : d.argumentFor? raw' = some b) : a.suffix = b.suffix ↔ a.literal = b.literal := by
  obtain ⟨text, htext, ha⟩ := Option.bind_eq_some_iff.1 ha
  obtain ⟨rule, hrule, ha⟩ := Option.bind_eq_some_iff.1 ha
  simp only [StructDecl.argumentFor?, htext, hrule, Option.bind_eq_bind, Option.bind_some] at hb
  exact suffix_eq_iff (eq_ok_of_toOption ha) (eq_ok_of_toOption hb)

theorem instanceName_inj {base suffix suffix' : String} :
    instanceName base suffix = instanceName base suffix' ↔ suffix = suffix' := by
  constructor
  · intro h
    have hchars := congrArg String.toList h
    simp only [instanceName, String.toList_append, List.append_assoc, List.append_cancel_left_eq] at hchars
    exact String.toList_inj.1 hchars
  · rintro rfl
    rfl

/-- No statement creates a table with a name that no table has. -/
theorem filter_table_eq_nil {name : String} {ss : List SchemaStatement} (h : ∀ t ∈ tablesOf ss, t.name ≠ name) :
    ss.filter (fun statement => statement.table?.any (·.name == name)) = [] := by
  refine List.filter_eq_nil_iff.2 fun statement hstatement => ?_
  cases statement with
  | create t => simpa [SchemaStatement.table?] using h t (mem_tablesOf.2 hstatement)
  | configRow config => simp [SchemaStatement.table?]

/-- A table of a schema is created once, and no other table has its name. -/
theorem Outlined.createsOnce (h : Outlined c s) (ht : t ∈ s.tables) : s.CreatesOnce t := by
  obtain ⟨front, back, hsplit⟩ := List.append_of_mem (mem_tablesOf.1 ht)
  -- the names before and behind the statement are other ones
  have hnodup : ((tablesOf s.statements).map (·.name)).Nodup := h.supplies.nodup
  have htables : tablesOf s.statements = tablesOf front ++ t :: tablesOf back := by
    rw [hsplit]
    simp [tablesOf, SchemaStatement.table?]
  rw [htables, List.map_append, List.map_cons, List.nodup_append] at hnodup
  obtain ⟨-, hown, hapart⟩ := hnodup
  have hfront : ∀ u ∈ tablesOf front, u.name ≠ t.name := fun u hu =>
    hapart _ (List.mem_map_of_mem hu) _ (List.mem_cons_self ..)
  have hback : ∀ u ∈ tablesOf back, u.name ≠ t.name := fun u hu hname =>
    (List.nodup_cons.1 hown).1 (List.mem_map.2 ⟨u, hu, hname⟩)
  unfold CompiledSchema.CreatesOnce
  rw [hsplit, List.filter_append, List.filter_cons_of_pos (by simp [SchemaStatement.table?]),
    filter_table_eq_nil hfront, filter_table_eq_nil hback, List.nil_append]

/-! ## Calls of one template -/

/-- **Instances are kept by their literals**: two calls of one template get the same table exactly if their arguments
have the same literal, and this table is created once. The literal of a whole number or of a text is read as itself. -/
theorem instances_by_literal (hok : compile ds = .ok s) :
    (∀ call other, ds.HasCall call → ds.HasCall other → call.template = other.template → ∃ a b t u,
      call.template.argumentFor? call.raw = some a ∧ other.template.argumentFor? other.raw = some b ∧
      (∀ x, s.Gives call x ↔ x = t) ∧ (∀ x, s.Gives other x ↔ x = u) ∧
      (t.name = u.name ↔ a.literal = b.literal) ∧ (t = u ↔ a.literal = b.literal) ∧
      s.CreatesOnce t ∧ s.CreatesOnce u) ∧
    ∀ declared raw a, Builtin.ofName? (Text.toUpper declared) = some .integer ∨
        Builtin.ofName? (Text.toUpper declared) = some .text →
      coerce declared raw = .ok a → coerce declared a.literal = .ok a := by
  refine ⟨fun call other hcall hother htemplate => ?_, fun _ _ _ htype h => coerce_literal htype h⟩
  obtain ⟨c, houtlined, -, hall⟩ := answered_of_compile hok
  obtain ⟨t, hgives, ht, -, body, hexpansion⟩ := hall call hcall
  obtain ⟨u, hgives', hu, -, body', hexpansion'⟩ := hall other hother
  obtain ⟨a, ha, hname⟩ := argumentFor?_of_expansion hexpansion
  obtain ⟨b, hb, hname'⟩ := argumentFor?_of_expansion hexpansion'
  have hnames : t.name = u.name ↔ a.literal = b.literal := by
    -- both names begin with that of the one template, so the suffixes decide
    have hname : t.name = instanceName call.template.name a.suffix := hname
    have hname' : u.name = instanceName call.template.name b.suffix := htemplate ▸ hname'
    rw [hname, hname', instanceName_inj]
    exact suffix_eq_iff_of_argumentFor ha (htemplate ▸ hb)
  have hsame : t = u ↔ t.name = u.name :=
    ⟨fun h => congrArg Table.name h, houtlined.table_eq_of_name ht hu⟩
  exact ⟨a, b, t, u, ha, hb, hgives, hgives', hnames, hsame.trans hnames, houtlined.createsOnce ht,
    houtlined.createsOnce hu⟩

/-- A template that two configs call, with the same number written in two ways and with the opposite number. -/
def paneWindows : Declarations where
  structs := [⟨"Window", "width INTEGER DEFAULT size", some "size:INTEGER=5"⟩]
  configs := [⟨"Left", "pane Window(3)"⟩, ⟨"Right", "panes LIST(Window( 03 )), edge Window(-3)"⟩]

/-- A call of the template of windows. -/
def windowCall (config field raw : String) : Call :=
  ⟨config, field, ⟨"Window", "width INTEGER DEFAULT size", some "size:INTEGER=5"⟩, raw⟩

theorem instances_by_literal_windows : ∃ s t u, compile paneWindows = .ok s ∧
    (∀ x, s.Gives (windowCall "Left" "pane" "3") x ↔ x = t) ∧
    (∀ x, s.Gives (windowCall "Right" "panes" " 03 ") x ↔ x = t) ∧
    (∀ x, s.Gives (windowCall "Right" "edge" "-3") x ↔ x = u) ∧ t.name ≠ u.name ∧ s.CreatesOnce t := by
  have hrun : (compile paneWindows).isOk = true := by decide +kernel
  have hleft : parseBody "Left" "pane Window(3)" = .ok ⟨[⟨"pane", "Window(3)"⟩], []⟩ := by decide +kernel
  have hright : parseBody "Right" "panes LIST(Window( 03 )), edge Window(-3)" =
      .ok ⟨[⟨"panes", "LIST(Window( 03 ))"⟩, ⟨"edge", "Window(-3)"⟩], []⟩ := by decide +kernel
  have hpane : paneWindows.HasCall (windowCall "Left" "pane" "3") :=
    ⟨by decide, rfl, _, List.mem_cons_self .., _, hleft, rfl, _, List.mem_cons_self .., rfl, .inl (by decide +kernel)⟩
  have hpanes : paneWindows.HasCall (windowCall "Right" "panes" " 03 ") :=
    ⟨by decide, rfl, _, List.mem_cons_of_mem _ (List.mem_cons_self ..), _, hright, rfl, _, List.mem_cons_self .., rfl,
      .inr (by decide +kernel)⟩
  have hedge : paneWindows.HasCall (windowCall "Right" "edge" "-3") :=
    ⟨by decide, rfl, _, List.mem_cons_of_mem _ (List.mem_cons_self ..), _, hright, rfl, _,
      List.mem_cons_of_mem _ (List.mem_cons_self ..), rfl, .inl (by decide +kernel)⟩
  have hthree : (windowCall "Left" "pane" "3").template.argumentFor? "3" = some ⟨"3", "3"⟩ := by decide +kernel
  have hpadded : (windowCall "Right" "panes" " 03 ").template.argumentFor? " 03 " = some ⟨"3", "3"⟩ := by
    decide +kernel
  have hopposite : (windowCall "Right" "edge" "-3").template.argumentFor? "-3" = some ⟨"-3", "m3"⟩ := by decide +kernel
  rcases hok : compile paneWindows with e | s
  · rw [hok] at hrun
    cases hrun
  · obtain ⟨hcalls, -⟩ := instances_by_literal hok
    obtain ⟨a, b, t, t', ha, hb, ht, ht', -, hsame, honce, -⟩ := hcalls _ _ hpane hpanes rfl
    obtain ⟨a', e, t'', u, ha', he, ht'', hu, hnames, -⟩ := hcalls _ _ hpane hedge rfl
    cases hthree.symm.trans ha
    cases hthree.symm.trans ha'
    cases hpadded.symm.trans hb
    cases hopposite.symm.trans he
    cases hsame.2 rfl
    cases (ht t'').1 ((ht'' t'').2 rfl)
    exact ⟨s, t, u, rfl, ht, ht', hu, mt hnames.1 (by decide), honce⟩

end Schema

end GuardedConfig
