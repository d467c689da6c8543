import GuardedConfig.Proofs.Gaps

/-!
# `Proofs.Hygiene` — what substitution does to tokens

Substitution sees a text, and the statement language sees tokens. They agree where the placeholder is a token or no part
of one, and where the literal in its place does not go on into the tokens beside it: a minus does before a negative
number, a point before or behind a number, a string before or behind another string. Then the tokens of an instantiated
body are those of the body with the tokens of the literal in the place of the placeholder.

The proof goes from token to token. A token that is not the placeholder stays as it is and ends where it ended; the
literal is read as its own tokens; what is skipped before them is still skipped.

## Contents

* `joinsFront`, `joinsBack`, `Apart`, `Clear` — literals that do not go on into the tokens beside them
* `Form.stops_before_literal`, `Literal.cuts` — where tokens end
* `Cuts.substitute` — substitution, token by token
* `instantiate_tokens`
-/

namespace GuardedConfig

open Text Sql

namespace Field

/-! ## Tokens beside a literal -/

/-- Whether a token goes on into a literal right behind it. -/
def joinsFront (front literal : List Char) : Bool :=
  literal.head?.any fun c =>
    (front == ['-'] && c == '-') || ((front == ['.'] || front == ['?']) && isAsciiDigit c) ||
      (front.head? == some '\'' && c == '\'')

/-- Whether a literal goes on with a character right behind it. -/
def goesOn (literal : List Char) (c : Char) : Bool :=
  (c == '.' && literal.all fun d => isAsciiDigit d || d == '-') || (c == '\'' && literal.head? == some '\'')

/-- Whether a literal goes on into a token right behind it. -/
def joinsBack (literal back : List Char) : Bool := back.head?.any (goesOn literal)

/-- Two tokens between which nothing stands share no run of word characters, and if one of them is the placeholder the
literal does not go on into the other one. -/
def Apart (placeholder literal : List Char) (l m : Lexeme) : Prop :=
  m.gap = [] →
    ¬ (l.text.getLast?.any isWord = true ∧ m.text.head?.any isWord = true) ∧
    (m.token = (.word, placeholder) → joinsFront l.text literal = false) ∧
    (l.token = (.word, placeholder) → joinsBack literal m.text = false)

instance (placeholder literal : List Char) (l m : Lexeme) : Decidable (Apart placeholder literal l m) :=
  inferInstanceAs (Decidable (_ → _))

/-- Tokens in which a literal can be put for a placeholder: it is no run of word characters inside of another token, and
no neighbour of it goes on into the literal. -/
structure Clear (placeholder literal : List Char) (ls : List Lexeme) : Prop where
  whole : ∀ l ∈ ls, l.token ≠ (.word, placeholder) → placeholder ∉ l.text.splitBy sameClass
  apart : ls.IsChain (Apart placeholder literal)

instance (placeholder literal : List Char) (ls : List Lexeme) : Decidable (Clear placeholder literal ls) :=
  decidable_of_iff ((∀ l ∈ ls, l.token ≠ (.word, placeholder) → placeholder ∉ l.text.splitBy sameClass) ∧
    ls.IsChain (Apart placeholder literal)) ⟨fun h => ⟨h.1, h.2⟩, fun h => ⟨h.whole, h.apart⟩⟩

variable {placeholder literal cs text rest : List Char} {c d : Char} {kind : LexemeKind} {more : Char → Bool}
  {l m : Lexeme} {ls : List Lexeme} {value : List (LexemeKind × List Char)}

theorem Clear.tail (h : Clear placeholder literal (l :: ls)) : Clear placeholder literal ls :=
  ⟨(List.forall_mem_cons.1 h.whole).2, h.apart.tail⟩

/-! ## Where tokens end -/

/-- A run at the front of a text is one of its runs. -/
theorem takeWhile_mem_splitBy (h : cs.takeWhile isWord ≠ []) : cs.takeWhile isWord ∈ cs.splitBy sameClass := by
  have hrest : IsCut (cs.dropWhile isWord) ((cs.dropWhile isWord).splitBy sameClass) := isCut_iff.2 rfl
  generalize (cs.dropWhile isWord).splitBy sameClass = pieces at hrest
  have hword : ∀ c ∈ cs.takeWhile isWord, isWord c = true := fun _ => List.mem_takeWhile_imp
  suffices hcut : IsCut cs (cs.takeWhile isWord :: pieces) by
    rw [isCut_iff.1 hcut]
    exact List.mem_cons_self
  refine ⟨?joined, List.forall_mem_cons.2 ⟨h, hrest.nonempty⟩, List.forall_mem_cons.2 ⟨?alike, hrest.alike⟩, ?apart⟩
  case joined => rw [List.flatten_cons, hrest.joined, List.takeWhile_append_dropWhile]
  case alike => exact fun c hc d hd => (hword c hc).trans (hword d hd).symm
  case apart =>
    cases pieces with
    | nil => exact .singleton _
    | cons next pieces =>
      refine List.isChain_cons_cons.2 ⟨fun c hc d hd => ?_, hrest.apart⟩
      obtain ⟨e, next, rfl⟩ := List.exists_cons_of_ne_nil (hrest.nonempty next List.mem_cons_self)
      have he : isWord e = false := head?_dropWhile isWord cs e (by rw [← hrest.joined]; rfl)
      rw [hword c hc, hrest.alike (e :: next) List.mem_cons_self d hd e List.mem_cons_self, he]
      decide

/-- No sign goes on into the first character of a literal. -/
theorem not_begins_of_doubleSign (h : [c, d] ∈ doubleSigns) : ¬ (isAsciiDigit d = true ∨ d = '-' ∨ d = '\'') := by
  have hsecond : ∀ d ∈ doubleSigns.filterMap (·[1]?), ¬ (isAsciiDigit d = true ∨ d = '-' ∨ d = '\'') := by decide
  exact hsecond d (List.mem_filterMap.2 ⟨_, h, rfl⟩)

/-- A token that ends before a word also ends before a literal, unless it goes on into it. -/
theorem stops_before_literal (h : Form kind text more) (hd : isWord d = true) (hstop : more d = false)
    (hrun : ¬ text.getLast?.any isWord = true) (hfront : joinsFront text literal = false)
    (hliteral : Literal literal value) (hc : c ∈ literal.head?) : more c = false := by
  have hname := isNameChar_of_isWord hd
  have hbegins : isAsciiDigit c = true ∨ c = '-' ∨ c = '\'' := by
    obtain ⟨e, behind, rfl, hbegins⟩ := hliteral.begins
    obtain rfl : e = c := Option.some.inj hc
    exact hbegins.imp_right fun h => h.imp_left And.left
  simp only [joinsFront, Option.mem_def.1 hc, Option.any_some, Bool.or_eq_false_iff, Bool.and_eq_false_imp, beq_iff_eq,
    Bool.or_eq_true, beq_eq_false_iff_ne] at hfront
  obtain ⟨⟨-, hdigit⟩, hquote⟩ := hfront
  cases h with
  | string => simpa using hquote rfl
  | quotedName hmark =>
    rw [beq_eq_false_iff_ne]
    rintro rfl
    rcases hmark with rfl | rfl <;> exact absurd hbegins (by decide)
  | bracketed => rfl
  | number htext =>
    rw [htext.isNameChar_eq_false hstop] at hname
    cases hname
  | hexNumber =>
    rw [hstop] at hname
    cases hname
  | @place digits hdigits =>
    rcases List.eq_nil_or_concat digits with rfl | ⟨digits, e, rfl⟩
    · exact hdigit (.inr rfl)
    · refine absurd ?_ hrun
      have he := isWord_of_isAsciiDigit (hdigits e (by simp))
      simp [List.getLast?_cons, he]
  | parameter =>
    rw [hstop] at hname
    cases hname
  | blob => rfl
  | word =>
    rw [(Bool.or_eq_false_iff.1 hstop).1] at hname
    cases hname
  | doubleSign => rfl
  | @sign e hsign =>
    rw [Bool.or_eq_false_iff, Bool.and_eq_false_imp, List.contains_eq_mem, decide_eq_false_iff_not, beq_iff_eq]
    refine ⟨fun hmem => not_begins_of_doubleSign hmem hbegins, ?_⟩
    rintro rfl
    exact hdigit (.inl rfl)

/-- A number ends before a character that does not go on with it as a literal. -/
theorem stops_number {v : Value} (h : NumberText v text more) (hname : isNameChar c = false)
    (hpoint : c = '.' → ¬ ∀ d ∈ text, isAsciiDigit d = true ∨ d = '-') : more c = false := by
  cases h with
  | whole hne hdigits =>
    rw [Bool.or_eq_false_iff, beq_eq_false_iff_ne]
    exact ⟨hname, fun hc => hpoint hc fun d hd => .inl (hdigits d hd)⟩
  | fraction => exact hname
  | exponent => exact hname
  | fractionExponent => exact hname

/-- Nothing is skipped before a digit. -/
theorem skipBlanks_digit (h : isAsciiDigit c = true) (cs : List Char) : skipBlanks (c :: cs) = c :: cs := by
  refine skipBlanks_word (isWord_of_isAsciiDigit h) ?_ cs
  rintro rfl
  exact absurd h (by decide)

/-- Nothing is skipped before a literal. -/
theorem Literal.skipBlanks (h : Literal literal value) (cs : List Char) :
    Sql.skipBlanks (literal ++ cs) = literal ++ cs := by
  obtain ⟨c, rest, rfl, hdigit | ⟨rfl, d, hd, hdigit⟩ | rfl⟩ := h.begins
  · exact skipBlanks_digit hdigit _
  · obtain ⟨rest, rfl⟩ := List.head?_eq_some_iff.1 hd
    refine skipBlanks_cons (by decide) ?_ nofun
    rintro more - hmore
    rw [(List.cons.inj hmore).1] at hdigit
    exact absurd hdigit (by decide)
  · exact skipBlanks_cons (by decide) nofun nofun

/-- A literal is read as its tokens, if what is behind it does not go on with it. -/
theorem Literal.cuts (h : Literal literal value) (hskip : Sql.skipBlanks cs = literal ++ rest)
    (hstop : ∀ c ∈ rest.head?, isNameChar c = false ∧ goesOn literal c = false) (hrest : Cuts rest ls) :
    ∃ ms, Cuts cs (ms ++ ls) ∧ ms.map Lexeme.token = value := by
  have hnumber : ∀ {v : Value} {text : List Char} {more : Char → Bool}, IsNumber text v more →
      (literal.all (fun d => isAsciiDigit d || d == '-') = text.all fun d => isAsciiDigit d || d == '-') →
      ∀ c ∈ rest.head?, more c = false := by
    intro v text more hnumber hall c hc
    obtain ⟨hname, hgoes⟩ := hstop c hc
    refine stops_number hnumber.number hname ?_
    rintro rfl hdigits
    have htext : text.all (fun d => isAsciiDigit d || d == '-') = true := by simpa using hdigits
    rw [goesOn, hall, htext] at hgoes
    cases hgoes
  cases h with
  | number hliteral =>
    obtain ⟨gap, hcuts⟩ := hrest.cons hskip (.number hliteral.number) (hnumber hliteral rfl)
    exact ⟨[_], hcuts, rfl⟩
  | @negative text v more hliteral =>
    obtain ⟨d, hd, hdigit⟩ := hliteral.begins
    obtain ⟨behind, rfl⟩ := List.head?_eq_some_iff.1 hd
    -- the number is a token of its own, and no sign goes on from the minus into its first digit
    obtain ⟨gap, hcuts⟩ := hrest.cons (skipBlanks_digit hdigit _) (.number hliteral.number) (hnumber hliteral (by simp))
    have hsign : ∀ c ∈ (d :: behind ++ rest).head?,
        (doubleSigns.contains ['-', c] || ('-' == '.' && isAsciiDigit c)) = false := by
      intro c hc
      obtain rfl : d = c := Option.some.inj hc
      rw [Bool.or_eq_false_iff, List.contains_eq_mem, decide_eq_false_iff_not]
      exact ⟨fun hmem => not_begins_of_doubleSign hmem (.inl hdigit), rfl⟩
    have hskip : Sql.skipBlanks cs = ['-'] ++ (d :: behind ++ rest) := hskip
    obtain ⟨gap', hcuts⟩ := hcuts.cons hskip (.sign (by decide)) hsign
    exact ⟨[_, _], hcuts, rfl⟩
  | @text inside hinside =>
    have hcloses : Closes '\'' inside (inside ++ ['\'']) := by
      have hquote : ∀ c ∈ inside, c ≠ '\'' := by
        rintro c hc rfl
        exact absurd (hinside _ hc) (by decide)
      simpa using Closes.close.append hquote
    obtain ⟨gap, hcuts⟩ := hrest.cons hskip (.string hcloses) fun c hc => by
      have hquote : c ≠ '\'' := by simpa using (Bool.or_eq_false_iff.1 (hstop c hc).2).2
      simpa using hquote
    exact ⟨[_], hcuts, rfl⟩

/-! ## The text behind a token -/

namespace Clear

variable (hclear : Clear placeholder literal (l :: ls)) (hrest : Cuts rest ls) (hmarks : MarksApart rest)

include hclear hrest hmarks

/-- No run goes from a token into the text behind it. -/
theorem separate : (∀ c ∈ l.text.getLast?, isWord c = false) ∨ ∀ c ∈ rest.head?, isWord c = false := by
  cases rest with
  | nil => exact .inr nofun
  | cons d rest =>
    cases hd : isWord d with
    | false =>
      right
      intro c hc
      obtain rfl : d = c := Option.some.inj hc
      exact hd
    | true =>
      obtain ⟨m, ls, behind, more, rfl, hgap, hhead, -⟩ :=
        hrest.exists_first (skipBlanks_word hd (hmarks d List.mem_cons_self) rest)
      obtain ⟨hrun, -⟩ := (List.isChain_cons_cons.1 hclear.apart).1 hgap
      left
      intro c hc
      rw [← Bool.not_eq_true]
      exact fun hword => hrun ⟨by rw [Option.mem_def.1 hc, Option.any_some, hword], by rw [hhead, Option.any_some, hd]⟩

end Clear

/-- A part of a text that no run leaves has the run at the front of the text. -/
theorem takeWhile_of_separate (hne : text ≠ [])
    (h : (∀ c ∈ text.getLast?, isWord c = false) ∨ ∀ c ∈ rest.head?, isWord c = false) :
    (text ++ rest).takeWhile isWord = text.takeWhile isWord := by
  by_cases hwords : ∀ c ∈ text, isWord c = true
  · have hlast := List.getLast_mem hne
    rcases h with h | h
    · have hnot := h _ (List.getLast?_eq_getLast_of_ne_nil hne)
      rw [hwords _ hlast] at hnot
      cases hnot
    · rw [(takeWhile_of_stop hwords h).1, List.takeWhile_eq_self_iff.2 hwords]
  · obtain ⟨c, hc, hword⟩ := by simpa using hwords
    rw [List.takeWhile_append, if_neg]
    intro hlength
    have hself := (List.takeWhile_prefix (p := isWord) (l := text)).eq_of_length hlength
    rw [List.takeWhile_eq_self_iff.1 hself c hc] at hword
    cases hword

/-- A text with the placeholder as the run at its front begins with a word. -/
theorem exists_word_of_takeWhile (hne : placeholder ≠ []) (hrun : cs.takeWhile isWord = placeholder) :
    ∃ d rest, cs = d :: rest ∧ isWord d = true := by
  cases cs with
  | nil => exact absurd hrun.symm hne
  | cons d cs =>
    refine ⟨d, cs, rfl, ?_⟩
    by_contra hd
    rw [List.takeWhile_cons_of_neg hd] at hrun
    exact hne hrun.symm

/-- A text with the placeholder as the run at its front has it as its first token. -/
theorem Clear.first (hne : placeholder ≠ []) (hclear : Clear placeholder literal ls) (h : Cuts (d :: cs) ls)
    (hmarks : MarksApart (d :: cs)) (hd : isWord d = true) (hrun : (d :: cs).takeWhile isWord = placeholder) :
    ∃ m ls', ls = m :: ls' ∧ m.gap = [] ∧ m.text.head? = some d ∧ m.token = (.word, placeholder) := by
  obtain ⟨m, ls', behind, more, rfl, hgap, hhead, htext, hform, hbehind⟩ :=
    h.exists_first (skipBlanks_word hd (hmarks d List.mem_cons_self) cs)
  refine ⟨m, ls', rfl, hgap, hhead, ?_⟩
  rw [htext] at hrun hmarks
  rw [takeWhile_of_separate hform.ne_nil (hclear.separate hbehind hmarks.right)] at hrun
  by_contra htoken
  refine hclear.whole m List.mem_cons_self htoken ?_
  have hmem : m.text.takeWhile isWord ∈ m.text.splitBy sameClass :=
    takeWhile_mem_splitBy fun hnil => hne (hrun.symm.trans hnil)
  rwa [hrun] at hmem

section Neighbours

variable (hne : placeholder ≠ []) (hliteral : Literal literal value) (hclear : Clear placeholder literal (l :: ls))
  (hrest : Cuts rest ls) (hmarks : MarksApart rest) (hform : Form l.kind l.text more)

include hne hliteral hclear hrest hmarks hform

/-- A token begins no comment with what comes to stand behind it. -/
theorem Clear.begins_no_comment (hstart : Sql.skipBlanks cs = l.text ++ rest) {behind : List Char}
    (hbehind : l.text ++ rest = '-' :: behind) :
    (substituteFrom placeholder literal [] behind).head? ≠ some '-' := by
  have hhead : l.text.head? = some '-' := by
    rw [← List.head?_append_of_ne_nil l.text hform.ne_nil, hbehind]
    rfl
  intro hdash
  rcases hform.dash hhead with htext | htext
  · rw [htext] at hbehind
    obtain rfl : rest = behind := (List.cons.inj hbehind).2
    rw [head?_substituteFrom hne hliteral.ne_nil] at hdash
    split at hdash
    · rename_i hrun
      obtain ⟨d, rest, rfl, hd⟩ := exists_word_of_takeWhile hne hrun
      obtain ⟨m, ls', rfl, hgap, -, htoken⟩ := hclear.tail.first hne hrest hmarks hd hrun
      obtain ⟨-, hfront, -⟩ := (List.isChain_cons_cons.1 hclear.apart).1 hgap
      have hjoins : joinsFront l.text literal = true := by simp [joinsFront, htext, hdash]
      rw [hfront htoken] at hjoins
      cases hjoins
    · exact head?_of_skipGap (hstart.trans (by rw [htext]; rfl)) hdash
  · rw [htext] at hbehind
    obtain rfl : '>' :: rest = behind := (List.cons.inj hbehind).2
    rw [substituteFrom_cons hne (by decide)] at hdash
    cases hdash

variable (hstop : ∀ c ∈ rest.head?, more c = false)

include hstop

/-- A token still ends where it ended. -/
theorem Clear.stops : ∀ c ∈ (substituteFrom placeholder literal [] rest).head?, more c = false := by
  intro c hc
  rw [head?_substituteFrom hne hliteral.ne_nil] at hc
  split at hc
  · rename_i hrun
    obtain ⟨d, rest, rfl, hd⟩ := exists_word_of_takeWhile hne hrun
    obtain ⟨m, ls', rfl, hgap, hhead, htoken⟩ := hclear.tail.first hne hrest hmarks hd hrun
    obtain ⟨hshare, hfront, -⟩ := (List.isChain_cons_cons.1 hclear.apart).1 hgap
    have hlast : ¬ l.text.getLast?.any isWord = true := fun hlast => hshare ⟨hlast, by rw [hhead, Option.any_some, hd]⟩
    exact stops_before_literal hform hd (hstop d rfl) hlast (hfront htoken) hliteral hc
  · exact hstop c hc

/-- A token that is the placeholder ends before what does not go on with the literal. -/
theorem Clear.stops_literal (hl : l.token = (.word, placeholder)) :
    ∀ c ∈ (substituteFrom placeholder literal [] rest).head?, isNameChar c = false ∧ goesOn literal c = false := by
  have hname : ∀ c ∈ rest.head?, isNameChar c = false := by
    obtain ⟨hkind, -⟩ := Prod.mk.inj hl
    rw [hkind] at hform
    exact fun c hc => hform.isNameChar_eq_false (hstop c hc)
  intro c hc
  rw [head?_substituteFrom hne hliteral.ne_nil] at hc
  split at hc
  · rename_i hrun
    obtain ⟨d, rest, rfl, hd⟩ := exists_word_of_takeWhile hne hrun
    have hnot := hname d rfl
    rw [isNameChar_of_isWord hd] at hnot
    cases hnot
  · refine ⟨hname c hc, ?_⟩
    rw [← Bool.not_eq_true]
    intro hgoes
    obtain ⟨behind, rfl⟩ := List.head?_eq_some_iff.1 hc
    have hskip : Sql.skipBlanks (c :: behind) = c :: behind := by
      simp only [goesOn, Bool.or_eq_true, Bool.and_eq_true, beq_iff_eq] at hgoes
      obtain ⟨rfl, -⟩ | ⟨rfl, -⟩ := hgoes
      · exact skipBlanks_cons (by decide) nofun nofun
      · exact skipBlanks_cons (by decide) nofun nofun
    obtain ⟨m, ls', -, -, rfl, hgap, hhead, -⟩ := hrest.exists_first hskip
    obtain ⟨-, -, hback⟩ := (List.isChain_cons_cons.1 hclear.apart).1 hgap
    have hnot := hback hl
    rw [joinsBack, hhead, Option.any_some, hgoes] at hnot
    cases hnot

end Neighbours

/-! ## Substitution, token by token -/

/-- **Substitution, token by token.** The induction is on the tokens, and every text that is left falls into the tokens
that are left. -/
theorem substitute_cuts (hwords : ∀ c ∈ placeholder, isWord c = true) (hne : placeholder ≠ [])
    (hliteral : Literal literal value) (h : Cuts cs ls) (hclear : Clear placeholder literal ls)
    (hmarks : MarksApart cs) :
    ∃ ls', Cuts (substituteFrom placeholder literal [] cs) ls' ∧
      ls'.map Lexeme.token = ls.flatMap fun l => if l.token = (.word, placeholder) then value else [l.token] := by
  have hnone : substituteFrom placeholder literal [] [] = [] := substituteFrom_gap hne nofun
  have hskip : ∀ {cs start : List Char}, MarksApart cs → Sql.skipBlanks cs = start →
      (∀ more, start = '-' :: more → (substituteFrom placeholder literal [] more).head? ≠ some '-') →
      Sql.skipBlanks (substituteFrom placeholder literal [] cs) = substituteFrom placeholder literal [] start := by
    rintro cs _ hmarks rfl hdash
    exact skipGap_substituteFrom hne hliteral.ne_nil hliteral.isLiteralChar hliteral.skipBlanks .blank cs hmarks hdash
      nofun fun _ => rfl
  induction h with
  | done hdone => exact ⟨[], .done (by rw [hskip hmarks hdone nofun, hnone]), rfl⟩
  | @token kind gap text rest more ls hstart hform hstop htail ih =>
    have hmarks' := hmarks.right.right
    obtain ⟨ls', hcuts, htokens⟩ := ih hclear.tail hmarks'
    have hsplit : substituteFrom placeholder literal [] (text ++ rest) =
        substituteFrom placeholder literal [] text ++ substituteFrom placeholder literal [] rest :=
      substituteFrom_append hne (hclear.separate htail hmarks')
    have hstops := hclear.stops hne hliteral htail hmarks' hform hstop
    have hgap := hskip hmarks hstart fun _ =>
      hclear.begins_no_comment hne hliteral htail hmarks' hform hstart
    rw [hsplit] at hgap
    by_cases hl : (Lexeme.mk kind gap text).token = (.word, placeholder)
    -- the literal stands in the place of the token, and is read as its own tokens
    · obtain ⟨rfl, rfl⟩ := Prod.mk.inj hl
      rw [substituteFrom_run hwords, replacePiece, if_pos rfl] at hgap
      obtain ⟨ms, hcuts, hvalue⟩ := hliteral.cuts hgap
        (hclear.stops_literal hne hliteral htail hmarks' hform hstop rfl) hcuts
      refine ⟨ms ++ ls', hcuts, ?_⟩
      rw [List.map_append, hvalue, htokens, List.flatMap_cons, if_pos hl]
    -- the token has no run that is replaced, and still ends where it ended
    · rw [substituteFrom_unchanged hwords hne (isCut_iff.2 rfl) (hclear.whole _ List.mem_cons_self hl)] at hgap
      obtain ⟨gap', hcuts⟩ := hcuts.cons hgap hform hstops
      refine ⟨_, hcuts, ?_⟩
      rw [List.map_cons, htokens, List.flatMap_cons, if_neg hl]
      rfl

/-! ## Whole texts -/

/-- Substitution puts in the characters of the literal, and no others. -/
theorem forall_mem_substituteFrom {p : Char → Prop} {run : List Char} (hliteral : ∀ c ∈ literal, p c)
    (hrun : ∀ c ∈ run, p c) (hcs : ∀ c ∈ cs, p c) : ∀ c ∈ substituteFrom placeholder literal run cs, p c := by
  have hreplaced : ∀ {run : List Char}, (∀ c ∈ run, p c) → ∀ c ∈ replaceRun placeholder literal run, p c := by
    intro run hrun
    unfold replaceRun
    split
    · exact hliteral
    · exact fun c hc => hrun c (List.mem_reverse.1 hc)
  induction cs generalizing run with
  | nil => exact hreplaced hrun
  | cons c cs ih =>
    obtain ⟨hc, hcs⟩ := List.forall_mem_cons.1 hcs
    rw [substituteFrom]
    split
    · exact ih (List.forall_mem_cons.2 ⟨hc, hrun⟩) hcs
    · exact List.forall_mem_append.2 ⟨hreplaced hrun, List.forall_mem_cons.2 ⟨hc, ih (List.forall_mem_nil _) hcs⟩⟩

theorem nulFree_literal (hliteral : Literal literal value) : ∀ c ∈ literal, (c.toNat != 0) = true := by
  intro c hc
  rw [bne_iff_ne]
  intro hzero
  have hchar := hliteral.isLiteralChar c hc
  rw [← Char.ofNat_toNat c, hzero] at hchar
  exact absurd hchar (by decide)

/-- A NUL still ends the text, and what is before it is substituted. -/
theorem takeWhile_substituteFrom (hne : placeholder ≠ []) (hliteral : Literal literal value) (cs : List Char) :
    (substituteFrom placeholder literal [] cs).takeWhile (·.toNat != 0) =
      substituteFrom placeholder literal [] (cs.takeWhile (·.toNat != 0)) := by
  obtain ⟨front, back, rfl, hfront, hback, htake, -⟩ := exists_run (·.toNat != 0) cs
  have hnul : ∀ c ∈ back.head?, isWord c = false := by
    intro c hc
    have hzero : c.toNat = 0 := by simpa using hback c hc
    rw [← Char.ofNat_toNat c, hzero]
    decide
  have hstop : ∀ c ∈ (substituteFrom placeholder literal [] back).head?, (c.toNat != 0) = false := by
    cases back with
    | nil => rw [substituteFrom_gap hne (List.forall_mem_nil _)]; exact nofun
    | cons d back => rw [substituteFrom_cons hne (hnul d rfl)]; exact hback
  rw [htake, substituteFrom_append hne (.inr hnul),
    (takeWhile_of_stop (forall_mem_substituteFrom (nulFree_literal hliteral) (List.forall_mem_nil _) hfront) hstop).1]

/-- A literal has its own tokens. -/
theorem tokens_literal {a : Argument} (hliteral : Literal a.literal.toList value) : tokens a.literal = value := by
  have hreadable : readable a.literal = a.literal.toList := List.takeWhile_eq_self_iff.2 (nulFree_literal hliteral)
  have hskip := hliteral.skipBlanks []
  rw [List.append_nil] at hskip
  obtain ⟨ms, hcuts, hvalue⟩ := hliteral.cuts (hskip.trans (List.append_nil _).symm) nofun (.done rfl)
  rw [List.append_nil] at hcuts
  rw [tokens, lexemes_of_cuts (hreadable ▸ hcuts), hvalue]

theorem word_of_takeWord? {mark : Char} {word : String} (h : takeWord? mark cs = some (word, rest)) :
    word.toList ≠ [] ∧ ∀ c ∈ word.toList, isWord c = true := by
  unfold takeWord? at h
  dsimp only at h
  split at h
  · split at h
    · rename_i hmark
      cases h
      rw [String.toList_ofList]
      exact ⟨by simpa using hmark.2, fun _ => List.mem_takeWhile_imp⟩
    · cases h
  · cases h

/-- The placeholder of a rule is a word. -/
theorem placeholder_of_parse {rule : String} {r : ArgumentRule} (h : ArgumentRule.parse rule = .ok r) :
    r.placeholder.toList ≠ [] ∧ ∀ c ∈ r.placeholder.toList, isWord c = true := by
  unfold ArgumentRule.parse at h
  dsimp only at h
  split at h
  · cases h
  · rename_i placeholder type raw hparts
    obtain ⟨⟨word, behind⟩, hword, hparts⟩ := Option.bind_eq_some_iff.1 hparts
    obtain ⟨⟨type', behind'⟩, -, hparts⟩ := Option.bind_eq_some_iff.1 hparts
    obtain ⟨default, -, hparts⟩ := Option.bind_eq_some_iff.1 hparts
    split at h
    · cases h
      cases hparts
      exact word_of_takeWord? hword
    · cases h

end Field

/-! ## Templates -/

namespace Schema

open GuardedConfig.Field

/-- The tokens of an instantiated body are those of the body, with the tokens of the literal in the place of each word
that is the placeholder. -/
def Template.KeepsTokens (t : Template) (a : Argument) : Prop :=
  tokens (t.instantiate a) = (tokens t.body).flatMap fun token =>
    if token = (.word, t.rule.placeholder.toList) then tokens a.literal else [token]

instance (t : Template) (a : Argument) : Decidable (t.KeepsTokens a) := inferInstanceAs (Decidable (_ = _))

/-- **Instantiation, token by token.** The body of a template falls into tokens, and in these the literal of an argument
can be put for the placeholder. Then the instantiated body has the tokens of the body, with those of the literal in the
place of each word that is the placeholder: no other token changes, none goes on into another one, and none becomes part
of a comment. The literal is a number, a minus and a number, or a text in quotes. -/
theorem instantiate_tokens (t : Template) {rule raw : String} {a : Argument}
    (hrule : ArgumentRule.parse rule = .ok t.rule) (hargument : coerce t.rule.type raw = .ok a)
    (hlegal : ∀ l ∈ lexemes t.body, l.kind ≠ .illegal)
    (hclear : Clear t.rule.placeholder.toList a.literal.toList (lexemes t.body)) (hmarks : MarksApart t.body.toList) :
    Literal a.literal.toList (tokens a.literal) ∧ t.KeepsTokens a := by
  obtain ⟨hne, hwords⟩ := placeholder_of_parse hrule
  obtain ⟨value, hliteral⟩ := literal_of_coerce hargument
  have hvalue := tokens_literal hliteral
  have hreadable : readable (t.instantiate a) =
      substituteFrom t.rule.placeholder.toList a.literal.toList [] (readable t.body) := by
    unfold readable Template.instantiate substitute
    rw [String.toList_ofList, takeWhile_substituteFrom hne hliteral]
  have hmarks' : MarksApart (readable t.body) := fun c hc => hmarks c ((List.takeWhile_prefix _).subset hc)
  obtain ⟨ls', hcuts, htokens⟩ := substitute_cuts hwords hne hliteral (cuts_lexemes hlegal) hclear hmarks'
  refine ⟨hvalue ▸ hliteral, ?_⟩
  rw [Template.KeepsTokens, hvalue, tokens, tokens, lexemes_of_cuts (hreadable ▸ hcuts), htokens, List.flatMap_map]

/-- The rule of templates with numbers for `size`. -/
def sizeRule : ArgumentRule := ⟨"size", "INTEGER", ⟨"5", "5"⟩⟩

/-- A template with its placeholder behind signs and in comments, and with words that have it in them. -/
def bounds : Template :=
  ⟨"Bounds", "low INTEGER DEFAULT size CHECK (low<size) /* size */, note TEXT DEFAULT 'sizes', high REAL -- size",
    sizeRule⟩

/-- A negative number is put in, and no minus stands right before it. -/
theorem instantiate_tokens_bounds : ArgumentRule.parse "size:INTEGER=5" = .ok bounds.rule ∧
    coerce bounds.rule.type "-3" = .ok ⟨"-3", "m3"⟩ ∧ (∀ l ∈ lexemes bounds.body, l.kind ≠ .illegal) ∧
    Clear bounds.rule.placeholder.toList "-3".toList (lexemes bounds.body) ∧ MarksApart bounds.body.toList ∧
    tokens "-3" = [(.sign, ['-']), (.number (.integer 3), ['3'])] ∧ bounds.KeepsTokens ⟨"-3", "m3"⟩ := by
  have hrule : ArgumentRule.parse "size:INTEGER=5" = .ok bounds.rule := by decide +kernel
  have hargument : coerce bounds.rule.type "-3" = .ok ⟨"-3", "m3"⟩ := by decide +kernel
  have hlegal : ∀ l ∈ lexemes bounds.body, l.kind ≠ .illegal := by decide +kernel
  have hclear : Clear bounds.rule.placeholder.toList "-3".toList (lexemes bounds.body) := by decide +kernel
  have hmarks : MarksApart bounds.body.toList := by decide +kernel
  obtain ⟨-, hkeeps⟩ := instantiate_tokens bounds hrule hargument hlegal hclear hmarks
  exact ⟨hrule, hargument, hlegal, hclear, hmarks, by decide +kernel, hkeeps⟩

/-- The rule of templates with texts for `note`. -/
def noteRule : ArgumentRule := ⟨"note", "TEXT", ⟨"'a'", "a"⟩⟩

/-- A template whose body has legal tokens, and an argument for it, with which they change in another way. -/
def Unhygienic (rule body raw : String) : Prop :=
  ∃ r a, ArgumentRule.parse rule = .ok r ∧ coerce r.type raw = .ok a ∧ (∀ l ∈ lexemes body, l.kind ≠ .illegal) ∧
    ¬ Template.KeepsTokens ⟨"Template", body, r⟩ a

/-- The placeholder is a word of a text or of a quoted name, or it stands beside a token that goes on into the literal or
shares a run of word characters with it. -/
theorem unhygienic_bodies :
    Unhygienic "size:INTEGER=5" "label TEXT DEFAULT 'size'" "3" ∧
    Unhygienic "size:INTEGER=5" "\"size\" TEXT" "3" ∧
    Unhygienic "size:INTEGER=5" "low INTEGER DEFAULT (7-size)" "-3" ∧
    Unhygienic "size:INTEGER=5" "low INTEGER CHECK (low.size)" "3" ∧
    Unhygienic "size:INTEGER=5" "low INTEGER CHECK (size.5)" "3" ∧
    Unhygienic "size:INTEGER=5" "low INTEGER CHECK (?size)" "3" ∧
    Unhygienic "size:INTEGER=5" "low INTEGER CHECK (?1size)" "3" ∧
    Unhygienic "note:TEXT=a" "low TEXT CHECK ('x'note)" "b" ∧
    Unhygienic "note:TEXT=a" "low TEXT CHECK (note'x')" "b" := by
  refine ⟨⟨sizeRule, ⟨"3", "3"⟩, ?_⟩, ⟨sizeRule, ⟨"3", "3"⟩, ?_⟩, ⟨sizeRule, ⟨"-3", "m3"⟩, ?_⟩, ⟨sizeRule, ⟨"3", "3"⟩, ?_⟩,
    ⟨sizeRule, ⟨"3", "3"⟩, ?_⟩, ⟨sizeRule, ⟨"3", "3"⟩, ?_⟩, ⟨sizeRule, ⟨"3", "3"⟩, ?_⟩, ⟨noteRule, ⟨"'b'", "b"⟩, ?_⟩,
    ⟨noteRule, ⟨"'b'", "b"⟩, ?_⟩⟩ <;> decide +kernel

end Schema

end GuardedConfig
