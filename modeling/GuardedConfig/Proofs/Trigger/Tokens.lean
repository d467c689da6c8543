import GuardedConfig.Proofs.Pieces
import GuardedConfig.Trigger.Lexeme
import Mathlib.Data.List.Chain
import Mathlib.Data.List.TakeWhile

/-!
# `Proofs.Trigger.Tokens` — the text of a trigger and its tokens

Tokens may be written with anything between them that separates tokens: blanks, line breaks, comments that a line break
ends. They are read back from such a text if no token is continued by what follows it. Where two words or numbers meet,
something has to stand between them. Otherwise nothing is needed, apart from signs that are the beginning of a longer
sign, and the point of a member, which a digit would make that of a number; no program has such tokens side by side.

## Contents

* `Lexeme.chars`, `Lexeme.Valid`, `AllValid` — tokens as they are written
* `Lexeme.Joins`, `Apart` — tokens that may stand side by side
* `Gap`, `Laid` — texts of tokens
* `Lexeme.Stands` — what may follow a token: `nextLexeme_chars`
* `lexemesOf_of_laid` — by induction on the tokens
* `valid_of_lexemesOf` — the tokens of any text
-/

namespace GuardedConfig.Trigger

open Text Decimal

/-! ## Tokens as they are written -/

/-- The characters of a string between its quotes. -/
def escaped (cs : List Char) : List Char := cs.flatMap fun c => if c = '"' ∨ c = '\\' then ['\\', c] else [c]

/-- The characters of a token. -/
def Lexeme.chars : Lexeme → List Char
  | word text | number text => text.toList
  | string text => '"' :: (escaped text.toList ++ ['"'])
  | sign s => [s.char]
  | comparison c => c.sign.toList

/-- The characters of a word. -/
def IsWord (cs : List Char) : Prop :=
  ∃ first rest, cs = first :: rest ∧ isWordStart first = true ∧ ∀ c ∈ rest, isWordChar c = true

instance : DecidablePred IsWord
  | [] => isFalse nofun
  | first :: rest => decidable_of_iff (isWordStart first = true ∧ rest.all isWordChar = true)
      ⟨fun h => ⟨first, rest, rfl, h.1, List.all_eq_true.1 h.2⟩,
        fun ⟨_, _, he, h⟩ => by cases he; exact ⟨h.1, List.all_eq_true.2 h.2⟩⟩

/-- The characters of a number without a sign: digits, and a point with more digits if there is a fraction. -/
inductive IsUnsigned : List Char → Prop
  | whole {ds : List Char} : ds ≠ [] → (∀ c ∈ ds, isAsciiDigit c = true) → IsUnsigned ds
  | fraction {ds fs : List Char} : ds ≠ [] → (∀ c ∈ ds, isAsciiDigit c = true) → fs ≠ [] →
      (∀ c ∈ fs, isAsciiDigit c = true) → IsUnsigned (ds ++ '.' :: fs)

/-- The characters of a number. -/
def IsNumber (cs : List Char) : Prop := IsUnsigned cs ∨ ∃ ds, cs = '-' :: ds ∧ IsUnsigned ds

/-- A token that can be written. -/
def Lexeme.Valid : Lexeme → Prop
  | word text => IsWord text.toList
  | number text => IsNumber text.toList
  | _ => True

@[simp] theorem Lexeme.valid_string (text : String) : (string text).Valid := trivial

@[simp] theorem Lexeme.valid_sign (s : Sign) : (sign s).Valid := trivial

@[simp] theorem Lexeme.valid_comparison (c : Comparison) : (comparison c).Valid := trivial

/-- Tokens that can all be written. -/
def AllValid (ls : List Lexeme) : Prop := ∀ l ∈ ls, l.Valid

@[simp] theorem allValid_nil : AllValid [] := nofun

@[simp] theorem allValid_cons {l : Lexeme} {ls : List Lexeme} : AllValid (l :: ls) ↔ l.Valid ∧ AllValid ls :=
  List.forall_mem_cons

@[simp] theorem allValid_append {ls ms : List Lexeme} : AllValid (ls ++ ms) ↔ AllValid ls ∧ AllValid ms :=
  List.forall_mem_append

@[simp] theorem allValid_flatten {lss : List (List Lexeme)} : AllValid lss.flatten ↔ ∀ ls ∈ lss, AllValid ls := by
  induction lss with
  | nil => simp
  | cons ls lss ih => rw [List.flatten_cons, allValid_append, ih, List.forall_mem_cons]

/-- Whether a token is a word or a number. -/
def Lexeme.isRun : Lexeme → Bool
  | word _ | number _ => true
  | _ => false

/-- Two tokens that are no longer two if nothing stands between them, other than words and numbers: a point and a number
could be the end of a number, and these signs and `=` are a comparison. -/
inductive Lexeme.Joins : Lexeme → Lexeme → Prop
  | point (text : String) : Joins (.sign .dot) (.number text)
  | equal {l m : Lexeme} : l ∈ [.sign .assign, .sign .bang, .comparison .lt, .comparison .gt] →
      m ∈ [.sign .assign, .comparison .eq] → Joins l m

/-- No two tokens side by side join. -/
def Apart (ls : List Lexeme) : Prop := ls.IsChain fun l m => ¬ l.Joins m

/-! ## Texts of tokens -/

/-- What may stand between tokens. -/
inductive Gap : List Char → Prop
  | nil : Gap []
  | blank {c : Char} {cs : List Char} : isGap c = true → Gap cs → Gap (c :: cs)
  | comment {text cs : List Char} : '\n' ∉ text → Gap cs → Gap ('#' :: (text ++ '\n' :: cs))

/-- A text of tokens, with any gaps between them, and one where two words or numbers meet. `run` tells whether a word or
a number stands before the text. -/
inductive Laid : Bool → List Lexeme → List Char → Prop
  | nil {run : Bool} {gap : List Char} : Gap gap → Laid run [] gap
  | cons {run : Bool} {l : Lexeme} {ls : List Lexeme} {gap cs : List Char} : l.Valid → Gap gap →
      (run = true → l.isRun = true → gap ≠ []) → Laid l.isRun ls cs → Laid run (l :: ls) (gap ++ (l.chars ++ cs))

/-! ## Characters -/

theorem isWordChar_of_isWordStart {c : Char} (h : isWordStart c = true) : isWordChar c = true := by
  unfold isWordStart at h
  unfold isWordChar
  rw [Bool.or_eq_true] at h
  rcases h with h | h <;> simp [h]

theorem isWordChar_of_isAsciiDigit {c : Char} (h : isAsciiDigit c = true) : isWordChar c = true := by
  simp [isWordChar, h]

theorem isAsciiDigit_of_isWordChar_eq_false {c : Char} (h : isWordChar c = false) : isAsciiDigit c = false := by
  rw [← Bool.not_eq_true]
  intro hdigit
  rw [isWordChar_of_isAsciiDigit hdigit] at h
  cases h

/-- No word begins with a digit. -/
theorem isAsciiDigit_of_isWordStart {c : Char} (h : isWordStart c = true) : isAsciiDigit c = false := by
  simp only [isWordStart, isAsciiLetter, Bool.or_eq_true, Bool.and_eq_true, decide_eq_true_eq, beq_iff_eq,
    Char.le_def, UInt32.le_iff_toNat_le] at h
  simp only [isAsciiDigit, Bool.and_eq_false_iff, decide_eq_false_iff_not, Char.le_def, UInt32.le_iff_toNat_le]
  rcases h with (h | h) | rfl
  · have := h.1
    simp at *
    omega
  · have := h.1
    simp at *
    omega
  · decide

/-- A character that may begin a gap is none of a word, and no sign. -/
theorem of_isGap_or_comment {c : Char} (h : isGap c = true ∨ c = '#') :
    isWordChar c = false ∧ c ≠ '=' ∧ c ≠ '.' := by
  simp only [isGap, Bool.or_eq_true, beq_iff_eq] at h
  rcases h with (((rfl | rfl) | rfl) | rfl) | rfl <;> decide

/-! ## Gaps -/

theorem skipBlanks_of_isGap {c : Char} (h : isGap c = true) (cs : List Char) :
    skipBlanks (c :: cs) = skipBlanks cs := by
  rw [skipBlanks, if_pos h]

theorem skipBlanks_gap {gap : List Char} (h : Gap gap) (cs : List Char) : skipBlanks (gap ++ cs) = skipBlanks cs := by
  induction h with
  | nil => rfl
  | blank hc _ ih => rw [List.cons_append, skipBlanks_of_isGap hc, ih]
  | @comment text gap htext _ ih =>
    have hdrop : (text ++ '\n' :: (gap ++ cs)).dropWhile (· != '\n') = '\n' :: (gap ++ cs) :=
      (takeWhile_of_stop (fun c hc => bne_iff_ne.2 (ne_of_mem_of_not_mem hc htext)) (by simp)).2
    rw [List.cons_append, List.append_assoc, List.cons_append, skipBlanks, if_neg (by decide), if_pos rfl, hdrop,
      skipBlanks_of_isGap (by decide), ih]

/-! ## What tokens begin with -/

/-- The characters that a token may begin with. -/
def Lexeme.Begins (c : Char) : Lexeme → Prop
  | word _ => isWordStart c = true
  | number _ => isAsciiDigit c = true ∨ c = '-'
  | string _ => c = '"'
  | sign s => c = s.char
  | comparison k => k.sign.toList.head? = some c

theorem IsUnsigned.begins {cs : List Char} (h : IsUnsigned cs) : ∃ c rest, cs = c :: rest ∧ isAsciiDigit c = true := by
  cases h with
  | whole hne hds =>
    obtain ⟨c, rest, rfl⟩ := List.exists_cons_of_ne_nil hne
    exact ⟨c, rest, rfl, hds c (List.mem_cons_self ..)⟩
  | fraction hne hds =>
    obtain ⟨c, rest, rfl⟩ := List.exists_cons_of_ne_nil hne
    exact ⟨c, _, rfl, hds c (List.mem_cons_self ..)⟩

theorem Lexeme.Valid.begins {l : Lexeme} (h : l.Valid) : ∃ c rest, l.chars = c :: rest ∧ l.Begins c := by
  cases l with
  | word text =>
    obtain ⟨first, rest, htext, hfirst, -⟩ := h
    exact ⟨first, rest, htext, hfirst⟩
  | number text =>
    rcases h with h | ⟨ds, hds, -⟩
    · obtain ⟨c, rest, htext, hc⟩ := h.begins
      exact ⟨c, rest, htext, .inl hc⟩
    · exact ⟨'-', ds, hds, .inr rfl⟩
  | string text => exact ⟨'"', _, rfl, rfl⟩
  | sign s => exact ⟨s.char, [], rfl, rfl⟩
  | comparison k => cases k <;> exact ⟨_, _, rfl, rfl⟩

theorem Lexeme.begins_of_chars {l : Lexeme} {c : Char} {cs rest : List Char} (h : l.Valid)
    (hchars : l.chars ++ rest = c :: cs) : l.Begins c := by
  obtain ⟨first, more, hl, hfirst⟩ := h.begins
  rw [hl] at hchars
  cases hchars
  exact hfirst

/-- No token begins as a gap does. -/
theorem Lexeme.Begins.isGap_eq_false {l : Lexeme} {c : Char} (h : l.Begins c) : isGap c = false ∧ c ≠ '#' := by
  suffices hnot : ¬ (isGap c = true ∨ c = '#') by
    rw [not_or, Bool.not_eq_true] at hnot
    exact hnot
  intro hc
  have hword := (of_isGap_or_comment hc).1
  simp only [isGap, Bool.or_eq_true, beq_iff_eq] at hc
  cases l with
  | word text =>
    rw [isWordChar_of_isWordStart h] at hword
    cases hword
  | number text =>
    rcases h with h | rfl
    · rw [isAsciiDigit_of_isWordChar_eq_false hword] at h
      cases h
    · simp at hc
  | string text => cases h; exact absurd hc (by decide)
  | sign s => cases h; cases s <;> exact absurd hc (by decide)
  | comparison k => cases k <;> cases h <;> exact absurd hc (by decide)

/-- A token that is neither a word nor a number begins with no character of a word. -/
theorem Lexeme.Begins.isWordChar_eq_false {l : Lexeme} {c : Char} (h : l.Begins c) (hrun : l.isRun = false) :
    isWordChar c = false := by
  cases l with
  | word text => cases hrun
  | number text => cases hrun
  | string text => cases h; decide
  | sign s => cases h; cases s <;> decide
  | comparison k => cases k <;> cases h <;> decide

/-! ## Where tokens end -/

/-- Whether a token ends where the text behind it begins. -/
def Lexeme.Stands (cs : List Char) : Lexeme → Prop
  | word _ => ∀ c ∈ cs.head?, isWordChar c = false
  | number _ => (∀ c ∈ cs.head?, isAsciiDigit c = false) ∧ ∀ d rest, cs = '.' :: d :: rest → isAsciiDigit d = false
  | sign .assign | sign .bang | comparison .lt | comparison .gt => ∀ c ∈ cs.head?, c ≠ '='
  | _ => True

theorem takeNumber_append {cs rest : List Char} (h : IsUnsigned cs) (hdigit : ∀ c ∈ rest.head?, isAsciiDigit c = false)
    (hpoint : ∀ d more, rest = '.' :: d :: more → isAsciiDigit d = false) : takeNumber (cs ++ rest) = cs := by
  cases h with
  | whole hne hds =>
    have hfraction : takeFraction rest = [] := by
      unfold takeFraction
      split
      · rename_i more
        have hnone : (takeDigits more).1 = [] := by
          cases more with
          | nil => rfl
          | cons d more => simp [takeDigits, hpoint d more rfl]
        rw [hnone]
        rfl
      · rfl
    rw [takeNumber, takeDigits_append hds hdigit, hfraction, List.append_nil]
  | @fraction ds fs hne hds hfs hdigits =>
    have hwhole : takeDigits (ds ++ '.' :: (fs ++ rest)) = (ds, '.' :: (fs ++ rest)) :=
      takeDigits_append hds (by simp; decide)
    have hfraction : takeFraction ('.' :: (fs ++ rest)) = '.' :: fs := by
      rw [takeFraction, takeDigits_append hdigits hdigit, List.isEmpty_eq_false_iff.2 hfs]
      rfl
    rw [List.append_assoc, List.cons_append, takeNumber, hwhole, hfraction]

theorem takeString_escaped (s rest : List Char) : takeString (escaped s ++ '"' :: rest) = some (s, rest) := by
  induction s with
  | nil => rfl
  | cons c s ih =>
    rw [escaped, List.flatMap_cons, ← escaped]
    split
    case isTrue h => rcases h with rfl | rfl <;> simp [takeString, ih, unescape]
    case isFalse h =>
      obtain ⟨hquote, hslash⟩ := not_or.1 h
      rw [List.singleton_append, List.cons_append, takeString]
      · rw [if_neg hslash, ih]
        rfl
      · exact hquote
      · exact fun _ _ he => absurd he hslash

theorem takeSymbol_sign {s : Sign} {cs : List Char} (h : Lexeme.Stands cs (.sign s)) :
    takeSymbol (s.char :: cs) = some (.sign s, cs) := by
  cases s
  case assign | bang =>
    cases cs with
    | nil => rfl
    | cons c cs => simp [takeSymbol, Sign.char, Sign.all, h c rfl]
  all_goals rfl

theorem takeSymbol_comparison {k : Comparison} {cs : List Char} (h : Lexeme.Stands cs (.comparison k)) :
    takeSymbol (k.sign.toList ++ cs) = some (.comparison k, cs) := by
  cases k
  case lt | gt =>
    cases cs with
    | nil => rfl
    | cons c cs => simp [takeSymbol, Comparison.sign, h c rfl]
  all_goals rfl

/-- Signs are looked at when there is neither a word nor a number nor a string. -/
theorem nextLexeme_symbol {c : Char} (h : c ∈ ['=', ';', ',', '.', '!', '(', ')', '[', ']', '\x7b', '\x7d', '<', '>'])
    (cs : List Char) : nextLexeme (c :: cs) = takeSymbol (c :: cs) := by
  have hall : ['=', ';', ',', '.', '!', '(', ')', '[', ']', '\x7b', '\x7d', '<', '>'].all
      (fun c => !isWordStart c && !isAsciiDigit c && c != '-' && c != '"') = true := by decide
  have hno : isWordStart c = false ∧ isAsciiDigit c = false ∧ c ≠ '-' ∧ c ≠ '"' := by
    simpa [and_assoc] using List.all_eq_true.1 hall c h
  rw [nextLexeme, hno.1, hno.2.1, if_neg Bool.false_ne_true, if_neg Bool.false_ne_true, if_neg hno.2.2.1,
    if_neg hno.2.2.2]

/-- A token is read if it ends where the text behind it begins. -/
theorem nextLexeme_chars {l : Lexeme} {cs : List Char} (hl : l.Valid) (h : l.Stands cs) :
    nextLexeme (l.chars ++ cs) = some (l, cs) := by
  cases l with
  | word text =>
    obtain ⟨first, rest, htext, hfirst, hrest⟩ := hl
    obtain ⟨htake, hdrop⟩ := takeWhile_of_stop hrest h
    rw [Lexeme.chars, htext, List.cons_append, nextLexeme, if_pos hfirst, htake, hdrop, ← htext, String.ofList_toList]
  | number text =>
    -- without and with a minus sign
    rcases hl with hl | ⟨ds, hds, hl⟩
    · have htake := takeNumber_append hl h.1 h.2
      obtain ⟨c, rest, htext, hc⟩ := hl.begins
      have hstart : isWordStart c = false := by
        rw [← Bool.not_eq_true]
        intro hstart
        rw [isAsciiDigit_of_isWordStart hstart] at hc
        cases hc
      rw [Lexeme.chars]
      rw [htext, List.cons_append] at htake ⊢
      rw [nextLexeme, hstart, if_neg Bool.false_ne_true, if_pos hc, htake, ← List.cons_append, List.drop_left, ← htext,
        String.ofList_toList]
    · have htake := takeNumber_append hl h.1 h.2
      obtain ⟨c, rest, rfl, hc⟩ := hl.begins
      have hne : (takeDigits (c :: rest ++ cs)).1.isEmpty = false := by simp [takeDigits, hc]
      rw [Lexeme.chars, hds, List.cons_append, nextLexeme, if_neg (by decide), if_neg (by decide), if_pos rfl, hne,
        if_neg Bool.false_ne_true, htake, List.drop_left, ← hds, String.ofList_toList]
  | string text =>
    rw [Lexeme.chars, List.cons_append, List.append_assoc, nextLexeme, if_neg (by decide), if_neg (by decide),
      if_neg (by decide), if_pos rfl, List.singleton_append, takeString_escaped]
    simp
  | sign s =>
    have hsymbol := takeSymbol_sign h
    rw [← hsymbol]
    exact nextLexeme_symbol (by cases s <;> decide) cs
  | comparison k =>
    have hsymbol := takeSymbol_comparison h
    rw [← hsymbol]
    cases k <;> exact nextLexeme_symbol (by decide) _

/-! ## Texts of tokens -/

variable {run : Bool} {l : Lexeme} {ls : List Lexeme} {c : Char} {cs : List Char}

/-- A text begins with a gap or with its first token, which is not a word or a number after one. -/
theorem Laid.begins (h : Laid run ls (c :: cs)) : (isGap c = true ∨ c = '#') ∨
    ∃ l ls' rest, ls = l :: ls' ∧ l.Valid ∧ (run = true → l.isRun = false) ∧ l.chars ++ rest = c :: cs ∧
      Laid l.isRun ls' rest := by
  have hfront {gap : List Char} (tail : List Char) (hgap : Gap gap) (hne : gap ≠ []) (he : gap ++ tail = c :: cs) :
      isGap c = true ∨ c = '#' := by
    cases hgap with
    | nil => exact absurd rfl hne
    | blank hc =>
      cases he
      exact .inl hc
    | comment =>
      cases he
      exact .inr rfl
  generalize htext : c :: cs = text at h
  cases h with
  | nil hgap => exact .inl (hfront [] hgap (by rintro rfl; cases htext) (by rw [List.append_nil, htext]))
  | @cons _ l ls gap rest hl hgap hrun hrest =>
    cases hgap with
    | nil =>
      refine .inr ⟨l, ls, rest, rfl, hl, fun hr => ?_, rfl, hrest⟩
      rw [← Bool.not_eq_true]
      exact fun hrun' => hrun hr hrun' rfl
    | blank hc hgap => exact .inl (hfront _ (.blank hc hgap) (List.cons_ne_nil _ _) htext.symm)
    | comment htail hgap => exact .inl (hfront _ (.comment htail hgap) (List.cons_ne_nil _ _) htext.symm)

/-- No character of a word stands behind a word or a number. -/
theorem Laid.isWordChar_eq_false (h : Laid true ls (c :: cs)) : isWordChar c = false := by
  rcases h.begins with hgap | ⟨l, _, _, -, hl, hrun, hchars, -⟩
  · exact (of_isGap_or_comment hgap).1
  · exact (Lexeme.begins_of_chars hl hchars).isWordChar_eq_false (hrun rfl)

/-- A digit stands behind a token only if a number does. -/
theorem Laid.isAsciiDigit_eq_false (h : Laid run ls (c :: cs)) (hls : ∀ text, ls.head? ≠ some (.number text)) :
    isAsciiDigit c = false := by
  rcases h.begins with hgap | ⟨l, ls', rest, rfl, hl, -, hchars, -⟩
  · exact isAsciiDigit_of_isWordChar_eq_false (of_isGap_or_comment hgap).1
  · have hbegins := Lexeme.begins_of_chars hl hchars
    cases l with
    | word text => exact isAsciiDigit_of_isWordStart hbegins
    | number text => exact absurd rfl (hls text)
    | string | sign | comparison => exact isAsciiDigit_of_isWordChar_eq_false (hbegins.isWordChar_eq_false rfl)

/-- The sign `=` stands behind a token only if it is a token or that of equality is. -/
theorem Laid.ne_equal (h : Laid run ls (c :: cs))
    (hls : ls.head? ≠ some (.sign .assign) ∧ ls.head? ≠ some (.comparison .eq)) : c ≠ '=' := by
  rcases h.begins with hgap | ⟨l, ls', rest, rfl, hl, -, hchars, -⟩
  · exact (of_isGap_or_comment hgap).2.1
  · rintro rfl
    have hbegins := Lexeme.begins_of_chars hl hchars
    cases l with
    | word text => exact absurd (show isWordStart '=' = true from hbegins) (by decide)
    | number text => exact absurd (show isAsciiDigit '=' = true ∨ '=' = '-' from hbegins) (by decide)
    | string text => cases hbegins
    | sign s => cases s <;> first | exact hls.1 rfl | cases hbegins
    | comparison k => cases k <;> first | exact hls.2 rfl | cases hbegins

/-- A token ends where the text of the tokens behind it begins. -/
theorem Laid.stands (h : Laid l.isRun ls cs) (hapart : Apart (l :: ls)) : l.Stands cs := by
  -- for the four signs that `=` would continue
  have hequal (hl : l ∈ [.sign .assign, .sign .bang, .comparison .lt, .comparison .gt]) : ∀ c ∈ cs.head?, c ≠ '=' := by
    intro c hc
    obtain ⟨cs, rfl⟩ := List.head?_eq_some_iff.1 hc
    refine h.ne_equal ⟨fun hm => ?_, fun hm => ?_⟩
    all_goals
      obtain ⟨ls, rfl⟩ := List.head?_eq_some_iff.1 hm
      exact (List.isChain_cons_cons.1 hapart).1 (.equal hl (by simp))
  cases l with
  | word text =>
    intro c hc
    obtain ⟨cs, rfl⟩ := List.head?_eq_some_iff.1 hc
    exact h.isWordChar_eq_false
  | number text =>
    constructor
    · intro c hc
      obtain ⟨cs, rfl⟩ := List.head?_eq_some_iff.1 hc
      exact isAsciiDigit_of_isWordChar_eq_false h.isWordChar_eq_false
    · rintro d rest rfl
      rcases h.begins with hgap | ⟨m, ls, tail, rfl, hm, hrun, hchars, htail⟩
      · exact absurd rfl (of_isGap_or_comment hgap).2.2
      · -- the point is that of a member, so no number stands behind it
        obtain rfl : m = .sign .dot := by
          have hbegins := Lexeme.begins_of_chars hm hchars
          cases m with
          | word | number => cases hrun rfl
          | string => cases hbegins
          | sign s => cases s <;> first | rfl | cases hbegins
          | comparison k => cases k <;> cases hbegins
        cases hchars
        refine htail.isAsciiDigit_eq_false fun number hnumber => ?_
        obtain ⟨ls, rfl⟩ := List.head?_eq_some_iff.1 hnumber
        exact (List.isChain_cons_cons.1 (List.isChain_cons_cons.1 hapart).2).1 (.point number)
  | string text => trivial
  | sign s => cases s <;> first | exact hequal (by simp) | trivial
  | comparison k => cases k <;> first | exact hequal (by simp) | trivial

theorem lexemesOf_of_skipBlanks {after : List Char} (hskip : skipBlanks cs = l.chars ++ after) (hl : l.Valid)
    (hnext : nextLexeme (l.chars ++ after) = some (l, after)) : lexemesOf cs = (lexemesOf after).map (l :: ·) := by
  obtain ⟨c, rest, hchars, -⟩ := hl.begins
  rw [hchars, List.cons_append] at hskip hnext
  rw [lexemesOf]
  split
  case h_1 hnil =>
    rw [hskip] at hnil
    cases hnil
  case h_2 c' rest' hcons =>
    rw [hskip] at hcons
    cases hcons
    split
    case h_1 l' after' hsome =>
      rw [hnext] at hsome
      cases hsome
      rfl
    case h_2 hnone =>
      rw [hnext] at hnone
      cases hnone

/-- **Tokens are read back from their text**, whatever separates them, if no two of them join. -/
theorem lexemesOf_of_laid (h : Laid run ls cs) (hapart : Apart ls) :
    lexemesOf cs = some ls := by
  induction h with
  | @nil run gap hgap =>
    have hskip := skipBlanks_gap hgap []
    rw [List.append_nil] at hskip
    rw [lexemesOf]
    split
    case h_1 => rfl
    case h_2 hcons =>
      rw [hskip, skipBlanks] at hcons
      cases hcons
  | @cons run l ls gap cs hl hgap _ hrest ih =>
    have hskip : skipBlanks (gap ++ (l.chars ++ cs)) = l.chars ++ cs := by
      obtain ⟨c, rest, hchars, hbegins⟩ := hl.begins
      obtain ⟨hblank, hcomment⟩ := hbegins.isGap_eq_false
      rw [skipBlanks_gap hgap, hchars, List.cons_append, skipBlanks, if_neg (by rw [hblank]; decide), if_neg hcomment]
    rw [lexemesOf_of_skipBlanks hskip hl (nextLexeme_chars hl (hrest.stands hapart)), ih hapart.tail]
    rfl

/-! ## The tokens of any text -/

theorem mem_takeDigits {d : Char} (h : d ∈ (takeDigits cs).1) : isAsciiDigit d = true := List.mem_takeWhile_imp h

theorem isUnsigned_takeNumber (h : (takeDigits cs).1 ≠ []) : IsUnsigned (takeNumber cs) := by
  unfold takeNumber takeFraction
  split
  · split
    case isTrue =>
      rw [List.append_nil]
      exact .whole h fun _ => mem_takeDigits
    case isFalse hne =>
      exact .fraction h (fun _ => mem_takeDigits) (fun he => hne (List.isEmpty_iff.2 he)) fun _ => mem_takeDigits
  · rw [List.append_nil]
    exact .whole h fun _ => mem_takeDigits

theorem valid_of_takeSymbol {after : List Char} (h : takeSymbol cs = some (l, after)) : l.Valid := by
  unfold takeSymbol at h
  split at h
  case h_7 =>
    obtain ⟨s, -, he⟩ := Option.map_eq_some_iff.1 h
    cases he
    trivial
  all_goals
    cases h
  all_goals trivial

theorem valid_of_nextLexeme {after : List Char} (h : nextLexeme cs = some (l, after)) : l.Valid := by
  unfold nextLexeme at h
  split at h
  · cases h
  rename_i c rest
  split at h
  case isTrue hstart =>
    cases h
    exact ⟨c, _, String.toList_ofList, hstart, fun d hd => List.mem_takeWhile_imp hd⟩
  split at h
  case isTrue hdigit =>
    cases h
    exact .inl (String.toList_ofList.symm ▸ isUnsigned_takeNumber (by simp [takeDigits, hdigit]))
  split at h
  case isTrue =>
    split at h
    case isTrue => cases h
    case isFalse hne =>
      cases h
      exact .inr ⟨_, String.toList_ofList, isUnsigned_takeNumber fun he => hne (List.isEmpty_iff.2 he)⟩
  split at h
  case isTrue =>
    obtain ⟨_, -, he⟩ := Option.map_eq_some_iff.1 h
    cases he
    trivial
  case isFalse => exact valid_of_takeSymbol h

/-- What is read is a list of tokens that can be written. -/
theorem valid_of_lexemesOf (h : lexemesOf cs = some ls) : AllValid ls := by
  fun_induction lexemesOf cs generalizing ls with
  | case1 =>
    cases h
    exact allValid_nil
  | case2 cs c rest _ l after hnext ih =>
    obtain ⟨ls', hls', rfl⟩ := Option.map_eq_some_iff.1 h
    exact allValid_cons.2 ⟨valid_of_nextLexeme hnext, ih hls'⟩
  | case3 => cases h

end GuardedConfig.Trigger
