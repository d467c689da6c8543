import GuardedConfig.Proofs.Lexing
import GuardedConfig.Proofs.Pieces

/-!
# `Proofs.TokenForms` — the forms of tokens

A token is read from the front of a text by its first characters, and goes on as far as it can. So each kind of token
has forms: the texts that it may have, each with the characters that would go on with it. A token is read where one of
its forms stands and the next character does not go on with it; no further character matters.

## Contents

* `Closes`, `takeQuoted_of_closes`, `exists_closes` — texts up to a closing quote
* `ExponentText`, `NumberText` — the texts of numbers
* `Form` — the forms of all tokens
* `nextLexeme_of_form`, `exists_form` — tokens are read by their forms
-/

namespace GuardedConfig

open Text Decimal

/-! ## Quoted texts -/

namespace Text

/-- What follows an opening quote, up to the quote that closes it. Inside, a quote that is meant stands twice. -/
inductive Closes (quote : Char) : List Char → List Char → Prop where
  | close : Closes quote [] [quote]
  | twice {inside cs : List Char} : Closes quote inside cs → Closes quote (quote :: inside) (quote :: quote :: cs)
  | char {c : Char} {inside cs : List Char} : c ≠ quote → Closes quote inside cs →
      Closes quote (c :: inside) (c :: cs)

namespace Closes

variable {quote : Char} {inside cs : List Char}

theorem append {front : List Char} (hfront : ∀ c ∈ front, c ≠ quote) (h : Closes quote inside cs) :
    Closes quote (front ++ inside) (front ++ cs) := by
  induction front with
  | nil => exact h
  | cons c front ih =>
    obtain ⟨hc, hfront⟩ := List.forall_mem_cons.1 hfront
    exact .char hc (ih hfront)

theorem getLast? (h : Closes quote inside cs) : cs.getLast? = some quote := by
  induction h with
  | close => rfl
  | twice _ ih => simp [List.getLast?_cons, ih]
  | char _ _ ih => simp [List.getLast?_cons, ih]

end Closes

end Text

namespace Sql

variable {quote c : Char} {inside cs rest : List Char}

theorem takeQuoted_of_closes (h : Closes quote inside cs) (hrest : rest.head? ≠ some quote) :
    takeQuoted quote (cs ++ rest) = some (inside, rest) := by
  induction h with
  | close => exact takeQuoted_closed hrest
  | twice _ ih => rw [List.cons_append, List.cons_append, takeQuoted_doubled, ih]; rfl
  | char hc _ ih => rw [List.cons_append, takeQuoted_of_ne hc, ih]; rfl

theorem exists_closes (h : takeQuoted quote cs = some (inside, rest)) :
    ∃ text, cs = text ++ rest ∧ Closes quote inside text ∧ rest.head? ≠ some quote := by
  fun_induction takeQuoted quote cs generalizing inside with
  | case1 => cases h
  | case2 more ih =>
    obtain ⟨⟨s, r⟩, hs, he⟩ := Option.map_eq_some_iff.1 h
    cases he
    obtain ⟨text, rfl, hcloses, hrest⟩ := ih hs
    exact ⟨_, rfl, .twice hcloses, hrest⟩
  | case3 d more hd =>
    cases h
    exact ⟨[quote], rfl, .close, fun hhead => hd (Option.some.inj hhead)⟩
  | case4 =>
    cases h
    exact ⟨[quote], rfl, .close, by simp⟩
  | case5 c cs hc ih =>
    obtain ⟨⟨s, r⟩, hs, he⟩ := Option.map_eq_some_iff.1 h
    cases he
    obtain ⟨text, rfl, hcloses, hrest⟩ := ih hs
    exact ⟨_, rfl, .char hc hcloses, hrest⟩

/-! ## Numbers -/

/-- A run at the front of a text, as long as it can be. -/
theorem exists_run (p : Char → Bool) (cs : List Char) :
    ∃ run rest, cs = run ++ rest ∧ (∀ c ∈ run, p c = true) ∧ (∀ c ∈ rest.head?, p c = false) ∧
      cs.takeWhile p = run ∧ cs.dropWhile p = rest :=
  ⟨_, _, List.takeWhile_append_dropWhile.symm, fun _ => List.mem_takeWhile_imp, head?_dropWhile p cs, rfl, rfl⟩

/-- The text of an exponent, with its value. -/
inductive ExponentText : Int → List Char → Prop where
  | plain {mark : Char} {digits : List Char} : mark = 'e' ∨ mark = 'E' → digits ≠ [] →
      (∀ d ∈ digits, isAsciiDigit d = true) → ExponentText (natOf digits) (mark :: digits)
  | plus {mark : Char} {digits : List Char} : mark = 'e' ∨ mark = 'E' → digits ≠ [] →
      (∀ d ∈ digits, isAsciiDigit d = true) → ExponentText (natOf digits) (mark :: '+' :: digits)
  | minus {mark : Char} {digits : List Char} : mark = 'e' ∨ mark = 'E' → digits ≠ [] →
      (∀ d ∈ digits, isAsciiDigit d = true) → ExponentText (-natOf digits) (mark :: '-' :: digits)

theorem takeSign_of_digits {digits : List Char} (hne : digits ≠ []) (hdigits : ∀ d ∈ digits, isAsciiDigit d = true)
    (rest : List Char) : takeSign (digits ++ rest) = (false, digits ++ rest) := by
  obtain ⟨d, digits, rfl⟩ := List.exists_cons_of_ne_nil hne
  have hd := hdigits d List.mem_cons_self
  unfold takeSign
  split
  · rename_i h
    rw [(List.cons.inj h).1] at hd
    exact absurd hd (by decide)
  · rename_i h
    rw [(List.cons.inj h).1] at hd
    exact absurd hd (by decide)
  · rfl

theorem takeExponent?_of_text {e : Int} {text : List Char} (h : ExponentText e text)
    (hrest : ∀ c ∈ rest.head?, isAsciiDigit c = false) : takeExponent? (text ++ rest) = some (e, rest) := by
  cases h with
  | plain hmark hne hdigits =>
    simp [takeExponent?, hmark, takeSign_of_digits hne hdigits, takeDigits_append hdigits hrest, hne]
  | plus hmark hne hdigits => simp [takeExponent?, hmark, takeSign, takeDigits_append hdigits hrest, hne]
  | minus hmark hne hdigits => simp [takeExponent?, hmark, takeSign, takeDigits_append hdigits hrest, hne]

theorem exists_exponentText {e : Int} (h : takeExponent? cs = some (e, rest)) :
    ∃ text, cs = text ++ rest ∧ ExponentText e text ∧ ∀ c ∈ rest.head?, isAsciiDigit c = false := by
  cases cs with
  | nil => cases h
  | cons mark cs =>
    rw [takeExponent?] at h
    split at h
    · rename_i hmark
      dsimp only [takeDigits] at h
      obtain ⟨digits, behind, hcs, hdigits, hbehind, htake, hdrop⟩ := exists_run isAsciiDigit (takeSign cs).2
      rw [htake, hdrop] at h
      split at h
      · cases h
      · rename_i hne
        have hne : digits ≠ [] := by simpa using hne
        cases h
        unfold takeSign at hcs ⊢
        split at hcs <;> dsimp only at hcs
        · exact ⟨mark :: '-' :: digits, by rw [hcs]; rfl, .minus hmark hne hdigits, hbehind⟩
        · exact ⟨mark :: '+' :: digits, by rw [hcs]; rfl, .plus hmark hne hdigits, hbehind⟩
        · exact ⟨mark :: digits, by rw [hcs]; rfl, .plain hmark hne hdigits, hbehind⟩
    · cases h

/-- The value of digits without point and exponent. -/
def wholeValue (digits : List Char) : Value :=
  if (natOf digits : Int) ≤ maxInt then .integer (natOf digits) else .real (.ofInt (natOf digits))

/-- The texts of decimal numbers, with their values and with the characters that would go on with them: only digits
alone can still get a point. -/
inductive NumberText : Value → List Char → (Char → Bool) → Prop where
  | whole {digits : List Char} : digits ≠ [] → (∀ d ∈ digits, isAsciiDigit d = true) →
      NumberText (wholeValue digits) digits fun c => isNameChar c || c == '.'
  | fraction {digits places : List Char} : digits ≠ [] ∨ places ≠ [] → (∀ d ∈ digits, isAsciiDigit d = true) →
      (∀ d ∈ places, isAsciiDigit d = true) →
      NumberText (.real (Numeral.toBinary64 ⟨false, digits, places, 0⟩)) (digits ++ '.' :: places) isNameChar
  | exponent {digits text : List Char} {e : Int} : digits ≠ [] → (∀ d ∈ digits, isAsciiDigit d = true) →
      ExponentText e text → NumberText (.real (Numeral.toBinary64 ⟨false, digits, [], e⟩)) (digits ++ text) isNameChar
  | fractionExponent {digits places text : List Char} {e : Int} : digits ≠ [] ∨ places ≠ [] →
      (∀ d ∈ digits, isAsciiDigit d = true) → (∀ d ∈ places, isAsciiDigit d = true) → ExponentText e text →
      NumberText (.real (Numeral.toBinary64 ⟨false, digits, places, e⟩)) (digits ++ '.' :: (places ++ text)) isNameChar

theorem isNameChar_of_isAsciiDigit (h : isAsciiDigit c = true) : isNameChar c = true := by simp [isNameChar, h]

theorem isAsciiDigit_of_isNameChar (h : isNameChar c = false) : isAsciiDigit c = false := by
  cases hc : isAsciiDigit c
  · rfl
  · rw [isNameChar_of_isAsciiDigit hc] at h
    cases h

/-- Hexadecimal digits are characters of names. -/
theorem isNameChar_of_hexValue? (h : (hexValue? c).isSome = true) : isNameChar c = true := by
  suffices hclass : isAsciiLetter c = true ∨ isAsciiDigit c = true by
    rcases hclass with hc | hc <;> simp [isNameChar, hc]
  unfold isAsciiLetter isAsciiDigit
  simp only [Bool.or_eq_true, Bool.and_eq_true, decide_eq_true_eq]
  by_cases hupper : 'A' ≤ c ∧ c ≤ 'Z'
  · exact .inl (.inr hupper)
  · have hlower : c.toLower = c := dif_neg hupper
    rw [hexValue?, hlower, hexDigit?] at h
    split at h
    · rename_i hc
      exact .inr hc
    · split at h
      · rename_i hc
        exact .inl (.inl ⟨hc.1, Char.le_trans hc.2 (by decide)⟩)
      · cases h

theorem hexValue?_of_not_name (h : isNameChar c = false) : (hexValue? c).isSome = false := by
  cases hc : (hexValue? c).isSome
  · rfl
  · rw [isNameChar_of_hexValue? hc] at h
    cases h

theorem takeExponent?_eq_none (h : ∀ c ∈ cs.head?, isNameChar c = false) : takeExponent? cs = none := by
  cases cs with
  | nil => rfl
  | cons c cs =>
    have hc := h c rfl
    rw [takeExponent?, if_neg]
    rintro (rfl | rfl)
    · exact absurd hc (by decide)
    · exact absurd hc (by decide)

theorem ExponentText.head? {e : Int} {text : List Char} (h : ExponentText e text) :
    ∃ mark cs, text = mark :: cs ∧ (mark = 'e' ∨ mark = 'E') := by
  cases h with
  | plain hmark => exact ⟨_, _, rfl, hmark⟩
  | plus hmark => exact ⟨_, _, rfl, hmark⟩
  | minus hmark => exact ⟨_, _, rfl, hmark⟩

/-- An exponent does not go on with digits, and is no point. -/
theorem ExponentText.stops {e : Int} {text : List Char} (h : ExponentText e text) (rest : List Char) :
    (∀ c ∈ (text ++ rest).head?, isAsciiDigit c = false) ∧ (text ++ rest).head? ≠ some '.' := by
  obtain ⟨mark, cs, rfl, hmark⟩ := h.head?
  constructor
  · intro c hc
    obtain rfl : mark = c := Option.some.inj hc
    rcases hmark with rfl | rfl <;> decide
  · intro hc
    obtain rfl : mark = '.' := Option.some.inj hc
    exact absurd hmark (by decide)

section Numbers

variable {v : Value} {text : List Char} {more : Char → Bool}

/-- Digits with a point behind them. -/
theorem takeNumberText_point {digits places after behind : List Char} (hdigits : takeDigits cs = (digits, '.' :: after))
    (hplaces : takeDigits after = (places, behind)) :
    takeNumberText cs =
      match takeExponent? behind with
      | some (e, rest) => (.real (Numeral.toBinary64 ⟨false, digits, places, e⟩), rest)
      | none => (.real (Numeral.toBinary64 ⟨false, digits, places, 0⟩), behind) := by
  rw [takeNumberText, hdigits]
  simp only [hplaces]
  rfl

/-- Digits without a point behind them. -/
theorem takeNumberText_pointless {digits behind : List Char} (hdigits : takeDigits cs = (digits, behind))
    (hpoint : behind.head? ≠ some '.') :
    takeNumberText cs =
      match takeExponent? behind with
      | some (e, rest) => (.real (Numeral.toBinary64 ⟨false, digits, [], e⟩), rest)
      | none => (wholeValue digits, behind) := by
  rw [takeNumberText, hdigits]
  cases behind with
  | nil => rfl
  | cons c behind =>
    have hc : c ≠ '.' := fun hc => hpoint (congrArg some hc)
    cases hexponent : takeExponent? (c :: behind) <;> simp [hc, hexponent, wholeValue]

theorem takeNumberText_of_text (h : NumberText v text more) (hrest : ∀ c ∈ rest.head?, more c = false) :
    takeNumberText (text ++ rest) = (v, rest) := by
  cases h with
  | whole hne hdigits =>
    have hname : ∀ c ∈ rest.head?, isNameChar c = false := fun c hc => (Bool.or_eq_false_iff.1 (hrest c hc)).1
    have hpoint : rest.head? ≠ some '.' := fun hc => absurd (hrest '.' hc) (by decide)
    have htake := takeDigits_append hdigits fun c hc => isAsciiDigit_of_isNameChar (hname c hc)
    rw [takeNumberText_pointless htake hpoint, takeExponent?_eq_none hname]
  | fraction hne hdigits hplaces =>
    have htake := takeDigits_append hplaces fun c hc => isAsciiDigit_of_isNameChar (hrest c hc)
    rw [List.append_assoc, List.cons_append,
      takeNumberText_point (takeDigits_append hdigits (by simp; decide)) htake, takeExponent?_eq_none hrest]
  | exponent hne hdigits htext =>
    obtain ⟨hstop, hpoint⟩ := htext.stops rest
    rw [List.append_assoc, takeNumberText_pointless (takeDigits_append hdigits hstop) hpoint,
      takeExponent?_of_text htext fun c hc => isAsciiDigit_of_isNameChar (hrest c hc)]
  | fractionExponent hne hdigits hplaces htext =>
    obtain ⟨hstop, -⟩ := htext.stops rest
    rw [List.append_assoc, List.cons_append, List.append_assoc,
      takeNumberText_point (takeDigits_append hdigits (by simp; decide)) (takeDigits_append hplaces hstop),
      takeExponent?_of_text htext fun c hc => isAsciiDigit_of_isNameChar (hrest c hc)]

/-- No character of a name goes on behind a number. -/
theorem NumberText.isNameChar_eq_false (h : NumberText v text more) (hc : more c = false) : isNameChar c = false := by
  cases h with
  | whole => exact (Bool.or_eq_false_iff.1 hc).1
  | fraction => exact hc
  | exponent => exact hc
  | fractionExponent => exact hc

/-- A text that begins as a number. -/
def BeginsNumber (cs : List Char) : Prop :=
  ∃ c rest, cs = c :: rest ∧ (isAsciiDigit c = true ∨ c = '.' ∧ ∃ d ∈ rest.head?, isAsciiDigit d = true)

/-- A number is read as one of its texts, if it begins with a digit, or with a point and a digit. -/
theorem exists_numberText (h : takeNumberText cs = (v, rest)) (hbegins : BeginsNumber cs)
    (hrest : ∀ c ∈ rest.head?, isNameChar c = false) :
    ∃ text more, cs = text ++ rest ∧ NumberText v text more ∧ ∀ c ∈ rest.head?, more c = false := by
  obtain ⟨digits, behind, rfl, hdigits, hbehind, htake, hdrop⟩ := exists_run isAsciiDigit cs
  have hwhole : takeDigits (digits ++ behind) = (digits, behind) := takeDigits_append hdigits hbehind
  by_cases hpoint : behind.head? = some '.'
  · obtain ⟨after, rfl⟩ := List.head?_eq_some_iff.1 hpoint
    obtain ⟨places, behind, rfl, hplaces, hstop, -, -⟩ := exists_run isAsciiDigit after
    have hne : digits ≠ [] ∨ places ≠ [] := by
      by_contra hnone
      obtain ⟨rfl, rfl⟩ : digits = [] ∧ places = [] := by simpa using hnone
      obtain ⟨c, more, hcs, hc | ⟨-, d, hd, hdigit⟩⟩ := hbegins
      · rw [← (List.cons.inj hcs).1] at hc
        exact absurd hc (by decide)
      · rw [← (List.cons.inj hcs).2] at hd
        rw [hstop d hd] at hdigit
        cases hdigit
    rw [takeNumberText_point hwhole (takeDigits_append hplaces hstop)] at h
    split at h
    · rename_i e after hexponent
      cases h
      obtain ⟨text, rfl, htext, -⟩ := exists_exponentText hexponent
      exact ⟨_, _, by simp, .fractionExponent hne hdigits hplaces htext, hrest⟩
    · cases h
      exact ⟨_, _, by simp, .fraction hne hdigits hplaces, hrest⟩
  · have hne : digits ≠ [] := by
      rintro rfl
      obtain ⟨c, more, rfl, hc | ⟨rfl, -⟩⟩ := hbegins
      · rw [hbehind c rfl] at hc
        cases hc
      · exact hpoint rfl
    rw [takeNumberText_pointless hwhole hpoint] at h
    split at h
    · rename_i e after hexponent
      cases h
      obtain ⟨text, rfl, htext, -⟩ := exists_exponentText hexponent
      exact ⟨_, _, by simp, .exponent hne hdigits htext, hrest⟩
    · cases h
      refine ⟨_, _, rfl, .whole hne hdigits, fun c hc => Bool.or_eq_false_iff.2 ⟨hrest c hc, ?_⟩⟩
      rw [beq_eq_false_iff_ne]
      rintro rfl
      exact hpoint hc

theorem beginsNumber_digits {digits : List Char} (hne : digits ≠ []) (hdigits : ∀ d ∈ digits, isAsciiDigit d = true)
    (rest : List Char) : BeginsNumber (digits ++ rest) := by
  obtain ⟨d, digits, rfl⟩ := List.exists_cons_of_ne_nil hne
  exact ⟨d, _, rfl, .inl (hdigits d List.mem_cons_self)⟩

theorem beginsNumber_point {digits places : List Char} (hne : digits ≠ [] ∨ places ≠ [])
    (hdigits : ∀ d ∈ digits, isAsciiDigit d = true) (hplaces : ∀ d ∈ places, isAsciiDigit d = true) (rest : List Char) :
    BeginsNumber (digits ++ '.' :: (places ++ rest)) := by
  by_cases hnone : digits = []
  · subst hnone
    obtain ⟨d, places, rfl⟩ := List.exists_cons_of_ne_nil (hne.resolve_left fun h => h rfl)
    exact ⟨'.', _, rfl, .inr ⟨rfl, d, rfl, hplaces d List.mem_cons_self⟩⟩
  · exact beginsNumber_digits hnone hdigits _

theorem NumberText.begins (h : NumberText v text more) (rest : List Char) : BeginsNumber (text ++ rest) := by
  cases h with
  | whole hne hdigits => exact beginsNumber_digits hne hdigits rest
  | fraction hne hdigits hplaces => simpa using beginsNumber_point hne hdigits hplaces rest
  | exponent hne hdigits _ => simpa using beginsNumber_digits hne hdigits _
  | fractionExponent hne hdigits hplaces _ => simpa using beginsNumber_point hne hdigits hplaces _

/-- The mark of hexadecimal digits. -/
def IsHexMark (c : Char) : Prop := c = 'x' ∨ c = 'X'

instance (c : Char) : Decidable (IsHexMark c) := inferInstanceAs (Decidable (c = 'x' ∨ c = 'X'))

theorem not_isHexMark_of_digit (h : isAsciiDigit c = true) : ¬ IsHexMark c := by
  rintro (rfl | rfl) <;> exact absurd h (by decide)

theorem not_isHexMark_of_not_name (h : isNameChar c = false) : ¬ IsHexMark c := by
  rintro (rfl | rfl) <;> exact absurd h (by decide)

theorem ExponentText.not_isHexMark {e : Int} (h : ExponentText e text) (rest : List Char) :
    ∀ c ∈ (text ++ rest).head?, ¬ IsHexMark c := by
  intro c hc
  obtain ⟨mark, cs, rfl, hmark⟩ := h.head?
  obtain rfl : mark = c := Option.some.inj hc
  rcases hmark with rfl | rfl <;> decide

/-- Behind the first of some digits there is no such mark, unless behind all of them. -/
theorem not_isHexMark_digits {digits : List Char} (hdigits : ∀ d ∈ digits, isAsciiDigit d = true)
    (hrest : ∀ c ∈ rest.head?, ¬ IsHexMark c) : ∀ c ∈ (digits ++ rest).head?, ¬ IsHexMark c := by
  cases digits with
  | nil => exact hrest
  | cons d digits =>
    intro c hc
    obtain rfl : d = c := Option.some.inj hc
    exact not_isHexMark_of_digit (hdigits d List.mem_cons_self)

/-- No hexadecimal digits follow on the first character of a decimal number. -/
theorem NumberText.not_isHexMark (h : NumberText v text more) (hrest : ∀ c ∈ rest.head?, more c = false) :
    ∀ c ∈ (text ++ rest).tail.head?, ¬ IsHexMark c := by
  have htail : ∀ {digits cs : List Char}, (∀ d ∈ digits, isAsciiDigit d = true) → digits ≠ [] →
      (∀ c ∈ cs.head?, ¬ IsHexMark c) → ∀ c ∈ (digits ++ cs).tail.head?, ¬ IsHexMark c := by
    intro digits cs hdigits hne hcs
    rw [List.tail_append_of_ne_nil hne]
    exact not_isHexMark_digits (fun d hd => hdigits d (List.mem_of_mem_tail hd)) hcs
  have hpoint : ∀ cs : List Char, ∀ c ∈ ('.' :: cs).head?, ¬ IsHexMark c := by
    rintro cs c hc
    obtain rfl : '.' = c := Option.some.inj hc
    decide
  cases h with
  | whole hne hdigits =>
    exact htail hdigits hne fun c hc => not_isHexMark_of_not_name (Bool.or_eq_false_iff.1 (hrest c hc)).1
  | @fraction digits places hne hdigits hplaces =>
    rw [List.append_assoc]
    by_cases hnone : digits = []
    · subst hnone
      exact not_isHexMark_digits hplaces fun c hc => not_isHexMark_of_not_name (hrest c hc)
    · exact htail hdigits hnone (hpoint _)
  | exponent hne hdigits htext =>
    rw [List.append_assoc]
    exact htail hdigits hne (htext.not_isHexMark rest)
  | @fractionExponent digits places _ _ hne hdigits hplaces htext =>
    rw [List.append_assoc, List.cons_append, List.append_assoc]
    by_cases hnone : digits = []
    · subst hnone
      exact not_isHexMark_digits hplaces (htext.not_isHexMark rest)
    · exact htail hdigits hnone (hpoint _)

end Numbers

/-! ## All tokens -/

/-- The forms of tokens: kinds and texts, with the characters that would go on with the token. -/
inductive Form : LexemeKind → List Char → (Char → Bool) → Prop where
  | string {inside text : List Char} : Closes '\'' inside text →
      Form (.string (String.ofList inside)) ('\'' :: text) (· == '\'')
  | quotedName {quote : Char} {inside text : List Char} : quote = '"' ∨ quote = Char.ofNat 96 →
      Closes quote inside text → Form (.quotedName (String.ofList inside) (quote = '"')) (quote :: text) (· == quote)
  | bracketed {name : List Char} : ']' ∉ name →
      Form (.quotedName (String.ofList name) false) ('[' :: (name ++ [']'])) fun _ => false
  | number {v : Value} {text : List Char} {more : Char → Bool} : NumberText v text more → Form (.number v) text more
  | hexNumber {mark : Char} {digits : List Char} : IsHexMark mark → digits ≠ [] →
      (∀ d ∈ digits, (hexValue? d).isSome = true) → Form (.number (hexNumber digits)) ('0' :: mark :: digits) isNameChar
  | place {digits : List Char} : (∀ d ∈ digits, isAsciiDigit d = true) → Form .parameter ('?' :: digits) isAsciiDigit
  | parameter {mark : Char} {name : List Char} : mark = ':' ∨ mark = '@' ∨ mark = '$' ∨ mark = '#' → name ≠ [] →
      (∀ c ∈ name, isNameChar c = true) → Form .parameter (mark :: name) isNameChar
  | blob {mark : Char} {digits : List Char} {bytes : List UInt8} : IsHexMark mark →
      (∀ d ∈ digits, (hexValue? d).isSome = true) → hexBytes digits = some bytes →
      Form (.blob bytes) (mark :: '\'' :: (digits ++ ['\''])) fun _ => false
  | word {c : Char} {name : List Char} : isNameStart c = true → (∀ d ∈ name, isNameChar d = true) →
      Form .word (c :: name) fun d => isNameChar d || (name.isEmpty && decide (IsHexMark c) && d == '\'')
  | doubleSign {c d : Char} : [c, d] ∈ doubleSigns → Form .sign [c, d] fun _ => false
  | sign {c : Char} : c ∈ singleSigns →
      Form .sign [c] fun d => doubleSigns.contains [c, d] || (c == '.' && isAsciiDigit d)

theorem Form.ne_nil {kind : LexemeKind} {text : List Char} {more : Char → Bool} (h : Form kind text more) :
    text ≠ [] := by
  cases h
  case number htext =>
    rintro rfl
    obtain ⟨c, cs, hcs, -⟩ := htext.begins []
    cases hcs
  all_goals exact List.cons_ne_nil _ _

theorem Form.legal {kind : LexemeKind} {text : List Char} {more : Char → Bool} (h : Form kind text more) :
    kind ≠ .illegal := by
  cases h <;> exact LexemeKind.noConfusion

/-- No character of a name goes on behind a word. -/
theorem Form.isNameChar_eq_false {text : List Char} {more : Char → Bool} (h : Form .word text more)
    (hc : more c = false) : isNameChar c = false := by
  cases h with
  | word => exact (Bool.or_eq_false_iff.1 hc).1

/-! ### Tokens by their first characters -/

/-- The number at the front of a text, hexadecimal or not. -/
def takeNumber (c : Char) (cs : List Char) : Value × List Char :=
  let hex := cs.head? == some 'x' || cs.head? == some 'X'
  if c == '0' && hex && ((cs.drop 1).head?.bind hexValue?).isSome then
    (hexNumber ((cs.drop 1).takeWhile fun d => (hexValue? d).isSome),
      (cs.drop 1).dropWhile fun d => (hexValue? d).isSome)
  else takeNumberText (c :: cs)

theorem beginsNumber_cons : BeginsNumber (c :: cs) ↔
    (isAsciiDigit c || (c == '.' && (cs.head?.map isAsciiDigit).getD false)) = true := by
  rw [Bool.or_eq_true, Bool.and_eq_true, beq_iff_eq]
  constructor
  · rintro ⟨_, _, hcs, hc⟩
    obtain ⟨rfl, rfl⟩ := List.cons.inj hcs
    exact hc.imp_right fun ⟨hpoint, d, hd, hdigit⟩ => ⟨hpoint, by simp [Option.mem_def.1 hd, hdigit]⟩
  · refine fun h => ⟨c, cs, rfl, h.imp_right fun ⟨hpoint, hdigit⟩ => ⟨hpoint, ?_⟩⟩
    cases cs with
    | nil => cases hdigit
    | cons d cs => exact ⟨d, rfl, hdigit⟩

/-- A text that begins as a number is read as one, unless it goes on with the characters of a name. -/
theorem nextLexeme_number (h : BeginsNumber (c :: cs)) :
    nextLexeme (c :: cs) =
      if ((takeNumber c cs).2.head?.map isNameChar).getD false = true then
        (.illegal, (takeNumber c cs).2.dropWhile isNameChar)
      else (.number (takeNumber c cs).1, (takeNumber c cs).2) := by
  have hnot : c ∉ ['\'', '"', Char.ofNat 96, '['] := by
    intro hmem
    have hother : ∀ d ∈ ['\'', '"', Char.ofNat 96, '['], isAsciiDigit d = false ∧ d ≠ '.' := by decide
    obtain ⟨hdigit, hpoint⟩ := hother c hmem
    simp [beginsNumber_cons, hdigit, hpoint] at h
  simp only [List.mem_cons, List.not_mem_nil, or_false, not_or] at hnot
  obtain ⟨h1, h2, h3, h4⟩ := hnot
  rw [nextLexeme.eq_def]
  dsimp only
  rw [if_neg h1, if_neg (not_or.2 ⟨h2, h3⟩), if_neg h4, if_pos (beginsNumber_cons.1 h)]
  rfl

theorem option_getD_eq_false {p : Char → Bool} {o : Option Char} :
    (o.map p).getD false = false ↔ ∀ c ∈ o, p c = false := by
  cases o <;> simp

/-- What a character is not that begins a name. -/
theorem isNameStart_ne (h : isNameStart c = true) :
    isAsciiDigit c = false ∧ c ∉ ['\'', '"', Char.ofNat 96, '[', '?', ':', '@', '$', '#', '.', '-', '/'] := by
  simp only [isNameStart, Bool.or_eq_true, beq_iff_eq, decide_eq_true_eq] at h
  rcases h with (hletter | rfl) | hlarge
  · obtain ⟨-, hdigit, hnot⟩ := isAsciiLetter_ne hletter
    have hsub : ['\'', '"', Char.ofNat 96, '[', '?', ':', '@', '$', '#', '.', '-', '/'] ⊆
        ['\'', '"', Char.ofNat 96, '[', '.', '?', ':', '@', '$', '#', '-', '/', '\ufeff'] := by decide
    exact ⟨hdigit, fun hmem => hnot (hsub hmem)⟩
  · decide
  · have hsmall : ∀ d ∈ ['\'', '"', Char.ofNat 96, '[', '?', ':', '@', '$', '#', '.', '-', '/'], d.toNat < 128 := by
      decide
    refine ⟨?_, fun hmem => absurd (hsmall c hmem) (by omega)⟩
    rw [← Bool.not_eq_true, isAsciiDigit, Bool.and_eq_true, decide_eq_true_eq, decide_eq_true_eq]
    rintro ⟨-, hle⟩
    have hle : c.toNat ≤ 57 := hle
    omega

/-- Words and signs: what remains if a text begins as none of the others. -/
theorem nextLexeme_other (h : c ∉ ['\'', '"', Char.ofNat 96, '[', '?', ':', '@', '$', '#'])
    (hnumber : ¬ BeginsNumber (c :: cs)) (hblob : IsHexMark c → cs.head? ≠ some '\'') :
    nextLexeme (c :: cs) =
      if isNameStart c then (.word, cs.dropWhile isNameChar)
      else if cs.head?.any fun d => doubleSigns.contains [c, d] then (.sign, cs.tail)
      else if singleSigns.contains c then (.sign, cs)
      else (.illegal, cs) := by
  simp only [List.mem_cons, List.not_mem_nil, or_false, not_or] at h
  obtain ⟨h1, h2, h3, h4, h5, h6, h7, h8, h9⟩ := h
  rw [nextLexeme.eq_def]
  dsimp only
  rw [if_neg h1, if_neg (not_or.2 ⟨h2, h3⟩), if_neg h4, if_neg (mt beginsNumber_cons.2 hnumber), if_neg h5,
    if_neg (by simp only [h6, h7, h8, h9, or_self, not_false_iff]), if_neg fun hx => hblob hx.1 hx.2]
  cases cs with
  | nil => simp
  | cons d cs => simp

/-- A token is read where one of its forms stands, if the next character does not go on with it. -/
theorem nextLexeme_of_form {kind : LexemeKind} {text : List Char} {more : Char → Bool} (h : Form kind text more)
    (hrest : ∀ c ∈ rest.head?, more c = false) : nextLexeme (text ++ rest) = (kind, rest) := by
  cases h with
  | string hcloses =>
    have hclosed : rest.head? ≠ some '\'' := fun hc => absurd (hrest _ hc) (by decide)
    rw [List.cons_append, nextLexeme.eq_def]
    dsimp only
    rw [if_pos rfl, takeQuoted_of_closes hcloses hclosed]
  | @quotedName quote inside text hquote hcloses =>
    have hclosed : rest.head? ≠ some quote := fun hc => absurd (hrest _ hc) (by simp)
    have hother : quote ≠ '\'' := by rintro rfl; exact absurd hquote (by decide)
    rw [List.cons_append, nextLexeme.eq_def]
    dsimp only
    rw [if_neg hother, if_pos hquote, takeQuoted_of_closes hcloses hclosed]
  | bracketed hname =>
    rw [List.cons_append, List.append_assoc, List.singleton_append, nextLexeme.eq_def]
    dsimp only
    rw [if_neg (by decide), if_neg (by decide), if_pos rfl, cutAt?_singleton hname]
  | @number v text more htext =>
    have hbegins := htext.begins rest
    have hmark := htext.not_isHexMark hrest
    have htake := takeNumberText_of_text htext hrest
    obtain ⟨c, behind, hcs, -⟩ := htext.begins rest
    rw [hcs] at hbegins hmark htake ⊢
    have hnumber : takeNumber c behind = (v, rest) := by
      rw [takeNumber, if_neg, htake]
      cases behind with
      | nil => simp
      | cons d behind =>
        obtain ⟨hx, hX⟩ := not_or.1 (hmark d rfl)
        simp [hx, hX]
    rw [nextLexeme_number hbegins, hnumber, option_getD_eq_false.2 fun c hc => htext.isNameChar_eq_false (hrest c hc)]
    rfl
  | @hexNumber mark digits hmark hne hdigits =>
    obtain ⟨htake, hdrop⟩ := takeWhile_of_stop hdigits fun c hc => hexValue?_of_not_name (hrest c hc)
    have hnumber : takeNumber '0' (mark :: (digits ++ rest)) = (hexNumber digits, rest) := by
      obtain ⟨d, digits, rfl⟩ := List.exists_cons_of_ne_nil hne
      rw [takeNumber, if_pos]
      · rw [List.drop_one, List.tail_cons, htake, hdrop]
      · rcases hmark with rfl | rfl <;> simp [hdigits d List.mem_cons_self]
    rw [List.cons_append, List.cons_append, nextLexeme_number ⟨_, _, rfl, .inl (by decide)⟩, hnumber,
      option_getD_eq_false.2 hrest]
    rfl
  | place hdigits =>
    have hdrop := (takeWhile_of_stop hdigits hrest).2
    rw [List.cons_append, nextLexeme.eq_def]
    dsimp only
    rw [if_neg (by decide), if_neg (by decide), if_neg (by decide), if_neg (by simp; decide), if_pos rfl, hdrop]
  | @parameter mark name hmark hne hname =>
    have hdrop := (takeWhile_of_stop hname hrest).2
    obtain ⟨c, name, rfl⟩ := List.exists_cons_of_ne_nil hne
    have hc := hname c List.mem_cons_self
    have hother : mark ∉ ['\'', '"', Char.ofNat 96, '[', '.', '?'] ∧ isAsciiDigit mark = false := by
      rcases hmark with rfl | rfl | rfl | rfl <;> decide
    simp only [List.mem_cons, List.not_mem_nil, or_false, not_or] at hother
    obtain ⟨⟨h1, h2, h3, h4, h5, h6⟩, hdigit⟩ := hother
    rw [List.cons_append, nextLexeme.eq_def]
    dsimp only
    rw [if_neg h1, if_neg (not_or.2 ⟨h2, h3⟩), if_neg h4, if_neg (by simp [hdigit, h5]), if_neg h6, if_pos hmark,
      if_pos (by simpa using hc), hdrop]
  | @blob mark digits bytes hmark hdigits hbytes =>
    have hstop : ∀ c ∈ ('\'' :: rest).head?, (hexValue? c).isSome = false := by
      rintro c hc
      obtain rfl : '\'' = c := Option.some.inj hc
      decide
    obtain ⟨htake, hdrop⟩ := takeWhile_of_stop hdigits hstop
    have hother : mark ∉ ['\'', '"', Char.ofNat 96, '[', '.', '?', ':', '@', '$', '#'] ∧ isAsciiDigit mark = false := by
      rcases hmark with rfl | rfl <;> decide
    simp only [List.mem_cons, List.not_mem_nil, or_false, not_or] at hother
    obtain ⟨⟨h1, h2, h3, h4, h5, h6, h7, h8, h9, h10⟩, hdigit⟩ := hother
    rw [List.cons_append, List.cons_append, List.append_assoc, List.singleton_append, nextLexeme.eq_def]
    dsimp only
    rw [if_neg h1, if_neg (not_or.2 ⟨h2, h3⟩), if_neg h4, if_neg (by simp [hdigit, h5]), if_neg h6,
      if_neg (by simp only [h7, h8, h9, h10, or_self, not_false_iff]), if_pos ⟨hmark, rfl⟩, List.drop_one,
      List.tail_cons, htake, hdrop, hbytes]
    rfl
  | @word c name hc hname =>
    have hname' : ∀ d ∈ rest.head?, isNameChar d = false := fun d hd => (Bool.or_eq_false_iff.1 (hrest d hd)).1
    obtain ⟨hdigit, hother⟩ := isNameStart_ne hc
    rw [List.cons_append, nextLexeme_other, if_pos hc, (takeWhile_of_stop hname hname').2]
    · exact fun hmem => hother (List.mem_append_left ['.', '-', '/'] hmem)
    · have hpoint : c ≠ '.' := by
        rintro rfl
        exact hother (by decide)
      simp [beginsNumber_cons, hdigit, hpoint]
    · intro hmark hquote
      cases name with
      | nil => simpa [hmark] using hrest '\'' hquote
      | cons d name =>
        obtain rfl : d = '\'' := Option.some.inj hquote
        exact absurd (hname _ List.mem_cons_self) (by decide)
  | @doubleSign c d hcd =>
    have hsigns : ∀ c ∈ doubleSigns.filterMap List.head?, c ∉ ['\'', '"', Char.ofNat 96, '[', '?', ':', '@', '$', '#'] ∧
        isAsciiDigit c = false ∧ c ≠ '.' ∧ ¬ IsHexMark c ∧ isNameStart c = false := by decide
    obtain ⟨hquote, hdigit, hpoint, hmark, hname⟩ := hsigns c (List.mem_filterMap.2 ⟨_, hcd, rfl⟩)
    have hdouble : ((d :: rest).head?.any fun d => doubleSigns.contains [c, d]) = true := List.contains_iff_mem.2 hcd
    rw [List.cons_append, nextLexeme_other hquote (by simp [beginsNumber_cons, hdigit, hpoint]) fun h => absurd h hmark,
      if_neg (by simp [hname]), List.singleton_append, if_pos hdouble]
    rfl
  | @sign c hc =>
    have hsigns : ∀ c ∈ singleSigns, c ∉ ['\'', '"', Char.ofNat 96, '[', '?', ':', '@', '$', '#'] ∧
        isAsciiDigit c = false ∧ ¬ IsHexMark c ∧ isNameStart c = false := by decide
    obtain ⟨hquote, hdigit, hmark, hname⟩ := hsigns c hc
    have hsingle : ∀ d ∈ rest.head?, [c, d] ∉ doubleSigns ∧ (c = '.' → isAsciiDigit d = false) := by
      intro d hd
      have hrest := hrest d hd
      simp only [Bool.or_eq_false_iff, List.contains_eq_mem, decide_eq_false_iff_not, Bool.and_eq_false_imp,
        beq_iff_eq] at hrest
      exact hrest
    have hnumber : ¬ BeginsNumber (c :: rest) := by
      rintro ⟨_, _, hcs, hc | ⟨hpoint, d, hd, hdigit'⟩⟩
      · rw [← (List.cons.inj hcs).1, hdigit] at hc
        cases hc
      · obtain ⟨rfl, rfl⟩ := List.cons.inj hcs
        rw [(hsingle d hd).2 hpoint] at hdigit'
        cases hdigit'
    have hdouble : ¬ (rest.head?.any fun d => doubleSigns.contains [c, d]) = true := by
      rw [Option.any_eq_true]
      rintro ⟨d, hd, hcd⟩
      exact (hsingle d hd).1 (List.contains_iff_mem.1 hcd)
    rw [List.singleton_append, nextLexeme_other hquote hnumber fun h => absurd h hmark,
      if_neg (by simp [hname]), if_neg hdouble, if_pos (List.contains_iff_mem.2 hc)]

/-- The number that is read at the front of a text has one of the forms. -/
theorem exists_number {v : Value} (h : takeNumber c cs = (v, rest)) (hbegins : BeginsNumber (c :: cs))
    (hrest : ∀ d ∈ rest.head?, isNameChar d = false) :
    ∃ text more, c :: cs = text ++ rest ∧ Form (.number v) text more ∧ ∀ d ∈ rest.head?, more d = false := by
  rw [takeNumber] at h
  split at h
  · rename_i hhex
    simp only [Bool.and_eq_true, beq_iff_eq, Bool.or_eq_true] at hhex
    obtain ⟨⟨rfl, hmark⟩, hdigit⟩ := hhex
    obtain ⟨mark, cs, rfl⟩ : ∃ mark more, cs = mark :: more := by
      cases cs with
      | nil => simp at hmark
      | cons mark cs => exact ⟨mark, cs, rfl⟩
    rw [List.drop_one, List.tail_cons] at h hdigit
    obtain ⟨digits, behind, rfl, hdigits, hstop, htake, hdrop⟩ := exists_run (fun d => (hexValue? d).isSome) cs
    rw [htake, hdrop] at h
    cases h
    refine ⟨'0' :: mark :: digits, _, rfl, .hexNumber (hmark.imp Option.some.inj Option.some.inj) ?_ hdigits, hrest⟩
    rintro rfl
    cases rest with
    | nil => cases hdigit
    | cons d rest =>
      have hdigit : (hexValue? d).isSome = true := hdigit
      rw [hstop d rfl] at hdigit
      cases hdigit
  · obtain ⟨text, more, htext, hform, hmore⟩ := exists_numberText h hbegins hrest
    exact ⟨text, more, htext, .number hform, hmore⟩

section Reading

variable {kind : LexemeKind} (h : nextLexeme (c :: cs) = (kind, rest)) (hkind : kind ≠ .illegal)

include h hkind

/-- What is read behind a quote or a bracket. -/
theorem exists_form_quoted (hc : c = '\'' ∨ c = '"' ∨ c = Char.ofNat 96 ∨ c = '[') :
    ∃ text more, c :: cs = text ++ rest ∧ Form kind text more ∧ ∀ d ∈ rest.head?, more d = false := by
  rw [nextLexeme.eq_def] at h
  dsimp only at h
  by_cases hstring : c = '\''
  · subst hstring
    rw [if_pos rfl] at h
    split at h
    · rename_i htake
      cases h
      obtain ⟨text, rfl, hcloses, hrest⟩ := exists_closes htake
      exact ⟨_, _, rfl, .string hcloses, fun d hd => beq_eq_false_iff_ne.2 fun he => hrest (he ▸ hd)⟩
    · exact absurd (Prod.mk.inj h).1.symm hkind
  rw [if_neg hstring] at h
  by_cases hquote : c = '"' ∨ c = Char.ofNat 96
  · rw [if_pos hquote] at h
    split at h
    · rename_i htake
      cases h
      obtain ⟨text, rfl, hcloses, hrest⟩ := exists_closes htake
      exact ⟨_, _, rfl, .quotedName hquote hcloses, fun d hd => beq_eq_false_iff_ne.2 fun he => hrest (he ▸ hd)⟩
    · exact absurd (Prod.mk.inj h).1.symm hkind
  obtain rfl : c = '[' := ((hc.resolve_left hstring).resolve_left (not_or.1 hquote).1).resolve_left (not_or.1 hquote).2
  rw [if_neg hquote, if_pos rfl] at h
  split at h
  · rename_i hcut
    cases h
    have hname := not_infix_of_cutAt? (List.cons_ne_nil _ _) hcut
    refine ⟨_, _, ?_, .bracketed (mt (List.singleton_infix_iff _ _).2 hname), fun _ _ => rfl⟩
    rw [eq_of_cutAt? hcut]
    simp
  · exact absurd (Prod.mk.inj h).1.symm hkind

/-- What is read behind the mark of a parameter. -/
theorem exists_form_parameter (hc : c = '?' ∨ c = ':' ∨ c = '@' ∨ c = '$' ∨ c = '#') :
    ∃ text more, c :: cs = text ++ rest ∧ Form kind text more ∧ ∀ d ∈ rest.head?, more d = false := by
  have hother : (c ≠ '\'' ∧ ¬ (c = '"' ∨ c = Char.ofNat 96) ∧ c ≠ '[') ∧ isAsciiDigit c = false ∧ c ≠ '.' := by
    rcases hc with rfl | rfl | rfl | rfl | rfl <;> decide
  obtain ⟨⟨hstring, hquote, hbracket⟩, hdigit, hpoint⟩ := hother
  rw [nextLexeme.eq_def] at h
  dsimp only at h
  rw [if_neg hstring, if_neg hquote, if_neg hbracket, if_neg (by simp [hdigit, hpoint])] at h
  by_cases hplace : c = '?'
  · subst hplace
    rw [if_pos rfl] at h
    cases h
    obtain ⟨digits, behind, rfl, hdigits, hstop, -, hdrop⟩ := exists_run isAsciiDigit cs
    rw [hdrop]
    exact ⟨_, _, rfl, .place hdigits, hstop⟩
  have hmark := hc.resolve_left hplace
  rw [if_neg hplace, if_pos hmark] at h
  split at h
  · rename_i hhead
    cases h
    obtain ⟨name, behind, rfl, hname, hstop, -, hdrop⟩ := exists_run isNameChar cs
    rw [hdrop]
    refine ⟨_, _, rfl, .parameter hmark ?_ hname, hstop⟩
    rintro rfl
    rw [List.nil_append, option_getD_eq_false.2 hstop] at hhead
    cases hhead
  · exact absurd (Prod.mk.inj h).1.symm hkind

/-- What is read behind the mark of a blob. -/
theorem exists_form_blob (hmark : IsHexMark c) (hquote : cs.head? = some '\'') :
    ∃ text more, c :: cs = text ++ rest ∧ Form kind text more ∧ ∀ d ∈ rest.head?, more d = false := by
  have hother : (c ≠ '\'' ∧ ¬ (c = '"' ∨ c = Char.ofNat 96) ∧ c ≠ '[') ∧ isAsciiDigit c = false ∧ c ≠ '.' ∧ c ≠ '?' ∧
      ¬ (c = ':' ∨ c = '@' ∨ c = '$' ∨ c = '#') := by
    rcases hmark with rfl | rfl <;> decide
  obtain ⟨⟨hstring, hname, hbracket⟩, hdigit, hpoint, hplace, hparameter⟩ := hother
  obtain ⟨body, rfl⟩ := List.head?_eq_some_iff.1 hquote
  obtain ⟨digits, behind, rfl, hdigits, hstop, htake, hdrop⟩ := exists_run (fun d => (hexValue? d).isSome) body
  rw [nextLexeme.eq_def] at h
  dsimp only at h
  rw [if_neg hstring, if_neg hname, if_neg hbracket, if_neg (by simp [hdigit, hpoint]), if_neg hplace,
    if_neg hparameter, if_pos ⟨hmark, rfl⟩, List.drop_one, List.tail_cons, htake, hdrop] at h
  split at h
  · cases h
    exact ⟨_, _, by simp, .blob hmark hdigits ‹hexBytes digits = some _›, fun _ _ => rfl⟩
  · exact absurd (Prod.mk.inj h).1.symm hkind

/-- Words and signs. -/
theorem exists_form_other (hc : c ∉ ['\'', '"', Char.ofNat 96, '[', '?', ':', '@', '$', '#'])
    (hnumber : ¬ BeginsNumber (c :: cs)) (hblob : IsHexMark c → cs.head? ≠ some '\'') :
    ∃ text more, c :: cs = text ++ rest ∧ Form kind text more ∧ ∀ d ∈ rest.head?, more d = false := by
  rw [nextLexeme_other hc hnumber hblob] at h
  split at h
  case isTrue hstart =>
    cases h
    obtain ⟨name, behind, rfl, hname, hstop, -, hdrop⟩ := exists_run isNameChar cs
    rw [hdrop]
    refine ⟨_, _, rfl, .word hstart hname, fun d hd => ?_⟩
    rw [hstop d hd, Bool.false_or, ← Bool.not_eq_true]
    simp only [Bool.and_eq_true, List.isEmpty_iff, decide_eq_true_eq, beq_iff_eq]
    rintro ⟨⟨rfl, hmark⟩, rfl⟩
    exact hblob hmark hd
  split at h
  case isTrue hdouble =>
    cases h
    obtain ⟨d, hd, hsign⟩ := (Option.any_eq_true ..).1 hdouble
    obtain ⟨behind, rfl⟩ := List.head?_eq_some_iff.1 hd
    exact ⟨_, _, rfl, .doubleSign (List.contains_iff_mem.1 hsign), fun _ _ => rfl⟩
  rename_i hdouble
  split at h
  case isTrue hsign =>
    cases h
    refine ⟨_, _, rfl, .sign (List.contains_iff_mem.1 hsign), fun d hd => ?_⟩
    simp only [Bool.or_eq_false_iff, Bool.and_eq_false_imp, beq_iff_eq]
    refine ⟨Bool.eq_false_iff.2 fun hcd => hdouble ((Option.any_eq_true ..).2 ⟨d, hd, hcd⟩), fun hpoint => ?_⟩
    rw [← Bool.not_eq_true]
    exact fun hdigit => hnumber ⟨c, cs, rfl, .inr ⟨hpoint, d, hd, hdigit⟩⟩
  case isFalse => exact absurd (Prod.mk.inj h).1.symm hkind

end Reading

/-- What is read as a token has one of the forms, and the next character does not go on with it. -/
theorem exists_form {kind : LexemeKind} (h : nextLexeme cs = (kind, rest)) (hkind : kind ≠ .illegal) :
    ∃ text more, cs = text ++ rest ∧ Form kind text more ∧ ∀ c ∈ rest.head?, more c = false := by
  cases cs with
  | nil => exact absurd (Prod.mk.inj h).1.symm hkind
  | cons c cs =>
    by_cases hnumber : BeginsNumber (c :: cs)
    · rw [nextLexeme_number hnumber] at h
      split at h
      · exact absurd (Prod.mk.inj h).1.symm hkind
      · rename_i hname
        cases h
        exact exists_number rfl hnumber (option_getD_eq_false.1 (by simpa using hname))
    by_cases hquoted : c = '\'' ∨ c = '"' ∨ c = Char.ofNat 96 ∨ c = '['
    · exact exists_form_quoted h hkind hquoted
    by_cases hparameter : c = '?' ∨ c = ':' ∨ c = '@' ∨ c = '$' ∨ c = '#'
    · exact exists_form_parameter h hkind hparameter
    by_cases hblob : IsHexMark c ∧ cs.head? = some '\''
    · exact exists_form_blob h hkind hblob.1 hblob.2
    refine exists_form_other h hkind ?_ hnumber fun hmark hquote => hblob ⟨hmark, hquote⟩
    simp only [not_or] at hquoted hparameter
    simp only [List.mem_cons, List.not_mem_nil, or_false, not_or]
    exact ⟨hquoted.1, hquoted.2.1, hquoted.2.2.1, hquoted.2.2.2, hparameter⟩

end Sql

end GuardedConfig
