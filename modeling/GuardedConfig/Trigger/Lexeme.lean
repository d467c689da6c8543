import GuardedConfig.Decimal.Numeral
import GuardedConfig.Trigger.Syntax

/-!
# `Trigger.Lexeme` — the tokens of a trigger body

Words, numbers, strings and signs. Spaces, tabs and line breaks separate tokens, and so does a comment, which
begins with `#` and ends before the next line break. Words are as long as possible, so `letter` is one word and
not `let` with something behind it.

## Contents

* `Lexeme`, `keywords`
* `skipBlanks`, `nextLexeme`
* `lexemes` — all tokens of a text, if it consists of tokens
-/

namespace GuardedConfig.Trigger

open Text Decimal

/-- The signs of the language. -/
inductive Sign where
  | assign | semicolon | comma | dot | bang
  | openParen | closeParen | openBracket | closeBracket | openBrace | closeBrace
deriving DecidableEq, Repr, Inhabited

/-- The character of a sign. -/
def Sign.char : Sign → Char
  | assign => '='
  | semicolon => ';'
  | comma => ','
  | dot => '.'
  | bang => '!'
  | openParen => '('
  | closeParen => ')'
  | openBracket => '['
  | closeBracket => ']'
  | openBrace => '\x7b'
  | closeBrace => '\x7d'

/-- All signs. -/
def Sign.all : List Sign :=
  [assign, semicolon, comma, dot, bang, openParen, closeParen, openBracket, closeBracket, openBrace, closeBrace]

/-- A token. -/
inductive Lexeme where
  | word (text : String)
  | number (text : String)
  | string (text : String)
  | sign (s : Sign)
  | comparison (c : Comparison)
deriving DecidableEq, Repr, Inhabited

/-- The words that are no names. -/
def keywords : List String := ["let", "if", "else", "return", "true", "false", "null"]

/-! ## Characters -/

/-- The blanks between tokens. -/
def isGap (c : Char) : Bool := c == ' ' || c == '\t' || c == '\r' || c == '\n'

/-- The first character of a word. -/
def isWordStart (c : Char) : Bool := isAsciiLetter c || c == '_'

/-- A further character of a word. -/
def isWordChar (c : Char) : Bool := isAsciiLetter c || isAsciiDigit c || c == '_'

/-- The text after blanks and comments. -/
def skipBlanks (cs : List Char) : List Char :=
  match cs with
  | [] => []
  | c :: rest =>
    if isGap c then skipBlanks rest
    else if c = '#' then skipBlanks (rest.dropWhile (· != '\n'))
    else c :: rest
termination_by cs.length
decreasing_by
  · simp
  · have := (List.dropWhile_sublist (· != '\n') (l := rest)).length_le
    simp only [List.length_cons]; omega

theorem length_skipBlanks (cs : List Char) : (skipBlanks cs).length ≤ cs.length := by
  fun_induction skipBlanks cs with
  | case1 => simp
  | case2 c rest _ ih => simp only [List.length_cons]; omega
  | case3 rest _ ih =>
    have := (List.dropWhile_sublist (· != '\n') (l := rest)).length_le
    simp only [List.length_cons]; omega
  | case4 => simp

/-! ## Tokens -/

/-- The character that an escape stands for; an unknown escape stands for itself with its backslash, so patterns
read naturally. -/
def unescape (c : Char) : List Char :=
  match c with
  | 'n' => ['\n']
  | 't' => ['\t']
  | 'r' => ['\r']
  | '"' => ['"']
  | '\\' => ['\\']
  | c => ['\\', c]

/-- The text of a string after its opening quote, and what follows its closing quote. -/
def takeString : List Char → Option (List Char × List Char)
  | [] => none
  | '"' :: rest => some ([], rest)
  | '\\' :: c :: rest => (takeString rest).map fun (s, after) => (unescape c ++ s, after)
  | c :: rest => if c = '\\' then none else (takeString rest).map fun (s, after) => (c :: s, after)

theorem length_takeString {cs s after : List Char} (h : takeString cs = some (s, after)) :
    after.length < cs.length := by
  fun_induction takeString cs generalizing s with
  | case1 => simp at h
  | case2 => simp_all
  | case3 c rest ih =>
    obtain ⟨⟨t, a⟩, ht, he⟩ := Option.map_eq_some_iff.1 h
    simp only [Prod.mk.injEq] at he
    have := ih (he.2 ▸ ht)
    simp only [List.length_cons]; omega
  | case4 => simp at h
  | case5 c rest _ _ _ ih =>
    obtain ⟨⟨t, a⟩, ht, he⟩ := Option.map_eq_some_iff.1 h
    simp only [Prod.mk.injEq] at he
    have := ih (he.2 ▸ ht)
    simp only [List.length_cons]; omega

/-- The fraction of a number: a point and at least one digit. -/
def takeFraction (cs : List Char) : List Char :=
  match cs with
  | '.' :: rest => if (takeDigits rest).1.isEmpty then [] else '.' :: (takeDigits rest).1
  | _ => []

/-- The digits of a number with their fraction. -/
def takeNumber (cs : List Char) : List Char :=
  (takeDigits cs).1 ++ takeFraction (takeDigits cs).2

/-- The comparison or sign at the front of a text. -/
def takeSymbol : List Char → Option (Lexeme × List Char)
  | '=' :: '=' :: rest => some (.comparison .eq, rest)
  | '!' :: '=' :: rest => some (.comparison .ne, rest)
  | '<' :: '=' :: rest => some (.comparison .le, rest)
  | '>' :: '=' :: rest => some (.comparison .ge, rest)
  | '<' :: rest => some (.comparison .lt, rest)
  | '>' :: rest => some (.comparison .gt, rest)
  | c :: rest => (Sign.all.find? (·.char == c)).map fun s => (.sign s, rest)
  | [] => none

/-- The token at the front of a text that begins with no blank, and what follows it. -/
def nextLexeme (cs : List Char) : Option (Lexeme × List Char) :=
  match cs with
  | [] => none
  | c :: rest =>
    if isWordStart c then
      some (.word (String.ofList (c :: rest.takeWhile isWordChar)), rest.dropWhile isWordChar)
    else if isAsciiDigit c then
      some (.number (String.ofList (takeNumber cs)), cs.drop (takeNumber cs).length)
    else if c = '-' then
      if (takeDigits rest).1.isEmpty then none
      else some (.number (String.ofList ('-' :: takeNumber rest)), rest.drop (takeNumber rest).length)
    else if c = '"' then (takeString rest).map fun (s, after) => (.string (String.ofList s), after)
    else takeSymbol cs

theorem length_takeSymbol {cs rest : List Char} {l : Lexeme} (h : takeSymbol cs = some (l, rest)) :
    rest.length < cs.length := by
  fun_cases takeSymbol cs <;> simp_all [takeSymbol]
  all_goals grind

theorem takeNumber_ne_nil {c : Char} (rest : List Char) (h : isAsciiDigit c = true) :
    takeNumber (c :: rest) ≠ [] := by
  simp [takeNumber, takeDigits, h]

theorem length_nextLexeme {cs rest : List Char} {l : Lexeme} (h : nextLexeme cs = some (l, rest)) :
    rest.length < cs.length := by
  unfold nextLexeme at h
  split at h
  · simp at h
  · rename_i c tail
    split at h
    · have := (List.dropWhile_sublist isWordChar (l := tail)).length_le
      simp only [Option.some.injEq, Prod.mk.injEq] at h
      simp only [← h.2, List.length_cons]; omega
    · split at h
      · rename_i hd
        have hne := List.length_pos_iff.mpr (takeNumber_ne_nil tail hd)
        simp only [Option.some.injEq, Prod.mk.injEq] at h
        simp only [← h.2, List.length_drop, List.length_cons]; omega
      · split at h
        · split at h
          · simp at h
          · simp only [Option.some.injEq, Prod.mk.injEq] at h
            simp only [← h.2, List.length_drop, List.length_cons]; omega
        · split at h
          · obtain ⟨⟨t, a⟩, ht, he⟩ := Option.map_eq_some_iff.1 h
            simp only [Prod.mk.injEq] at he
            have := length_takeString (he.2 ▸ ht)
            simp only [List.length_cons]; omega
          · exact length_takeSymbol h

/-- The tokens of a text; none if some part of it is no token. -/
def lexemesOf (cs : List Char) : Option (List Lexeme) :=
  match _h : skipBlanks cs with
  | [] => some []
  | c :: rest =>
    match _hn : nextLexeme (c :: rest) with
    | some (l, after) => (lexemesOf after).map (l :: ·)
    | none => none
termination_by cs.length
decreasing_by
  have := length_nextLexeme _hn
  have := length_skipBlanks cs
  rw [_h] at this
  omega

/-- The tokens of a text. -/
def lexemes (text : String) : Option (List Lexeme) := lexemesOf text.toList

end GuardedConfig.Trigger
