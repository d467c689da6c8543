import GuardedConfig.Text.Category

/-!
# `Text.Word` — letters, digits, word characters and blanks

The character classes that names, types and patterns are made of. All are classes of the whole Unicode range;
on ASCII each is decided without a table.

## Contents

* `isAlphabetic`, `isNumeric`, `isAlphanumeric` — letters and numbers of any script
* `isDigit`, `isBlank`, `isWord` — the classes written `\d`, `\s` and `\w` in patterns
* `isUpper`, `isLower` — cased characters
* `toNat_of_isAsciiLetter`, `toLower_cases` — ASCII letters and their lower case
-/

namespace GuardedConfig.Text

/-- Alphabetic characters that are not letters by category: vowel signs, circled letters and the like. -/
def otherAlphabetic : Runs Bool := .ofGaps
  "345 1 26a e 1 1 1 2 1 2 1 1 48 b 30 d 1 7 10 1 65 7 4 4 2 2 4 1 23 1 1e 10 66 b 65 2 3 9 1 3 1
   4 a7 c 3 7 6 14 36 2 2 f 1 2 5 3 a 2 1d 3 3a 7 2 2 2 2 a 1 a 2 1d 3 3a 5 4 2 2 2 4 1 1e 2 3 1 b
   3 3a 8 1 3 1 2 15 2 16 3 4 3 3a 7 2 2 2 2 9 2 a 2 1e 1 3b 5 3 3 1 3 a 1 28 5 39 7 1 3 1 3 8 2 b
   2 1d 3 3a 7 1 3 1 3 8 2 b 2 f 1 c 4 3a 7 1 3 1 3 a 1 a 2 1d 3 4b 6 1 1 1 8 12 2 3d 1 2 7 12 1
   63 1 2 6 1 2 10 1 a3 13 9 b 1 24 6e c 1 1 2 4 17 4 4 3 1 3 2 7 3 4 d c 1 1 a 4 674 2 1e 2 1e 2
   1e 2 42 13 bc 2 22 1 76 c 4 9 de 5 39 a 2 14 4a 2 b 3 31 5 30 f 3c 3 1e 9 2 2 39 b 32 13 1b0 e
   6c1 34 8f6 20 7874 8 22 2 162 1 8 1 17 5 58 2 32 10 1 1 39 1 26 5 1c c 2d 4 30 c 25 1 43 e c 1
   8 2 2d 3 32 1 1 3 2 2 5 1 2c 5 5 1 ed 8 4f33 1 857 5 686 3 1 2 5 4 314 4 183 2 153 3 35 e 2d 2
   b 3 2d 9 9 1 3d 3 24 c 12 2 39 3 30 d e 2 5c 9 2 1 6 1 2 1 9d a 17 4 3a 7 2 2 2 2 a 1 a 2 d1 d
   1 3 6a 12 ed 7 2 7 1d 2 52 f 1 1 6a b 67 e 101 d f7 6 1 2 2 2 3 1 1 1 8e 7 2 6 4 1 1c a 2a 5 1
   4 12 b 2e e 197 8 1 7 53 16 1 e 7a 6 3 1 1 2 1 3 1 1 3 1 42 5 1 2 1 4 15c 4 9 2 1 1 30 7 3 3
   500e 1 1 37 7 4 5d 2 4cac 1 2361 7 1 11 2 7 1 2 1 5 64 1 8b7 1 7e8 1a 6 1a 6 1a"

/-- Upper-case characters that are not upper-case letters: Roman numerals and enclosed letters. -/
def otherUpper : Runs Bool := .ofGaps "2160 10 346 1a 1cc60 1a 6 1a 6 1a"

/-- Lower-case characters that are not lower-case letters: modifier letters, Roman numerals and the like. -/
def otherLower : Runs Bool := .ofGaps
  "aa 1 f 1 1f5 9 7 2 1e 5 60 1 34 1 d81 1 c2f 3f d 1 22 25 2b1 1 d 1 10 d d3 10 350 1a 792 2 7a1e
   2 d2 1 81 3 3 2 362 4 9 1 5c16 1 2 3 1 2a 1 9 d875 3e"

/-- An ASCII letter. -/
def isAsciiLetter (c : Char) : Bool := ('a' ≤ c && c ≤ 'z') || ('A' ≤ c && c ≤ 'Z')

/-- An ASCII digit. -/
def isAsciiDigit (c : Char) : Bool := '0' ≤ c && c ≤ '9'

/-- A letter of any script, or a sign that is used as one. -/
def isAlphabetic (c : Char) : Bool :=
  if c.toNat < 128 then isAsciiLetter c
  else (category c).startsWith "L" || category c == "Nl" || otherAlphabetic.contains c.toNat

/-- A number sign of any script, fractions and Roman numerals included. -/
def isNumeric (c : Char) : Bool :=
  if c.toNat < 128 then isAsciiDigit c else (category c).startsWith "N"

/-- A letter or a number sign of any script. -/
def isAlphanumeric (c : Char) : Bool := isAlphabetic c || isNumeric c

/-- A decimal digit of any script. -/
def isDigit (c : Char) : Bool :=
  if c.toNat < 128 then isAsciiDigit c else category c == "Nd"

/-- White space: the ASCII blanks, the next-line control and the space and line separators. -/
def isBlank (c : Char) : Bool :=
  let n := c.toNat
  (9 ≤ n && n ≤ 13) || n == 0x20 || n == 0x85 || n == 0xa0 || n == 0x1680 || (0x2000 ≤ n && n ≤ 0x200a)
    || n == 0x2028 || n == 0x2029 || n == 0x202f || n == 0x205f || n == 0x3000

/-- A character of a word: letters, marks, decimal digits, connecting punctuation and joiners. No blank is one. -/
def isWord (c : Char) : Bool :=
  if c.toNat < 128 then isAsciiLetter c || isAsciiDigit c || c == '_'
  else !isBlank c && (isAlphabetic c || (category c).startsWith "M" || category c == "Nd" || category c == "Pc"
    || c.toNat == 0x200c || c.toNat == 0x200d)

/-- An upper-case character. -/
def isUpper (c : Char) : Bool :=
  if c.toNat < 128 then 'A' ≤ c && c ≤ 'Z' else category c == "Lu" || otherUpper.contains c.toNat

/-- A lower-case character. -/
def isLower (c : Char) : Bool :=
  if c.toNat < 128 then 'a' ≤ c && c ≤ 'z' else category c == "Ll" || otherLower.contains c.toNat

theorem isWord_of_isBlank {c : Char} (h : isBlank c = true) : isWord c = false := by
  by_cases hlow : c.toNat < 128
  · have hall : ∀ n < 128, isBlank (Char.ofNat n) = true → isWord (Char.ofNat n) = false := by decide
    have := hall c.toNat hlow
    rw [Char.ofNat_toNat] at this
    exact this h
  · rw [isWord, if_neg hlow, h]
    rfl

/-! ## ASCII letters -/

theorem toNat_of_isAsciiLetter {c : Char} (h : isAsciiLetter c = true) :
    65 ≤ c.toNat ∧ c.toNat ≤ 90 ∨ 97 ≤ c.toNat ∧ c.toNat ≤ 122 := by
  simp only [isAsciiLetter, Bool.or_eq_true, Bool.and_eq_true, decide_eq_true_eq, Char.le_def,
    UInt32.le_iff_toNat_le] at h
  exact h.symm

theorem isWord_of_isAsciiLetter {c : Char} (h : isAsciiLetter c = true) : isWord c = true := by
  have hlow : c.toNat < 128 := by
    have := toNat_of_isAsciiLetter h
    omega
  rw [isWord, if_pos hlow, h, Bool.true_or, Bool.true_or]

/-- A character has an ASCII upper case letter's lower case, or is its own. -/
theorem toLower_cases (c : Char) : isAsciiLetter c = true ∧ c.toNat < 128 ∨ c.toLower = c := by
  by_cases h : c.val ≥ 'A'.val ∧ c.val ≤ 'Z'.val
  · refine .inl ⟨?_, ?_⟩
    · simp only [isAsciiLetter, Bool.or_eq_true, Bool.and_eq_true, decide_eq_true_eq, Char.le_def]
      exact .inr h
    · have hle : c.toNat ≤ 90 := UInt32.le_iff_toNat_le.1 h.2
      omega
  · exact .inr (dif_neg h)

theorem isAsciiLetter_of_toLower {c : Char} (h : isAsciiLetter c.toLower = true) : isAsciiLetter c = true := by
  rcases toLower_cases c with ⟨hletter, -⟩ | hc
  · exact hletter
  · rwa [hc] at h

end GuardedConfig.Text
