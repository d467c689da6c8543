import GuardedConfig.Proofs.Digits
import GuardedConfig.Proofs.Suffix
import GuardedConfig.Proofs.TokenForms

/-!
# `Proofs.Literals` — the literals of arguments as tokens

An argument is written as a literal of the statement language: a number, which a minus may stand before, or a text of
letters, digits and underscores between quotes. So it is one token, or two if it is negative. It begins no comment, has
none of the characters that end one, and each kind can be told from its first character.

## Contents

* `numberText_write` — reals are written as numbers
* `Literal`, `literal_of_coerce` — every argument is a literal
-/

namespace GuardedConfig

open Text Decimal Sql

namespace Field

open Schema

/-! ## Digits as text -/

/-- Some digits, and nothing else. -/
structure IsDigits (cs : List Char) : Prop where
  nonempty : cs ≠ []
  digits : ∀ c ∈ cs, isAsciiDigit c = true

section Digits

variable {a b : List Nat}

theorem isDigits_digitText (hne : a ≠ []) (h : ∀ d ∈ a, d < 10) : IsDigits (digitText a).toList := by
  have hchar : ∀ d < 10, isAsciiDigit (digitChar d) = true := by decide
  rw [digitText, String.toList_ofList]
  refine ⟨by simpa using hne, fun c hc => ?_⟩
  obtain ⟨d, hd, rfl⟩ := List.mem_map.1 hc
  exact hchar d (h d hd)

theorem isDigits_toDigits (n : Nat) : IsDigits (Nat.toDigits 10 n) := ⟨by simp, Trigger.isAsciiDigit_of_mem_toDigits⟩

/-- A point has digits behind it. -/
theorem toList_pointAnd (h : ∀ d ∈ a, d < 10) : ∃ places, (pointAnd a).toList = '.' :: places ∧ IsDigits places := by
  unfold pointAnd
  rw [String.toList_append]
  split
  · exact ⟨_, rfl, by decide, by decide⟩
  · rename_i hne
    exact ⟨_, rfl, isDigits_digitText (by simpa using hne) h⟩

/-- An exponent has digits behind its sign. -/
theorem toList_exponent (negative : Bool) (width n : Nat) :
    ∃ e, ExponentText e ("e" ++ (if negative then "-" else "") ++ paddedNat width n).toList := by
  have hdigits : IsDigits (paddedNat width n).toList := by
    refine isDigits_digitText ?_ (digit_lt_of_append_zeros (fun _ => digit_lt_of_mem) rfl).1
    simp [digitsOf]
  generalize paddedNat width n = digits at hdigits
  cases negative with
  | true =>
    have htext : ("e" ++ (if true then "-" else "") ++ digits).toList = 'e' :: '-' :: digits.toList := by simp
    rw [htext]
    exact ⟨_, .minus (.inl rfl) hdigits.nonempty hdigits.digits⟩
  | false =>
    have htext : ("e" ++ (if false then "-" else "") ++ digits).toList = 'e' :: digits.toList := by simp
    rw [htext]
    exact ⟨_, .plain (.inl rfl) hdigits.nonempty hdigits.digits⟩

/-! ## Numbers -/

/-- The text of a number that begins with a digit. -/
structure IsNumber (text : List Char) (v : Value) (more : Char → Bool) : Prop where
  number : NumberText v text more
  begins : ∃ c ∈ text.head?, isAsciiDigit c = true

theorem IsDigits.begins {cs : List Char} (h : IsDigits cs) (rest : List Char) :
    ∃ c ∈ (cs ++ rest).head?, isAsciiDigit c = true := by
  obtain ⟨c, cs, rfl⟩ := List.exists_cons_of_ne_nil h.nonempty
  exact ⟨c, rfl, h.digits c List.mem_cons_self⟩

theorem isNumber_toDigits (n : Nat) : ∃ v more, IsNumber (Nat.toDigits 10 n) v more := by
  have h := isDigits_toDigits n
  exact ⟨_, _, .whole h.nonempty h.digits, by simpa using h.begins []⟩

theorem isNumber_fraction (hne : a ≠ []) (ha : ∀ d ∈ a, d < 10) (hb : ∀ d ∈ b, d < 10) :
    ∃ v more, IsNumber (digitText a ++ pointAnd b).toList v more := by
  have hdigits := isDigits_digitText hne ha
  obtain ⟨places, hpoint, hplaces⟩ := toList_pointAnd hb
  rw [String.toList_append, hpoint]
  exact ⟨_, _, .fraction (.inl hdigits.nonempty) hdigits.digits hplaces.digits, hdigits.begins _⟩

theorem isNumber_exponent (hne : a ≠ []) (ha : ∀ d ∈ a, d < 10) (hb : ∀ d ∈ b, d < 10) (negative : Bool)
    (width n : Nat) :
    ∃ v more, IsNumber (digitText a ++ (if b.isEmpty then "" else pointAnd b) ++ "e" ++
      (if negative then "-" else "") ++ paddedNat width n).toList v more := by
  have hdigits := isDigits_digitText hne ha
  obtain ⟨e, hexponent⟩ := toList_exponent negative width n
  rw [String.append_assoc, String.append_assoc, String.append_assoc, String.toList_append, String.toList_append,
    ← String.append_assoc]
  split
  · exact ⟨_, _, .exponent hdigits.nonempty hdigits.digits hexponent, hdigits.begins _⟩
  · obtain ⟨places, hpoint, hplaces⟩ := toList_pointAnd hb
    rw [hpoint]
    exact ⟨_, _, .fractionExponent (.inl hdigits.nonempty) hdigits.digits hplaces.digits hexponent, hdigits.begins _⟩

/-- A real without its sign is written as a number. -/
theorem isNumber_write {d : Digits} (hne : d.digits ≠ []) (h : ∀ x ∈ d.digits, x < 10) :
    ∃ v more, IsNumber (argumentPlaces.write d).toList v more := by
  have hpart : ∀ {a : List Nat}, a ⊆ d.digits → ∀ x ∈ a, x < 10 := fun hsub x hx => h x (hsub hx)
  unfold Places.write
  dsimp only
  split
  · split
    · exact isNumber_fraction (a := [0]) (by decide) (by decide) (digit_lt_of_append_zeros h rfl).1
    · refine isNumber_fraction ?_ (digit_lt_of_append_zeros (hpart (List.take_subset _ _)) rfl).2
        (hpart (List.drop_subset _ _))
      simp [hne]
  · have hnumber := isNumber_exponent (a := d.digits.take 1) (b := d.digits.drop 1) (by simpa using hne)
      (hpart (List.take_subset _ _)) (hpart (List.drop_subset _ _)) (decide (d.power < 0)) 1 d.power.natAbs
    simpa [argumentPlaces] using hnumber

end Digits

/-! ## Literals -/

/-- The literals of arguments, with their tokens. -/
inductive Literal : List Char → List (LexemeKind × List Char) → Prop where
  | number {text : List Char} {v : Value} {more : Char → Bool} : IsNumber text v more → Literal text [(.number v, text)]
  | negative {text : List Char} {v : Value} {more : Char → Bool} : IsNumber text v more →
      Literal ('-' :: text) [(.sign, ['-']), (.number v, text)]
  | text {inside : List Char} : (∀ c ∈ inside, isNameChar c = true) →
      Literal ('\'' :: (inside ++ ['\''])) [(.string (String.ofList inside), '\'' :: (inside ++ ['\'']))]

/-- A real is a literal. -/
theorem literal_argumentReal {x : Binary64} (hfinite : x.isFinite = true) :
    ∃ tokens, Literal (argumentReal x).toList tokens := by
  have hbody : ∃ v more, IsNumber (if x.isZero then argumentPlaces.write ⟨[0], 0⟩
      else argumentPlaces.write (shortest .up x)).toList v more := by
    split
    · exact isNumber_write (by decide) (by decide)
    · rename_i hzero
      exact isNumber_write (digits_shortest_ne_nil (by simpa using hzero) hfinite) digit_lt_of_mem_shortest
  obtain ⟨v, more, hnumber⟩ := hbody
  unfold argumentReal Places.writeSigned
  dsimp only
  split
  · rw [String.toList_append]
    exact ⟨_, .negative hnumber⟩
  · exact ⟨_, .number hnumber⟩

/-- Every argument is a literal. -/
theorem literal_of_coerce {type raw : String} {a : Argument} (h : coerce type raw = .ok a) :
    ∃ tokens, Literal a.literal.toList tokens := by
  unfold coerce at h
  dsimp only at h
  split at h
  · split at h
    · cases h
      obtain ⟨v, more, hnumber⟩ := isNumber_toDigits (Int.natAbs _)
      dsimp only
      rw [Trigger.toList_intText]
      split
      · exact ⟨_, .negative hnumber⟩
      · exact ⟨_, .number hnumber⟩
    · cases h
  · split at h
    · split at h
      · rename_i hfinite
        cases h
        exact literal_argumentReal hfinite
      · cases h
    · cases h
  · split at h
    · cases h
    · rename_i hinside
      cases h
      simp only [Bool.or_eq_true, not_or, Bool.not_eq_true', Bool.not_eq_false, List.all_eq_true] at hinside
      have htext : ∀ inside : List Char,
          ("'" ++ String.ofList inside ++ "'").toList = '\'' :: (inside ++ ['\'']) := by simp
      rw [htext]
      refine ⟨_, .text fun c hc => ?_⟩
      have hchar := hinside.2 c hc
      simp only [isNameChar, Bool.or_eq_true] at hchar ⊢
      exact .inl (.inl hchar)
  · cases h

/-! ### Their characters -/

/-- The characters that literals are made of. -/
def isLiteralChar (c : Char) : Bool := isNameChar c || c == '.' || c == '+' || c == '-' || c == '\''

theorem isLiteralChar_of_name {c : Char} (h : isNameChar c = true) : isLiteralChar c = true := by
  simp [isLiteralChar, h]

theorem isLiteralChar_of_digits {cs : List Char} (h : ∀ c ∈ cs, isAsciiDigit c = true) :
    ∀ c ∈ cs, isLiteralChar c = true := fun c hc => isLiteralChar_of_name (isNameChar_of_isAsciiDigit (h c hc))

theorem isLiteralChar_of_exponentText {e : Int} {text : List Char} (h : ExponentText e text) :
    ∀ c ∈ text, isLiteralChar c = true := by
  have hmark : ∀ mark, mark = 'e' ∨ mark = 'E' → isLiteralChar mark = true := by
    rintro mark (rfl | rfl) <;> decide
  cases h with
  | plain hc _ hdigits => exact List.forall_mem_cons.2 ⟨hmark _ hc, isLiteralChar_of_digits hdigits⟩
  | plus hc _ hdigits =>
    exact List.forall_mem_cons.2 ⟨hmark _ hc, List.forall_mem_cons.2 ⟨by decide, isLiteralChar_of_digits hdigits⟩⟩
  | minus hc _ hdigits =>
    exact List.forall_mem_cons.2 ⟨hmark _ hc, List.forall_mem_cons.2 ⟨by decide, isLiteralChar_of_digits hdigits⟩⟩

theorem IsNumber.isLiteralChar {text : List Char} {v : Value} {more : Char → Bool} (h : IsNumber text v more) :
    ∀ c ∈ text, isLiteralChar c = true := by
  have hpoint : Field.isLiteralChar '.' = true := by decide
  cases h.number with
  | whole _ hdigits => exact isLiteralChar_of_digits hdigits
  | fraction _ hdigits hplaces =>
    exact List.forall_mem_append.2 ⟨isLiteralChar_of_digits hdigits,
      List.forall_mem_cons.2 ⟨hpoint, isLiteralChar_of_digits hplaces⟩⟩
  | exponent _ hdigits htext =>
    exact List.forall_mem_append.2 ⟨isLiteralChar_of_digits hdigits, isLiteralChar_of_exponentText htext⟩
  | fractionExponent _ hdigits hplaces htext =>
    exact List.forall_mem_append.2 ⟨isLiteralChar_of_digits hdigits, List.forall_mem_cons.2 ⟨hpoint,
      List.forall_mem_append.2 ⟨isLiteralChar_of_digits hplaces, isLiteralChar_of_exponentText htext⟩⟩⟩

theorem Literal.isLiteralChar {text : List Char} {tokens : List (LexemeKind × List Char)} (h : Literal text tokens) :
    ∀ c ∈ text, isLiteralChar c = true := by
  cases h with
  | number hnumber => exact hnumber.isLiteralChar
  | negative hnumber => exact List.forall_mem_cons.2 ⟨by decide, hnumber.isLiteralChar⟩
  | text hinside =>
    exact List.forall_mem_cons.2 ⟨by decide,
      List.forall_mem_append.2 ⟨fun c hc => isLiteralChar_of_name (hinside c hc), by decide⟩⟩

/-- What a literal begins with. -/
theorem Literal.begins {text : List Char} {tokens : List (LexemeKind × List Char)} (h : Literal text tokens) :
    ∃ c rest, text = c :: rest ∧
      (isAsciiDigit c = true ∨ c = '-' ∧ (∃ d ∈ rest.head?, isAsciiDigit d = true) ∨ c = '\'') := by
  cases h with
  | number hnumber =>
    obtain ⟨c, hc, hdigit⟩ := hnumber.begins
    obtain ⟨rest, hrest⟩ := List.head?_eq_some_iff.1 hc
    exact ⟨c, rest, hrest, .inl hdigit⟩
  | negative hnumber => exact ⟨_, _, rfl, .inr (.inl ⟨rfl, hnumber.begins⟩)⟩
  | text _ => exact ⟨_, _, rfl, .inr (.inr rfl)⟩

theorem Literal.ne_nil {text : List Char} {tokens : List (LexemeKind × List Char)} (h : Literal text tokens) :
    text ≠ [] := by
  obtain ⟨c, rest, rfl, -⟩ := h.begins
  exact List.cons_ne_nil c rest

end Field

end GuardedConfig
