import GuardedConfig.Field.Argument
import Mathlib.Data.Nat.Digits.Defs

/-!
# `Proofs.Suffix` — the suffix tells the argument

Two arguments of one template are told apart by their suffixes: the suffix of a number writes `m` for a minus sign and
`p` for a point, and neither letter stands in the text of a number, so the literal can be read back from it. The suffix
of a text is the text itself.

## Contents

* `IsNumeral` — texts without the two letters
* `isNumeral_writeSigned`, `isNumeral_intText` — numbers are written so
* `argument_eq_of_suffix`
-/

namespace GuardedConfig.Field

open Decimal Text Schema

/-- A text without the letters that stand for signs and points in a suffix. -/
def IsNumeral (s : String) : Prop := ∀ c ∈ s.toList, c ≠ 'm' ∧ c ≠ 'p'

instance (s : String) : Decidable (IsNumeral s) :=
  inferInstanceAs (Decidable (∀ c ∈ s.toList, c ≠ 'm' ∧ c ≠ 'p'))

theorem IsNumeral.append {s t : String} (hs : IsNumeral s) (ht : IsNumeral t) : IsNumeral (s ++ t) := by
  intro c hc
  rw [String.toList_append] at hc
  rcases List.mem_append.1 hc with hc | hc
  · exact hs c hc
  · exact ht c hc

/-! ## Digits -/

theorem digit_lt_of_mem {n d : Nat} (h : d ∈ digitsOf n) : d < 10 := by
  obtain ⟨c, hc, rfl⟩ := List.mem_map.1 h
  have hdigit := Nat.isDigit_of_mem_toDigits (by decide) (Nat.le_refl 10) hc
  simp only [Char.isDigit, Bool.and_eq_true, decide_eq_true_eq] at hdigit
  have hle : c.toNat ≤ 57 := hdigit.2
  omega

theorem isNumeral_digitText {ds : List Nat} (h : ∀ d ∈ ds, d < 10) : IsNumeral (digitText ds) := by
  have hchar : ∀ d < 10, digitChar d ≠ 'm' ∧ digitChar d ≠ 'p' := by decide
  intro c hc
  rw [digitText, String.toList_ofList] at hc
  obtain ⟨d, hd, rfl⟩ := List.mem_map.1 hc
  exact hchar d (h d hd)

theorem digit_lt_of_append_zeros {ds zeros : List Nat} (h : ∀ d ∈ ds, d < 10) {k : Nat}
    (hzeros : zeros = List.replicate k 0) : (∀ d ∈ zeros ++ ds, d < 10) ∧ ∀ d ∈ ds ++ zeros, d < 10 := by
  subst hzeros
  have hzero : ∀ d ∈ List.replicate k 0, d < 10 := fun d hd => by
    rw [List.eq_of_mem_replicate hd]
    decide
  exact ⟨List.forall_mem_append.2 ⟨hzero, h⟩, List.forall_mem_append.2 ⟨h, hzero⟩⟩

theorem isNumeral_pointAnd {ds : List Nat} (h : ∀ d ∈ ds, d < 10) : IsNumeral (pointAnd ds) := by
  refine .append (by decide) (isNumeral_digitText ?_)
  split
  · decide
  · exact h

theorem isNumeral_paddedNat (width n : Nat) : IsNumeral (paddedNat width n) :=
  isNumeral_digitText (digit_lt_of_append_zeros (fun _ => digit_lt_of_mem) rfl).1

/-! ## Numbers -/

theorem isNumeral_write {f : Places} (hplus : IsNumeral f.plus) {d : Digits} (h : ∀ x ∈ d.digits, x < 10) :
    IsNumeral (f.write d) := by
  have hpart : ∀ {ds : List Nat}, ds ⊆ d.digits → ∀ x ∈ ds, x < 10 := fun hsub x hx => h x (hsub hx)
  unfold Places.write
  dsimp only
  split
  · split
    · exact .append (by decide) (isNumeral_pointAnd (digit_lt_of_append_zeros h rfl).1)
    · refine .append (isNumeral_digitText ?_) (isNumeral_pointAnd (hpart (List.drop_subset _ _)))
      exact (digit_lt_of_append_zeros (hpart (List.take_subset _ _)) rfl).2
  · have hmark : IsNumeral (if (d.digits.drop 1).isEmpty && !f.scientificPoint then "" else
        pointAnd (d.digits.drop 1)) := by
      split
      · decide
      · exact isNumeral_pointAnd (hpart (List.drop_subset _ _))
    have hsign : IsNumeral (if d.power < 0 then "-" else f.plus) := by
      split
      · decide
      · exact hplus
    have he : IsNumeral "e" := by decide
    exact ((((isNumeral_digitText (hpart (List.take_subset _ _))).append hmark).append he).append hsign).append
      (isNumeral_paddedNat _ _)

theorem isNumeral_writeSigned {f : Places} (hplus : IsNumeral f.plus) {digits : Binary64 → Digits}
    (h : ∀ x, ∀ d ∈ (digits x).digits, d < 10) (x : Binary64) : IsNumeral (f.writeSigned digits x) := by
  have hbody : IsNumeral (if x.isZero then f.write ⟨[0], 0⟩ else f.write (digits x)) := by
    split
    · exact isNumeral_write hplus (by decide)
    · exact isNumeral_write hplus (h x)
  unfold Places.writeSigned
  dsimp only
  split
  · exact .append (by decide) hbody
  · exact hbody

theorem digit_lt_of_mem_shortest {tie : Tie} {x : Binary64} : ∀ d ∈ (shortest tie x).digits, d < 10 := by
  intro d hd
  have hmem : d ∈ digitsOf (shortestFrom (Interval.of x) (leadingPower (Interval.of x).value (Interval.of x).den)
      tie 1 18).1 := List.mem_reverse.1 (List.dropWhile_subset _ (List.mem_reverse.1 hd))
  exact digit_lt_of_mem hmem

theorem isNumeral_argumentReal (x : Binary64) : IsNumeral (argumentReal x) :=
  isNumeral_writeSigned (by decide) (fun _ => digit_lt_of_mem_shortest) x

theorem isNumeral_intText (n : Int) : IsNumeral (Json.intText n) := by
  have hdigits : IsNumeral (digitText (digitsOf n.natAbs)) := isNumeral_digitText fun _ => digit_lt_of_mem
  unfold Json.intText
  split
  · exact .append (by decide) hdigits
  · exact hdigits

/-! ## Suffixes -/

/-- The text of a number is read back from its suffix. -/
theorem replaceChar_numberSuffix {s : String} (h : IsNumeral s) :
    replaceChar 'p' '.' (replaceChar 'm' '-' (numberSuffix s)) = s := by
  unfold numberSuffix replaceChar
  rw [← String.toList_inj]
  simp only [String.toList_ofList, List.map_map]
  refine (List.map_congr_left fun c hc => ?_).trans (List.map_id _)
  obtain ⟨hm, hp⟩ := h c hc
  by_cases hminus : c = '-'
  · subst hminus
    decide
  by_cases hpoint : c = '.'
  · subst hpoint
    decide
  simp [hminus, hpoint, hm, hp]

/-- How an argument is read: a number gets the suffix of its text, and a text is its own suffix. -/
theorem coerce_eq_ok {type raw : String} {a : Argument} (h : coerce type raw = .ok a) :
    (Builtin.ofName? (toUpper type) ≠ some .text ∧ ∃ literal, IsNumeral literal ∧ a = ⟨literal, numberSuffix literal⟩) ∨
      (Builtin.ofName? (toUpper type) = some .text ∧ ∃ inner, a = ⟨"'" ++ inner ++ "'", inner⟩) := by
  unfold coerce at h
  dsimp only at h
  split at h
  case h_1 hinteger =>
    refine .inl ⟨by rw [hinteger]; nofun, ?_⟩
    split at h
    · cases h
      exact ⟨_, isNumeral_intText _, rfl⟩
    · cases h
  case h_2 hreal =>
    refine .inl ⟨by rw [hreal]; nofun, ?_⟩
    split at h
    · split at h
      · cases h
        exact ⟨_, isNumeral_argumentReal _, rfl⟩
      · cases h
    · cases h
  case h_3 htext =>
    refine .inr ⟨htext, ?_⟩
    split at h
    · cases h
    · cases h
      exact ⟨_, rfl⟩
  case h_4 => cases h

/-- **The suffix tells the argument**: two arguments of one type with the same suffix have the same literal. -/
theorem argument_eq_of_suffix {type raw raw' : String} {a b : Argument} (ha : coerce type raw = .ok a)
    (hb : coerce type raw' = .ok b) (h : a.suffix = b.suffix) : a = b := by
  obtain ⟨hnumber, literal, hliteral, rfl⟩ | ⟨htext, inner, rfl⟩ := coerce_eq_ok ha <;>
    obtain ⟨hnumber', literal', hliteral', rfl⟩ | ⟨htext', inner', rfl⟩ := coerce_eq_ok hb
  · have hread := congrArg (fun s => replaceChar 'p' '.' (replaceChar 'm' '-' s)) h
    dsimp only at hread
    rw [replaceChar_numberSuffix hliteral, replaceChar_numberSuffix hliteral'] at hread
    rw [hread]
  · exact absurd htext' hnumber
  · exact absurd htext hnumber'
  · rw [show inner = inner' from h]

end GuardedConfig.Field
