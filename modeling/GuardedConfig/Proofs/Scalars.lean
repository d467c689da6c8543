import GuardedConfig.Plan.Scalar
import GuardedConfig.Proofs.JsonValues

/-!
# `Proofs.Scalars` — what the store keeps of a value

A store has whole numbers with a sign only. So there are JSON numbers that it cannot keep as they are, those between the
63rd and the 64th power of two. They are not refused: they are kept as the nearest double-precision numbers. Every other
number, every string and null are given back as they were, and so are the stored values of these kinds.

## Contents

* `Value.GivenBack` — the stored values that are JSON values of the same kind
* `toStored_ofStored`, `ofStored_toStored_iff` — the two ways round
* `toStored_large` — the numbers that are rounded
* `scalars_kept`
-/

namespace GuardedConfig

open Decimal Binary64

/-- Null, the whole numbers that a store has, finite reals and texts. -/
def Sql.Value.GivenBack : Sql.Value → Prop
  | .integer n => isInt64 n = true
  | .real x => x.isFinite = true
  | .blob _ => False
  | _ => True

namespace Plan

variable {v : Json} {n : Int}

/-! ## From the store and back -/

/-- What is read from the store and written again is the same value. -/
theorem toStored_ofStored {s : Sql.Value} (h : s.GivenBack) : toStored (ofStored s) = .ok s := by
  cases s with
  | null => rfl
  | integer n =>
    have hinteger : toStored (.int n) = .ok (.integer n) :=
      congrArg Except.ok (if_pos (show isInt64 n = true from h))
    exact hinteger
  | real x =>
    have hreal : ofStored (.real x) = .real x := if_pos h
    rw [hreal]
    rfl
  | text s => rfl
  | blob bytes => exact h.elim

/-! ## To the store and back -/

theorem isInt64_iff (h : Fits64 n) : isInt64 n = true ↔ n ≤ maxInt := by
  unfold isInt64
  simp [h.1]

/-- A whole number that needs the 64th bit becomes the nearest double-precision number. -/
theorem toStored_large (h : Fits64 n) (hlarge : maxInt < n) : toStored (.int n) = .ok (.real (.ofInt n)) ∧
    ofStored (.real (.ofInt n)) = .real (.ofInt n) ∧ (ofInt n).toInt? = some (nearest n) ∧
    (nearest n - n).natAbs ≤ 2 ^ 10 := by
  have hnot : ¬ isInt64 n = true := fun hfits => absurd ((isInt64_iff h).1 hfits) (not_le.2 hlarge)
  refine ⟨congrArg Except.ok (if_neg hnot), if_pos (isFinite_ofInt h.log2_lt_exponent),
    toInt?_ofInt h.log2_lt_exponent, ?_⟩
  have herror := nearest_error n
  have hplace := h.lastPlace_le
  omega

/-- Null, a string or a number is given back as it was, exactly if it is no whole number that needs the 64th bit. -/
theorem ofStored_toStored_iff (h : v.Proper) (hscalar : v.isScalar = true) (hbool : ∀ b, v ≠ .bool b) :
    ∃ s, toStored v = .ok s ∧ (ofStored s = v ↔ ∀ n, v = .int n → n ≤ maxInt) := by
  cases h with
  | null => exact ⟨.null, rfl, ⟨fun _ => nofun, fun _ => rfl⟩⟩
  | bool b => exact absurd rfl (hbool b)
  | @int n hfits =>
    rcases le_or_gt n maxInt with hle | hlarge
    · refine ⟨.integer n, congrArg Except.ok (if_pos ((isInt64_iff hfits).2 hle)), ⟨fun _ m hm => ?_, fun _ => rfl⟩⟩
      cases hm
      exact hle
    · obtain ⟨hstored, hback, -⟩ := toStored_large hfits hlarge
      refine ⟨_, hstored, ⟨fun heq => ?_, fun hall => absurd (hall n rfl) (not_le.2 hlarge)⟩⟩
      rw [hback] at heq
      cases heq
  | @real x hfinite => exact ⟨.real x, rfl, ⟨fun _ => nofun, fun _ => if_pos hfinite⟩⟩
  | str s => exact ⟨.text s, rfl, ⟨fun _ => nofun, fun _ => rfl⟩⟩
  | arr _ => cases hscalar
  | obj _ _ => cases hscalar

/-- **What the store keeps of a value.** Null, every string and every number of JSON can be stored, and each of them is
given back as it was, exactly if it is no whole number from the 63rd power of two on. Such a number is given back as the
nearest double-precision number, which is off by up to 1024. Arrays and objects cannot be stored, and the truth values
are stored as 1 and 0. Stored values other than bytes and reals that are not finite are the same after they have been
read and stored again. -/
theorem scalars_kept (v : Json) (h : v.Proper) :
    (v.isScalar = true → (∀ b, v ≠ .bool b) →
      ∃ s, toStored v = .ok s ∧ (ofStored s = v ↔ ∀ n, v = .int n → n ≤ maxInt)) ∧
    (∀ n, v = .int n → maxInt < n → toStored v = .ok (.real (.ofInt n)) ∧
      ofStored (.real (.ofInt n)) = .real (.ofInt n) ∧ (ofInt n).toInt? = some (nearest n) ∧
      (nearest n - n).natAbs ≤ 2 ^ 10) ∧
    (v.isScalar = false → toStored v = .error (.notScalar v)) ∧
    (∀ b, v = .bool b → toStored v = .ok (.integer (if b then 1 else 0))) ∧
    ∀ s : Sql.Value, s.GivenBack → toStored (ofStored s) = .ok s := by
  refine ⟨ofStored_toStored_iff h, ?large, ?parts, ?truth, fun s => toStored_ofStored⟩
  case large =>
    rintro n rfl hlarge
    cases h with
    | int hfits => exact toStored_large hfits hlarge
  case parts =>
    intro hparts
    cases v with
    | arr items => rfl
    | obj ms => rfl
    | _ => cases hparts
  case truth =>
    rintro b rfl
    rfl

theorem scalars_kept_largest :
    (∃ s, toStored (.int maxInt) = .ok s ∧ (ofStored s = .int maxInt ↔ ∀ n, Json.int maxInt = .int n → n ≤ maxInt)) ∧
    toStored (.int (maxInt + 1)) = .ok (.real (.ofInt (maxInt + 1))) ∧
    toStored (ofStored (.integer minInt)) = .ok (.integer minInt) ∧ toStored (.arr []) = .error (.notScalar (.arr [])) := by
  obtain ⟨hkept, -, -, -, hback⟩ := scalars_kept (.int maxInt) (.int (by decide))
  obtain ⟨-, hlarge, -⟩ := scalars_kept (.int (maxInt + 1)) (.int (by decide))
  obtain ⟨-, -, hparts, -⟩ := scalars_kept (.arr []) (.arr (List.forall_mem_nil _))
  exact ⟨hkept rfl nofun, (hlarge _ rfl (by decide)).1, hback (.integer minInt) (show isInt64 minInt = true by decide),
    hparts rfl⟩

/-- The largest whole number of 64 bits is stored as the next power of two. -/
theorem largest_word_rounded : toStored (.int (2 ^ 64 - 1)) = .ok (.real (.ofInt (2 ^ 64))) ∧
    ofStored (.real (.ofInt (2 ^ 64))) = .real (.ofInt (2 ^ 64)) := ⟨rfl, rfl⟩

end Plan

end GuardedConfig
