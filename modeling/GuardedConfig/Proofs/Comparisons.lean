import GuardedConfig.Proofs.Repetitions

/-!
# `Proofs.Comparisons` — comparing whole numbers in triggers

Triggers compare numbers as double-precision numbers. For two whole numbers of 64 bits this is to compare them after
rounding to 53 binary digits, so a comparison says what it says of the numbers themselves unless rounding makes two
different numbers equal. It never turns their order around, and numbers that it takes for equal are both beyond the 53rd
power of two, and close to each other.

## Contents

* `Comparison.relates` — what a comparison says of two whole numbers
* `holds_int` — what it finds
* `relates_nearest_iff` — where the two agree
* `whole_numbers_compared`
-/

namespace GuardedConfig.Trigger

open Decimal Binary64

variable {σ : Type} {host : Host σ} {trigger : String} {vars : Variables} {left right : Expr} {op : Comparison}
  {a b : Int} {v w : Json} {s s₁ s₂ : σ}

/-- What a comparison says of two whole numbers. -/
def Comparison.relates : Comparison → Int → Int → Bool
  | .eq, a, b => decide (a = b)
  | .ne, a, b => decide (a ≠ b)
  | .lt, a, b => decide (a < b)
  | .le, a, b => decide (a ≤ b)
  | .gt, a, b => decide (b < a)
  | .ge, a, b => decide (b ≤ a)

/-! ## What is found -/

/-- Operands are evaluated from left to right, and then compared. -/
theorem outcome_compare {r : Bool} (hleft : outcome (eval host trigger vars left) s = (.ok v, s₁))
    (hright : outcome (eval host trigger vars right) s₁ = (.ok w, s₂)) (h : holds op v w = some r) :
    outcome (eval host trigger vars (.compare left op right)) s = (.ok (.bool r), s₂) := by
  rw [eval, outcome_bind_ok hleft, outcome_bind_ok hright, h]
  rfl

theorem equal_int (ha : Fits64 a) (hb : Fits64 b) : equal (.int a) (.int b) = decide (nearest a = nearest b) :=
  equal_ofInt ha.log2_lt_exponent hb.log2_lt_exponent

theorem order?_int (ha : Fits64 a) (hb : Fits64 b) :
    order? (.int a) (.int b) = some (compare (nearest a) (nearest b)) :=
  compare?_ofInt ha.log2_lt_exponent hb.log2_lt_exponent

/-- Whole numbers are compared after rounding. -/
theorem holds_int (ha : Fits64 a) (hb : Fits64 b) (op : Comparison) :
    holds op (.int a) (.int b) = some (op.relates (nearest a) (nearest b)) := by
  have hequal := equal_int ha hb
  have horder := order?_int ha hb
  have hLT : (compare (nearest a) (nearest b)).isLT = decide (nearest a < nearest b) :=
    Bool.eq_iff_iff.2 (by simp [Int.compare_eq_lt])
  have hLE : (compare (nearest a) (nearest b)).isLE = decide (nearest a ≤ nearest b) :=
    Bool.eq_iff_iff.2 (by simp [Int.isLE_compare])
  have hGT : (compare (nearest a) (nearest b)).isGT = decide (nearest b < nearest a) :=
    Bool.eq_iff_iff.2 (by simp [Int.compare_eq_gt])
  have hGE : (compare (nearest a) (nearest b)).isGE = decide (nearest b ≤ nearest a) :=
    Bool.eq_iff_iff.2 (by simp [Int.isGE_compare])
  cases op <;> simp [holds, Comparison.relates, hequal, horder, hLT, hLE, hGT, hGE]

/-! ## Where it is right -/

/-- A comparison says the same of numbers that are in the same order. -/
theorem relates_congr {c d : Int} (hlt : a < b ↔ c < d) (hgt : b < a ↔ d < c) (op : Comparison) :
    op.relates a b = op.relates c d := by
  cases op <;> simp only [Comparison.relates, decide_eq_decide] <;> omega

/-- Comparisons say of two rounded numbers what they say of the numbers, exactly if these are the same or stay
different. -/
theorem relates_nearest_iff :
    (∀ op : Comparison, op.relates (nearest a) (nearest b) = op.relates a b) ↔ (a = b ∨ nearest a ≠ nearest b) := by
  constructor
  · intro h
    have hequal := h .eq
    simp only [Comparison.relates, decide_eq_decide] at hequal
    tauto
  · rintro (rfl | hne) op
    · exact relates_congr (by simp) (by simp) op
    · have hle := @nearest_mono a b
      have hge := @nearest_mono b a
      exact relates_congr (by omega) (by omega) op

theorem close_of_fits (ha : Fits64 a) (hb : Fits64 b) (hne : a ≠ b) (h : nearest a = nearest b) :
    2 ^ 53 ≤ a.natAbs ∧ 2 ^ 53 ≤ b.natAbs ∧ (a - b).natAbs ≤ 2 ^ 11 := by
  obtain ⟨hlow, hlow', hclose⟩ := close_of_nearest_eq hne h
  exact ⟨hlow, hlow', hclose.trans (max_le ha.lastPlace_le hb.lastPlace_le)⟩

/-- `ASSERT_UNIQUE` on whole numbers. -/
theorem firstRepeated_int {ns : List Int} (hns : ∀ n ∈ ns, Fits64 n) :
    firstRepeated [] (ns.map .int) = none ↔ (ns.map nearest).Nodup := by
  have hproper : ∀ v ∈ ns.map Json.int, v.Proper := by
    intro v hv
    obtain ⟨n, hn, rfl⟩ := List.mem_map.1 hv
    exact .int (hns n hn)
  rw [firstRepeated_eq_none_iff hproper, List.map_map, List.Nodup, List.Nodup, List.pairwise_map, List.pairwise_map]
  refine List.Pairwise.iff_of_mem fun {a b} ha hb => not_congr ?_
  rw [Function.comp_apply, Function.comp_apply, ← equal_iff_view (.int (hns a ha)) (.int (hns b hb)),
    equal_int (hns a ha) (hns b hb), decide_eq_true_iff]

/-- **Whole numbers are compared after rounding them to 53 binary digits.** For whole numbers `a` and `b` of 64 bits,
every comparison of a trigger, `ASSERT_EQUAL` and `ASSERT_UNIQUE` go by the rounded numbers. So `<=` is `<` or `==`, and
`>` and `>=` mirror `<` and `<=`; numbers are never found in the wrong order; and all comparisons say what is so of the
numbers themselves exactly if these are the same or stay different. Numbers that do not are both beyond the 53rd power
of two and no more than 2048 apart. -/
theorem whole_numbers_compared (host : Host σ) (trigger : String) (s : σ) :
    (∀ a b : Int, Fits64 a → Fits64 b →
      (∀ op vars left right s s₁ s₂, outcome (eval host trigger vars left) s = (.ok (.int a), s₁) →
        outcome (eval host trigger vars right) s₁ = (.ok (.int b), s₂) →
        outcome (eval host trigger vars (.compare left op right)) s =
          (.ok (.bool (op.relates (nearest a) (nearest b))), s₂)) ∧
      outcome (call host trigger .assertEqual [.int a, .int b]) s = (.ok (.bool (decide (nearest a = nearest b))), s) ∧
      (holds .le (.int a) (.int b) = some true ↔
        holds .lt (.int a) (.int b) = some true ∨ holds .eq (.int a) (.int b) = some true) ∧
      holds .gt (.int a) (.int b) = holds .lt (.int b) (.int a) ∧
      holds .ge (.int a) (.int b) = holds .le (.int b) (.int a) ∧
      (a ≤ b → holds .le (.int a) (.int b) = some true) ∧
      ((∀ op : Comparison, holds op (.int a) (.int b) = some (op.relates a b)) ↔ (a = b ∨ nearest a ≠ nearest b)) ∧
      (a ≠ b → nearest a = nearest b →
        2 ^ 53 ≤ a.natAbs ∧ 2 ^ 53 ≤ b.natAbs ∧ (a - b).natAbs ≤ 2 ^ 11)) ∧
    ∀ ns : List Int, (∀ n ∈ ns, Fits64 n) →
      ∃ result, outcome (call host trigger .assertUnique [.arr (ns.map .int)]) s = (.ok result, s) ∧
        (result = .null ↔ (ns.map nearest).Nodup) := by
  refine ⟨fun a b ha hb => ?_, fun ns hns => ?_⟩
  · have hholds := holds_int ha hb
    have hmirror := holds_int hb ha
    refine ⟨fun op vars left right s s₁ s₂ hleft hright => outcome_compare hleft hright (hholds op),
      ?_, ?_, ?_, ?_, fun hle => ?_, ?_, close_of_fits ha hb⟩
    · rw [← equal_int ha hb]
      rfl
    · simp only [hholds, Comparison.relates, Option.some.injEq, decide_eq_true_eq]
      omega
    · rw [hholds, hmirror]
      rfl
    · rw [hholds, hmirror]
      rfl
    · rw [hholds]
      exact congrArg some (decide_eq_true (nearest_mono hle))
    · rw [← relates_nearest_iff]
      simp only [hholds, Option.some.injEq]
  · refine ⟨_, call_assertUnique host trigger _ none (List.mem_cons_self ..) s, ?_⟩
    rw [← firstRepeated_int hns, uniqueKeys_none]
    cases firstRepeated [] (ns.map .int) <;> simp

theorem whole_numbers_compared_large : Fits64 (2 ^ 53) ∧ Fits64 (2 ^ 53 + 1) ∧
    outcome (call .bare "t" .assertEqual [.int (2 ^ 53), .int (2 ^ 53 + 1)]) () =
      (.ok (.bool (decide (nearest (2 ^ 53) = nearest (2 ^ 53 + 1)))), ()) ∧
    (((2 : Int) ^ 53 ≤ 2 ^ 53 + 1) → holds .le (.int (2 ^ 53)) (.int (2 ^ 53 + 1)) = some true) ∧
    ∃ result, outcome (call .bare "t" .assertUnique [.arr ([2 ^ 53, 2 ^ 53 + 1].map .int)]) () = (.ok result, ()) ∧
      (result = .null ↔ ([2 ^ 53, 2 ^ 53 + 1].map nearest).Nodup) := by
  have hlow : Fits64 (2 ^ 53) := by decide
  have hhigh : Fits64 (2 ^ 53 + 1) := by decide
  obtain ⟨hpair, hlist⟩ := whole_numbers_compared .bare "t" ()
  obtain ⟨-, hequal, -, -, -, horder, -⟩ := hpair _ _ hlow hhigh
  refine ⟨hlow, hhigh, hequal, horder, hlist [2 ^ 53, 2 ^ 53 + 1] ?_⟩
  simp only [List.forall_mem_cons, hlow, hhigh]
  simp

/-- The first whole number that is rounded, and the one before it. -/
theorem first_rounded_equal : holds .eq (.int (2 ^ 53 + 1)) (.int (2 ^ 53)) = some true ∧
    holds .lt (.int (2 ^ 53)) (.int (2 ^ 53 + 1)) = some false ∧ equal (.int (2 ^ 53 + 1)) (.int (2 ^ 53)) = true := by
  decide +kernel

end GuardedConfig.Trigger
