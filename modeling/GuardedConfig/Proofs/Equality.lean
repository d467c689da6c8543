import GuardedConfig.Proofs.JsonValues
import GuardedConfig.Trigger.Run

/-!
# `Proofs.Equality` — equality in triggers

Two numbers are equal in a trigger if they are equal as double-precision numbers, whatever their kinds. All other values
are compared strictly, and strictness reaches down to the numbers in them. On JSON values this is an equivalence, as each
value has a view that equal values share. But it does not look at arrays and objects part by part in its own way: these
are equal if their parts are strictly equal. The two answers differ exactly if all parts are equal and some pair of them
is mixed, that is, made of numbers that only their double-precision numbers make equal.

## Contents

* `view`, `equal_iff_view` — what equality compares
* `Mixed`, `equal_iff_same_or_mixed` — where equality and strict equality differ
* `Corresponding`, `Matches` — arrays and objects part by part
* `equal_by_parts`
-/

namespace GuardedConfig.Trigger

open Decimal

variable {a b c x y : Json}

/-! ## What equality compares -/

/-- A number as a double-precision number, and other values as they are; the sign of zeros is forgotten. -/
def view (v : Json) : Json :=
  match numberOf? v with
  | some x => .real x.unsigned
  | none => v.plain

/-- The number that a JSON value is, is finite. -/
theorem isFinite_of_numberOf? (h : a.Proper) {x : Binary64} (hx : numberOf? a = some x) : x.isFinite = true := by
  cases h with
  | int h =>
    cases hx
    exact Binary64.isFinite_ofInt h.log2_lt_exponent
  | real h =>
    cases hx
    exact h
  | _ => cases hx

/-- **Equal values are those with one view.** -/
theorem equal_iff_view (ha : a.Proper) (hb : b.Proper) : equal a b = true ↔ view a = view b := by
  unfold equal view
  cases hx : numberOf? a with
  | some x =>
    cases hy : numberOf? b with
    | some y =>
      dsimp only
      rw [Binary64.equal_iff_unsigned (isFinite_of_numberOf? ha hx) (isFinite_of_numberOf? hb hy), Json.real.injEq]
    | none => cases a <;> cases b <;> simp_all [numberOf?, Json.same, Json.plain]
  | none =>
    cases hy : numberOf? b with
    | some y => cases a <;> cases b <;> simp_all [numberOf?, Json.same, Json.plain]
    | none => exact Json.same_iff_plain ha hb

theorem equal_refl (ha : a.Proper) : equal a a = true := (equal_iff_view ha ha).2 rfl

theorem equal_comm (ha : a.Proper) (hb : b.Proper) : equal a b = equal b a :=
  Bool.eq_iff_iff.2 ((equal_iff_view ha hb).trans (eq_comm.trans (equal_iff_view hb ha).symm))

theorem equal_trans (ha : a.Proper) (hb : b.Proper) (hc : c.Proper) (hab : equal a b = true) (hbc : equal b c = true) :
    equal a c = true :=
  (equal_iff_view ha hc).2 (((equal_iff_view ha hb).1 hab).trans ((equal_iff_view hb hc).1 hbc))

/-! ## Where strictness matters -/

/-- Two numbers that are equal as double-precision numbers alone: they are of different kinds, or different whole
numbers. -/
def Mixed : Json → Json → Prop
  | .int m, .int n => m ≠ n ∧ (Binary64.ofInt m).equal (.ofInt n) = true
  | .int m, .real y => (Binary64.ofInt m).equal y = true
  | .real x, .int n => x.equal (.ofInt n) = true
  | _, _ => False

theorem not_same_of_mixed (h : Mixed a b) : a.same b = false := by
  cases a <;> cases b <;> simp_all [Mixed, Json.same]

/-- Equality is strict equality, but for mixed numbers. -/
theorem equal_iff_same_or_mixed : equal a b = true ↔ a.same b = true ∨ Mixed a b := by
  cases a <;> cases b <;> simp [equal, numberOf?, Json.same, Mixed]
  case int.int m n =>
    by_cases hmn : m = n
    · subst hmn
      simp [Binary64.equal_self (Binary64.isNaN_ofInt m)]
    · simp [hmn]

/-! ## Part by part -/

/-- The elements at one place of two arrays, or the members with one key of two objects. -/
def Corresponding (a b x y : Json) : Prop :=
  (∃ i : Nat, a.element? i = some x ∧ b.element? i = some y) ∨
    ∃ key, a.member? key = some x ∧ b.member? key = some y

/-- Arrays that have as many elements as each other, or objects that have the same keys, and whose corresponding parts
are related. -/
def Matches (R : Json → Json → Prop) : Json → Json → Prop
  | .arr as, .arr bs => List.Forall₂ R as bs
  | .obj as, .obj bs => ∀ key, Option.Rel R ((Json.obj as).member? key) ((Json.obj bs).member? key)
  | _, _ => False

variable {R S : Json → Json → Prop}

theorem Matches.related (h : Matches R a b) (hxy : Corresponding a b x y) : R x y := by
  rcases hxy with ⟨i, hx, hy⟩ | ⟨key, hx, hy⟩
  · cases a <;> cases b <;> try exact h.elim
    case arr.arr as bs =>
      obtain ⟨hi, rfl⟩ := List.getElem?_eq_some_iff.1 hx
      obtain ⟨hj, rfl⟩ := List.getElem?_eq_some_iff.1 hy
      exact h.get hi hj
    case obj.obj => cases hx
  · cases a <;> cases b <;> try exact h.elim
    case arr.arr => cases hx
    case obj.obj as bs =>
      have hkey := h key
      rw [hx, hy] at hkey
      cases hkey with
      | some hxy => exact hxy

theorem optionRel_imp {o p : Option Json} (h : Option.Rel R o p)
    (himp : ∀ x y, o = some x → p = some y → R x y → S x y) : Option.Rel S o p := by
  cases h with
  | none => exact .none
  | some hxy => exact .some (himp _ _ rfl rfl hxy)

/-- A match is one in another relation, if its corresponding parts are. -/
theorem Matches.imp (h : Matches R a b) (himp : ∀ x y, Corresponding a b x y → R x y → S x y) : Matches S a b := by
  cases a <;> cases b <;> try exact h.elim
  case arr.arr as bs =>
    refine List.forall₂_iff_get.2 ⟨h.length_eq, fun i hi hj => himp _ _ (.inl ⟨i, ?_, ?_⟩) (h.get hi hj)⟩
    · exact List.getElem?_eq_getElem hi
    · exact List.getElem?_eq_getElem hj
  case obj.obj as bs => exact fun key => optionRel_imp (h key) fun x y hx hy => himp x y (.inr ⟨key, hx, hy⟩)

/-- Arrays and objects are equal if their parts are strictly equal. -/
theorem equal_iff_matches (ha : a.Proper) (hb : b.Proper) (hparts : a.isScalar = false) :
    equal a b = true ↔ Matches (fun x y => x.same y = true) a b := by
  cases a <;> cases b <;> simp [equal, numberOf?, Json.same, Matches, Json.isScalar] at hparts ⊢
  case arr.arr as bs => exact Json.sameItems_iff
  case obj.obj as bs =>
    rw [← Json.forall₂_members_iff ha.ordered hb.ordered]
    exact Json.sameMembers_iff

/-- Arrays and objects with equal parts are equal, exactly if none of these pairs is mixed. -/
theorem equal_iff_not_mixed (ha : a.Proper) (hb : b.Proper) (hparts : a.isScalar = false)
    (h : Matches (fun x y => equal x y = true) a b) :
    equal a b = true ↔ ∀ x y, Corresponding a b x y → ¬ Mixed x y := by
  rw [equal_iff_matches ha hb hparts]
  constructor
  · intro hsame x y hxy hmixed
    exact absurd (hsame.related hxy) (by simp [not_same_of_mixed hmixed])
  · intro hnone
    exact h.imp fun x y hxy heq => (equal_iff_same_or_mixed.1 heq).resolve_right (hnone x y hxy)

/-- Equal arrays and objects have equal parts. -/
theorem matches_of_equal (ha : a.Proper) (hb : b.Proper) (hparts : a.isScalar = false) (h : equal a b = true) :
    Matches (fun x y => equal x y = true) a b :=
  ((equal_iff_matches ha hb hparts).1 h).imp fun _ _ _ hsame => equal_iff_same_or_mixed.2 (.inl hsame)

/-- **Equality is an equivalence, and goes part by part unless there are mixed numbers.** It is reflexive, symmetric and
transitive on JSON values. Two arrays are equal if they have the same length and their elements are pairwise strictly
equal, and two objects if they have the same keys with strictly equal values. Equality of the parts themselves gives the
same answer exactly if it is not the case that all parts are equal and some pair of them is mixed. Arrays and objects
are never mixed, so this concerns numbers right inside of the two values. -/
theorem equal_by_parts (ha : a.Proper) (hb : b.Proper) (hc : c.Proper) :
    equal a a = true ∧ equal a b = equal b a ∧ (equal a b = true → equal b c = true → equal a c = true) ∧
    (a.isScalar = false →
      (equal a b = true ↔ Matches (fun x y => x.same y = true) a b) ∧
      ((equal a b = true ↔ Matches (fun x y => equal x y = true) a b) ↔
        ¬ (Matches (fun x y => equal x y = true) a b ∧ ∃ x y, Corresponding a b x y ∧ Mixed x y))) := by
  refine ⟨equal_refl ha, equal_comm ha hb, equal_trans ha hb hc, fun hparts => ⟨equal_iff_matches ha hb hparts, ?_⟩⟩
  constructor
  · rintro hiff ⟨hmatches, x, y, hxy, hmixed⟩
    exact (equal_iff_not_mixed ha hb hparts hmatches).1 (hiff.2 hmatches) x y hxy hmixed
  · intro hnone
    refine ⟨matches_of_equal ha hb hparts, fun hmatches => ?_⟩
    exact (equal_iff_not_mixed ha hb hparts hmatches).2 fun x y hxy hmixed => hnone ⟨hmatches, x, y, hxy, hmixed⟩

theorem proper_one : Json.Proper (.int 1) ∧ Json.Proper (.real (.ofInt 1)) :=
  ⟨.int (by decide), .real (by decide +kernel)⟩

theorem equal_by_parts_one :
    equal (.arr [.int 1]) (.arr [.int 1]) = true ∧
    equal (.arr [.int 1]) (.arr [.real (.ofInt 1)]) = equal (.arr [.real (.ofInt 1)]) (.arr [.int 1]) ∧
    (equal (.arr [.int 1]) (.arr [.real (.ofInt 1)]) = true ↔
      Matches (fun x y => x.same y = true) (.arr [.int 1]) (.arr [.real (.ofInt 1)])) ∧
    ((equal (.arr [.int 1]) (.arr [.real (.ofInt 1)]) = true ↔
        Matches (fun x y => equal x y = true) (.arr [.int 1]) (.arr [.real (.ofInt 1)])) ↔
      ¬ (Matches (fun x y => equal x y = true) (.arr [.int 1]) (.arr [.real (.ofInt 1)]) ∧
        ∃ x y, Corresponding (.arr [.int 1]) (.arr [.real (.ofInt 1)]) x y ∧ Mixed x y)) := by
  have hint : Json.Proper (.arr [.int 1]) := .arr (List.forall_mem_singleton.2 proper_one.1)
  have hreal : Json.Proper (.arr [.real (.ofInt 1)]) := .arr (List.forall_mem_singleton.2 proper_one.2)
  obtain ⟨hrefl, hcomm, -, hparts⟩ := equal_by_parts hint hreal hint
  exact ⟨hrefl, hcomm, hparts rfl⟩

/-- A whole number and the double-precision number of the same value are equal, but not in a row or in an array. -/
theorem one_differs_in_rows :
    equal (.int 1) (.real (.ofInt 1)) = true ∧ equal (.arr [.int 1]) (.arr [.real (.ofInt 1)]) = false ∧
      equal (.obj [("x", .int 1)]) (.obj [("x", .real (.ofInt 1))]) = false := by
  decide +kernel

end GuardedConfig.Trigger
