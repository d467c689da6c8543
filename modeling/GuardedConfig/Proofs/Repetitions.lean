import GuardedConfig.Proofs.Equality
import GuardedConfig.Proofs.Outcome

/-!
# `Proofs.Repetitions` — what `ASSERT_UNIQUE` finds

The keys of a list are gone through in order, and each of them is compared with all before it. The search ends at the
first key that is equal to an earlier one. Equality is that of `==`, and equal keys are those with one view, so whether
there is a repetition does not depend on the order of the list.

## Contents

* `Repeats`, `firstRepeated_cases` — positions whose key is equal to an earlier one, and the first of them
* `forall_not_repeats_iff` — there is none if all views are different
* `nameArguments`, `call_assertUnique` — the call
* `repetition_found`
-/

namespace GuardedConfig.Trigger

variable {σ : Type} {seen vs keys : List Json} {v w : Json} {j : Nat}

/-! ## The search -/

/-- The key at a position is equal to one at an earlier position. -/
def Repeats (keys : List Json) (j : Nat) : Prop :=
  ∃ i v w, i < j ∧ keys[i]? = some v ∧ keys[j]? = some w ∧ holds .eq v w = some true

theorem repeats_length_iff : Repeats (seen ++ v :: vs) seen.length ↔ seen.any (equal · v) = true := by
  have hself : (seen ++ v :: vs)[seen.length]? = some v := by simp
  rw [List.any_eq_true]
  constructor
  · rintro ⟨i, u, w, hi, hu, hw, heq⟩
    rw [hself] at hw
    cases hw
    rw [List.getElem?_append_left hi] at hu
    exact ⟨u, List.mem_of_getElem? hu, Option.some.inj heq⟩
  · rintro ⟨u, hu, heq⟩
    obtain ⟨i, hi, rfl⟩ := List.getElem_of_mem hu
    exact ⟨i, seen[i], v, hi, by rw [List.getElem?_append_left hi, List.getElem?_eq_getElem hi], hself,
      congrArg some heq⟩

/-- **The search finds the first repetition.** The induction is on what is still to be seen: the whole list stays the
same, and no position behind those seen so far and before the current one repeats a key. -/
theorem firstRepeated_cases (seen vs : List Json) :
    (firstRepeated seen vs = none ∧ ∀ j, seen.length ≤ j → ¬ Repeats (seen ++ vs) j) ∨
    ∃ j w, (seen ++ vs)[j]? = some w ∧ seen.length ≤ j ∧ Repeats (seen ++ vs) j ∧
      (∀ k, seen.length ≤ k → k < j → ¬ Repeats (seen ++ vs) k) ∧ firstRepeated seen vs = some w := by
  induction vs generalizing seen with
  | nil =>
    refine .inl ⟨rfl, ?_⟩
    rintro j hj ⟨i, v, w, -, -, hw, -⟩
    rw [List.append_nil, List.getElem?_eq_none hj] at hw
    cases hw
  | cons v vs ih =>
    rw [firstRepeated]
    by_cases hv : seen.any (equal · v) = true
    · rw [if_pos hv]
      refine .inr ⟨seen.length, v, by simp, Nat.le_refl _, repeats_length_iff.2 hv, ?_, rfl⟩
      exact fun k hle hlt => absurd hlt (Nat.not_lt.2 hle)
    · have hbehind : ∀ k, seen.length ≤ k → Repeats (seen ++ v :: vs) k → (seen ++ [v]).length ≤ k := by
        intro k hk hrepeats
        rcases Nat.eq_or_lt_of_le hk with rfl | hlt
        · exact absurd (repeats_length_iff.1 hrepeats) hv
        · rwa [List.length_append, List.length_singleton]
      rw [if_neg hv]
      have ih := ih (seen ++ [v])
      rw [List.append_assoc, List.singleton_append] at ih
      rcases ih with ⟨hnone, hall⟩ | ⟨j, w, hw, hj, hrepeats, hfirst, hfound⟩
      · exact .inl ⟨hnone, fun j hj h => hall j (hbehind j hj h) h⟩
      · rw [List.length_append, List.length_singleton] at hj
        exact .inr ⟨j, w, hw, by omega, hrepeats, fun k hk hlt h => hfirst k (hbehind k hk h) hlt h, hfound⟩

/-! ## Whatever the order -/

/-- No key is repeated if all of them have different views. -/
theorem forall_not_repeats_iff (hkeys : ∀ v ∈ keys, v.Proper) : (∀ j, ¬ Repeats keys j) ↔ (keys.map view).Nodup := by
  rw [List.Nodup, List.pairwise_map, List.pairwise_iff_getElem]
  constructor
  · intro hnone i j hi hj hij heq
    refine hnone j ⟨i, keys[i], keys[j], hij, List.getElem?_eq_getElem hi, List.getElem?_eq_getElem hj, ?_⟩
    exact congrArg some ((equal_iff_view (hkeys _ (List.getElem_mem hi)) (hkeys _ (List.getElem_mem hj))).2 heq)
  · rintro hdiffer j ⟨i, v, w, hij, hv, hw, heq⟩
    obtain ⟨hi, rfl⟩ := List.getElem?_eq_some_iff.1 hv
    obtain ⟨hj, rfl⟩ := List.getElem?_eq_some_iff.1 hw
    refine hdiffer i j hi hj hij ?_
    exact (equal_iff_view (hkeys _ (List.getElem_mem hi)) (hkeys _ (List.getElem_mem hj))).1 (Option.some.inj heq)

/-- No two keys are equal if none is equal to an earlier one. -/
theorem forall_apart_iff (hkeys : ∀ v ∈ keys, v.Proper) :
    (∀ (i j : Nat) v w, i ≠ j → keys[i]? = some v → keys[j]? = some w → holds .eq v w = some false) ↔
      ∀ j, ¬ Repeats keys j := by
  constructor
  · rintro hapart j ⟨i, v, w, hij, hv, hw, heq⟩
    rw [hapart i j v w hij.ne hv hw] at heq
    cases heq
  · intro hnone i j v w hij hv hw
    have hsymm : equal v w = equal w v :=
      equal_comm (hkeys v (List.mem_of_getElem? hv)) (hkeys w (List.mem_of_getElem? hw))
    refine congrArg some (Bool.eq_false_iff.2 fun heq => ?_)
    rcases Nat.lt_or_gt_of_ne hij with hlt | hgt
    · exact hnone j ⟨i, v, w, hlt, hv, hw, congrArg some heq⟩
    · exact hnone i ⟨j, w, v, hgt, hw, hv, congrArg some (hsymm ▸ heq)⟩

/-- The keys of proper elements are proper. -/
theorem proper_uniqueKey {element : Json} (name : Option String) (h : element.Proper) :
    (uniqueKey name element).Proper := by
  cases name with
  | none => exact h
  | some name =>
    show ((element.member? name).getD .null).Proper
    cases hmember : element.member? name with
    | none => exact .null
    | some v => exact h.member hmember

theorem firstRepeated_eq_none_iff (hkeys : ∀ v ∈ keys, v.Proper) :
    firstRepeated [] keys = none ↔ (keys.map view).Nodup := by
  rw [← forall_not_repeats_iff hkeys]
  rcases firstRepeated_cases [] keys with ⟨hnone, hall⟩ | ⟨j, w, -, -, hrepeats, -, hfound⟩
  · exact ⟨fun _ j => hall j (Nat.zero_le _), fun _ => hnone⟩
  · refine ⟨fun h => ?_, fun h => absurd hrepeats (h j)⟩
    rw [hfound] at h
    cases h

/-! ## The call -/

/-- The arguments that may stand behind the list: a member name, or none, which null says as well. -/
def nameArguments : Option String → List (List Json)
  | none => [[], [.null]]
  | some name => [[.str name]]

/-- The keys of a list. -/
def uniqueKeys (name : Option String) (items : List Json) : List Json := items.map (uniqueKey name)

/-- Without a name, the elements are their keys. -/
theorem uniqueKeys_none (items : List Json) : uniqueKeys none items = items := List.map_id items

/-- The message about a repeated key. -/
def repetitionMessage (key : Json) : String := "Duplicate value found: '" ++ key.messageText ++ "'"

theorem call_assertUnique (host : Host σ) (trigger : String) (items : List Json) (name : Option String)
    {extra : List Json} (h : extra ∈ nameArguments name) (s : σ) :
    outcome (call host trigger .assertUnique (.arr items :: extra)) s =
      (.ok (match firstRepeated [] (uniqueKeys name items) with
        | some v => .str (repetitionMessage v)
        | none => .null), s) := by
  have hresult : call host trigger .assertUnique (.arr items :: extra) =
      ofResult trigger (uniqueResult (.arr items) ((name.map Json.str).getD .null)) := by
    cases name with
    | none =>
      obtain rfl | rfl : extra = [] ∨ extra = [.null] := by simpa [nameArguments] using h
      · rfl
      · rfl
    | some name =>
      obtain rfl : extra = [.str name] := by simpa [nameArguments] using h
      rfl
  have hunique : uniqueResult (.arr items) ((name.map Json.str).getD .null) =
      match firstRepeated [] (uniqueKeys name items) with
      | some v => .ok (.str (repetitionMessage v))
      | none => .ok .null := by
    cases name <;> rfl
  rw [hresult, hunique]
  cases firstRepeated [] (uniqueKeys name items) <;> rfl

/-- **A repetition is found, the first one, whatever the order.** For every list and every member name, or none,
`ASSERT_UNIQUE` returns null if and only if no two positions have keys that `==` calls equal. Otherwise it returns the
message for the key of the first position whose key is equal to an earlier one. Whether it returns null is the same for
every order of the list. -/
theorem repetition_found (host : Host σ) (trigger : String) (name : Option String) (items extra : List Json) (s : σ)
    (hitems : ∀ v ∈ items, v.Proper) (hextra : extra ∈ nameArguments name) :
    ∃ result, outcome (call host trigger .assertUnique (.arr items :: extra)) s = (.ok result, s) ∧
      (result = .null ↔ ∀ (i j : Nat) v w, i ≠ j → (uniqueKeys name items)[i]? = some v →
        (uniqueKeys name items)[j]? = some w → holds .eq v w = some false) ∧
      (result ≠ .null → ∃ (j : Nat) (w : Json), (uniqueKeys name items)[j]? = some w ∧ Repeats (uniqueKeys name items) j ∧
        (∀ k < j, ¬ Repeats (uniqueKeys name items) k) ∧ result = .str (repetitionMessage w)) ∧
      ∀ others : List Json, others.Perm items →
        ∃ result', outcome (call host trigger .assertUnique (.arr others :: extra)) s = (.ok result', s) ∧
          (result' = .null ↔ result = .null) := by
  have hproper : ∀ {others : List Json}, others.Perm items → ∀ v ∈ uniqueKeys name others, v.Proper := by
    intro others hperm v hv
    obtain ⟨element, helement, rfl⟩ := List.mem_map.1 hv
    exact proper_uniqueKey name (hitems element (hperm.subset helement))
  have hkeys := hproper (List.Perm.refl items)
  have hnull : ∀ found : Option Json, (match found with
      | some v => Json.str (repetitionMessage v)
      | none => .null) = .null ↔ found = none := by
    intro found
    cases found <;> simp
  refine ⟨_, call_assertUnique host trigger items name hextra s, ?null, ?message, fun others hperm =>
    ⟨_, call_assertUnique host trigger others name hextra s, ?order⟩⟩
  case null =>
    rw [hnull, firstRepeated_eq_none_iff hkeys, forall_apart_iff hkeys, forall_not_repeats_iff hkeys]
  case message =>
    intro hne
    rcases firstRepeated_cases [] (uniqueKeys name items) with ⟨hnone, -⟩ | ⟨j, w, hw, -, hrepeats, hfirst, hfound⟩
    · exact absurd ((hnull _).2 hnone) hne
    · exact ⟨j, w, hw, hrepeats, fun k => hfirst k (Nat.zero_le _), by rw [hfound]⟩
  case order =>
    rw [hnull, hnull, firstRepeated_eq_none_iff (hproper hperm), firstRepeated_eq_none_iff hkeys]
    exact ((hperm.map (uniqueKey name)).map view).nodup_iff

/-- A host without fields. -/
def Host.bare : Host Unit where
  get path s := (.error (.unknownField path), s)
  set path _ s := (.error (.unknownField path), s)
  warn _ _ s := s

/-- A list where the third element has the key of the first one, as another kind of number. -/
def mixedItems : List Json := [.obj [("n", .int 1)], .obj [], .obj [("n", .real (.ofInt 1))]]

theorem repetition_found_mixed :
    ∃ result, outcome (call .bare "t" .assertUnique [.arr mixedItems, .str "n"]) () = (.ok result, ()) ∧
      (result ≠ .null → ∃ (j : Nat) (w : Json), (uniqueKeys (some "n") mixedItems)[j]? = some w ∧
        Repeats (uniqueKeys (some "n") mixedItems) j ∧ (∀ k < j, ¬ Repeats (uniqueKeys (some "n") mixedItems) k) ∧
        result = .str (repetitionMessage w)) ∧
      ∀ others : List Json, others.Perm mixedItems →
        ∃ result', outcome (call .bare "t" .assertUnique [.arr others, .str "n"]) () = (.ok result', ()) ∧
          (result' = .null ↔ result = .null) := by
  have hitems : ∀ v ∈ mixedItems, v.Proper := by
    simp only [mixedItems, List.forall_mem_cons]
    refine ⟨.obj (List.pairwise_singleton ..) ?_, .obj .nil (List.forall_mem_nil _),
      .obj (List.pairwise_singleton ..) ?_, List.forall_mem_nil _⟩
    · exact List.forall_mem_singleton.2 proper_one.1
    · exact List.forall_mem_singleton.2 proper_one.2
  obtain ⟨result, hcall, -, hmessage, horder⟩ :=
    repetition_found .bare "t" (some "n") mixedItems [.str "n"] () hitems (List.mem_cons_self ..)
  exact ⟨result, hcall, hmessage, horder⟩

example : outcome (call .bare "t" .assertUnique [.arr mixedItems, .str "n"]) () =
    (.ok (.str "Duplicate value found: '1.0'"), ()) := by
  rfl

end GuardedConfig.Trigger
