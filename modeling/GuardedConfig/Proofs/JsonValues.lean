import GuardedConfig.Json.Read
import GuardedConfig.Proofs.WholeNumbers
import Mathlib.Data.List.Sort
import Mathlib.Data.Option.Basic
import Mathlib.Data.String.Basic

/-!
# `Proofs.JsonValues` — the values that JSON has

A value is a tree of lists, and not every such tree is a JSON value: a whole number of JSON has 64 bits, a
double-precision number is finite, and the members of an object have different keys and stand in the order of these.
Every value that is read from a text is of this kind.

Strict equality distinguishes whole numbers from double-precision numbers and nothing else that matters: two values are
equal exactly if they are one and the same value, once the sign of zeros is forgotten.

## Contents

* `mem_insertMember`, `pairwise_insertMember`, `eq_of_mem_iff` — members in the order of their keys
* `Proper`, `ofText?_proper` — the values that are read
* `member?_eq_some_iff`, `forall₂_members_iff` — objects by their keys
* `plain`, `same_iff_plain` — what strict equality compares
-/

namespace GuardedConfig.Decimal.Binary64

/-! ## Zeros -/

/-- A number, where zero has no sign. -/
def unsigned (x : Binary64) : Binary64 := if x.isZero then .zero else x

theorem isNaN_of_isFinite {x : Binary64} (h : x.isFinite = true) : x.isNaN = false := by
  have hlt : x.magnitude < infinityMagnitude := of_decide_eq_true h
  exact decide_eq_false (Nat.not_lt.2 hlt.le)

theorem key_eq_zero_iff {x : Binary64} : x.key = 0 ↔ x.isZero = true := by
  unfold key isZero
  rw [beq_iff_eq]
  split <;> omega

/-- Numbers are equal if they are the same, but for the sign of zero. -/
theorem equal_iff_unsigned {x y : Binary64} (hx : x.isFinite = true) (hy : y.isFinite = true) :
    x.equal y = true ↔ x.unsigned = y.unsigned := by
  have hkey : x.equal y = true ↔ x.key = y.key := by
    rw [equal, isNaN_of_isFinite hx, isNaN_of_isFinite hy]
    exact beq_iff_eq
  have hzero := @key_eq_zero_iff x
  have hzero' := @key_eq_zero_iff y
  have hkeyZero : zero.key = 0 := by decide
  rw [hkey]
  unfold unsigned
  split_ifs with hx hy hy
  · simp [hzero.2 hx, hzero'.2 hy]
  · refine ⟨fun h => absurd (hzero'.1 (h ▸ hzero.2 hx)) hy, fun h => ?_⟩
    rw [hzero.2 hx, ← h, hkeyZero]
  · refine ⟨fun h => absurd (hzero.1 (h ▸ hzero'.2 hy)) hx, fun h => ?_⟩
    rw [hzero'.2 hy, h, hkeyZero]
  · -- other than zero, the key has the sign and the magnitude
    refine ⟨fun h => ?_, congrArg key⟩
    have hparts : x.sign = y.sign ∧ x.magnitude = y.magnitude := by
      rw [isZero, beq_iff_eq] at hx hy
      unfold key at h
      cases hs : x.sign <;> cases ht : y.sign <;> simp only [hs, ht, if_true, Bool.false_eq_true, if_false] at h <;>
        first | exact ⟨rfl, by omega⟩ | omega
    rw [← ofMagnitude_eq x, ← ofMagnitude_eq y, hparts.1, hparts.2]

end GuardedConfig.Decimal.Binary64

namespace GuardedConfig.Json

open Decimal

/-! ## Members in the order of their keys -/

section Members

variable {α : Type} {key k : String} {value v : α} {ms : List (String × α)}

/-- The members with a new one: what its key had before is gone. -/
theorem mem_insertMember (h : ms.Pairwise (·.1 < ·.1)) :
    (k, v) ∈ insertMember key value ms ↔ k = key ∧ v = value ∨ k ≠ key ∧ (k, v) ∈ ms := by
  induction ms with
  | nil => simp [insertMember]
  | cons m ms ih =>
    obtain ⟨k', v'⟩ := m
    obtain ⟨hfirst, hrest⟩ := List.pairwise_cons.1 h
    unfold insertMember
    split
    case isTrue hlt =>
      have hbelow : ∀ v, (key, v) ∉ (k', v') :: ms := by
        intro v hv
        rcases List.mem_cons.1 hv with hv | hv
        · exact hlt.ne (congrArg Prod.fst hv)
        · exact (hlt.trans (hfirst _ hv)).ne rfl
      by_cases hk : k = key
      · subst hk
        simp [hbelow]
      · simp [hk]
    case isFalse hnot =>
      split
      case isTrue hkey =>
        subst hkey
        have habove : ∀ v, (key, v) ∉ ms := fun v hv => (hfirst _ hv).ne rfl
        by_cases hk : k = key
        · subst hk
          simp [habove]
        · simp [hk]
      case isFalse hne =>
        by_cases hk : k = key
        · subst hk
          simp [ih hrest, hne]
        · simp [ih hrest, hk]

/-- Members stay ordered. -/
theorem pairwise_insertMember (h : ms.Pairwise (·.1 < ·.1)) :
    (insertMember key value ms).Pairwise (·.1 < ·.1) := by
  induction ms with
  | nil => exact List.pairwise_singleton ..
  | cons m ms ih =>
    obtain ⟨k', v'⟩ := m
    obtain ⟨hfirst, hrest⟩ := List.pairwise_cons.1 h
    unfold insertMember
    split
    case isTrue hlt =>
      refine .cons (fun m hm => ?_) h
      rcases List.mem_cons.1 hm with rfl | hm
      · exact hlt
      · exact hlt.trans (hfirst m hm)
    case isFalse hnot =>
      split
      case isTrue hkey => exact .cons (fun m hm => hkey ▸ hfirst m hm) hrest
      case isFalse hne =>
        refine .cons (fun m hm => ?_) (ih hrest)
        rcases (mem_insertMember hrest).1 hm with ⟨hm, -⟩ | ⟨-, hm⟩
        · exact hm ▸ lt_of_le_of_ne (not_lt.1 hnot) (Ne.symm hne)
        · exact hfirst m hm

/-- Ordered members are determined by what their keys have. -/
theorem eq_of_mem_iff {ms' : List (String × α)} (h : ms.Pairwise (·.1 < ·.1)) (h' : ms'.Pairwise (·.1 < ·.1))
    (hmem : ∀ k v, (k, v) ∈ ms ↔ (k, v) ∈ ms') : ms = ms' := by
  have hanti : Std.Antisymm fun m m' : String × α => m.1 < m'.1 := ⟨fun _ _ hlt hgt => absurd hgt (lt_asymm hlt)⟩
  have hirrefl : Std.Irrefl fun m m' : String × α => m.1 < m'.1 := ⟨fun _ => lt_irrefl _⟩
  exact h.eq_of_mem_iff h' fun m => hmem m.1 m.2

end Members

/-! ## Proper values -/

/-- A value as JSON has it: whole numbers of 64 bits, finite double-precision numbers, and objects whose members have
different keys and stand in their order. -/
inductive Proper : Json → Prop
  | null : Proper .null
  | bool (b : Bool) : Proper (.bool b)
  | int {n : Int} : Binary64.Fits64 n → Proper (.int n)
  | real {x : Binary64} : x.isFinite = true → Proper (.real x)
  | str (s : String) : Proper (.str s)
  | arr {items : List Json} : (∀ v ∈ items, Proper v) → Proper (.arr items)
  | obj {ms : List (String × Json)} : ms.Pairwise (·.1 < ·.1) → (∀ m ∈ ms, Proper m.2) → Proper (.obj ms)

theorem Proper.isFinite {x : Binary64} (h : Proper (.real x)) : x.isFinite = true := by
  cases h with
  | real h => exact h

theorem Proper.items {items : List Json} (h : Proper (.arr items)) : ∀ v ∈ items, Proper v := by
  cases h with
  | arr h => exact h

theorem Proper.ordered {ms : List (String × Json)} (h : Proper (.obj ms)) : ms.Pairwise (·.1 < ·.1) := by
  cases h with
  | obj h _ => exact h

theorem Proper.members {ms : List (String × Json)} (h : Proper (.obj ms)) : ∀ m ∈ ms, Proper m.2 := by
  cases h with
  | obj _ h => exact h

/-- Objects are made with their members in order. -/
theorem Proper.object {pairs : List (String × Json)} (h : ∀ m ∈ pairs, Proper m.2) : Proper (Json.object pairs) := by
  suffices hgen : ∀ ms : List (String × Json), Proper (.obj ms) →
      Proper (.obj (pairs.foldl (fun acc (k, v) => insertMember k v acc) ms)) from
    hgen [] (.obj .nil (List.forall_mem_nil _))
  induction pairs with
  | nil => exact fun ms hms => hms
  | cons pair pairs ih =>
    obtain ⟨hpair, hpairs⟩ := List.forall_mem_cons.1 h
    intro ms hms
    refine ih hpairs _ (.obj (pairwise_insertMember hms.ordered) ?_)
    rintro ⟨k, v⟩ hm
    rcases (mem_insertMember hms.ordered).1 hm with ⟨-, rfl⟩ | ⟨-, hm⟩
    · exact hpair
    · exact hms.members _ hm

/-- A number that is read is a whole number of 64 bits or finite. -/
theorem proper_numberValue? {n : Numeral} {plain : Bool} {v : Json} (h : numberValue? n plain = some v) : v.Proper := by
  unfold numberValue? at h
  dsimp only at h
  split_ifs at h with hwhole hfinite
  · simp only [Bool.and_eq_true, decide_eq_true_eq] at hwhole
    cases h
    exact .int ⟨hwhole.1.2, hwhole.2⟩
  · cases h
    exact .real hfinite

mutual

theorem proper_toJson? : ∀ (depth : Nat) (d : Document) {v : Json}, d.toJson? depth = some v → v.Proper
  | _, .null, v, h => by
    cases h
    exact .null
  | _, .bool b, v, h => by
    cases h
    exact .bool b
  | _, .number n plain, v, h => proper_numberValue? (by rwa [Document.toJson?] at h)
  | _, .string s, v, h => by
    rw [Document.toJson?, Option.map_eq_some_iff] at h
    obtain ⟨text, -, rfl⟩ := h
    exact .str text
  | depth, .array items, v, h => by
    rw [Document.toJson?] at h
    split_ifs at h
    obtain ⟨vs, hvs, rfl⟩ := Option.map_eq_some_iff.1 h
    exact .arr (proper_itemsToJson? _ items hvs)
  | depth, .object ms, v, h => by
    rw [Document.toJson?] at h
    split_ifs at h
    obtain ⟨pairs, hpairs, rfl⟩ := Option.map_eq_some_iff.1 h
    exact .object (proper_membersToJson? _ ms hpairs)

theorem proper_itemsToJson? : ∀ (depth : Nat) (ds : List Document) {vs : List Json},
    itemsToJson? depth ds = some vs → ∀ v ∈ vs, v.Proper
  | _, [], vs, h => by
    cases h
    exact List.forall_mem_nil _
  | depth, d :: ds, vs, h => by
    rw [itemsToJson?] at h
    split at h
    · rename_i v hv
      obtain ⟨rest, hrest, rfl⟩ := Option.map_eq_some_iff.1 h
      exact List.forall_mem_cons.2 ⟨proper_toJson? depth d hv, proper_itemsToJson? depth ds hrest⟩
    · cases h

theorem proper_membersToJson? : ∀ (depth : Nat) (ds : List (Option String × Document)) {ms : List (String × Json)},
    membersToJson? depth ds = some ms → ∀ m ∈ ms, m.2.Proper
  | _, [], ms, h => by
    cases h
    exact List.forall_mem_nil _
  | depth, (some k, d) :: ds, ms, h => by
    rw [membersToJson?] at h
    split at h
    · rename_i v hv
      obtain ⟨rest, hrest, rfl⟩ := Option.map_eq_some_iff.1 h
      exact List.forall_mem_cons.2 ⟨proper_toJson? depth d hv, proper_membersToJson? depth ds hrest⟩
    · cases h
  | _, (none, _) :: _, ms, h => by cases h

end

/-- **What is read from a text is a proper value.** -/
theorem ofText?_proper {text : String} {v : Json} (h : ofText? text = some v) : v.Proper := by
  obtain ⟨d, -, hd⟩ := Option.bind_eq_some_iff.1 h
  exact proper_toJson? depthLimit d hd

/-! ## Objects by their keys -/

section Keys

variable {ms : List (String × Json)} {key : String} {v : Json}

theorem member?_cons_self (k : String) (w : Json) (ms : List (String × Json)) :
    (obj ((k, w) :: ms)).member? k = some w := by
  simp [member?]

theorem member?_cons_of_ne {k : String} (h : k ≠ key) (w : Json) (ms : List (String × Json)) :
    (obj ((k, w) :: ms)).member? key = (obj ms).member? key := by
  simp [member?, h]

/-- A member of an object, by its key. -/
theorem member?_eq_some_iff (h : ms.Pairwise (·.1 < ·.1)) : (obj ms).member? key = some v ↔ (key, v) ∈ ms := by
  induction ms with
  | nil => simp [member?]
  | cons m ms ih =>
    obtain ⟨k, w⟩ := m
    obtain ⟨hfirst, hrest⟩ := List.pairwise_cons.1 h
    by_cases hk : k = key
    · subst hk
      have habove : (k, v) ∉ ms := fun hm => (hfirst _ hm).ne rfl
      rw [member?_cons_self]
      simp [habove, eq_comm]
    · have hne : (key, v) ≠ (k, w) := fun heq => hk (congrArg Prod.fst heq).symm
      rw [member?_cons_of_ne hk, ih hrest]
      simp [hne]

/-- No member has a key that stands before the first one. -/
theorem member?_eq_none {k : String} (h : ∀ m ∈ ms, k < m.1) : (obj ms).member? k = none := by
  have hnone : ms.find? (·.1 == k) = none :=
    List.find?_eq_none.2 fun m hm => by simp [(h m hm).ne']
  simp [member?, hnone]

/-- The members of proper values are proper. -/
theorem Proper.member {value : Json} (h : value.Proper) (hmember : value.member? key = some v) : v.Proper := by
  cases h with
  | obj hordered hmembers => exact hmembers _ ((member?_eq_some_iff hordered).1 hmember)
  | _ => cases hmember

/-- Objects have related members in the same places if they have related members by the same keys. -/
theorem forall₂_members_iff {R : Json → Json → Prop} {as bs : List (String × Json)} (ha : as.Pairwise (·.1 < ·.1))
    (hb : bs.Pairwise (·.1 < ·.1)) :
    List.Forall₂ (fun m n => m.1 = n.1 ∧ R m.2 n.2) as bs ↔
      ∀ key, Option.Rel R ((obj as).member? key) ((obj bs).member? key) := by
  induction as generalizing bs with
  | nil =>
    cases bs with
    | nil => exact ⟨fun _ _ => .none, fun _ => .nil⟩
    | cons n bs =>
      refine ⟨(nomatch ·), fun h => ?_⟩
      have hkey := h n.1
      rw [member?_cons_self] at hkey
      cases hkey
  | cons m as ih =>
    obtain ⟨k, v⟩ := m
    obtain ⟨hfirst, hrest⟩ := List.pairwise_cons.1 ha
    cases bs with
    | nil =>
      refine ⟨(nomatch ·), fun h => ?_⟩
      have hkey := h k
      rw [member?_cons_self] at hkey
      cases hkey
    | cons n bs =>
      obtain ⟨l, w⟩ := n
      obtain ⟨hfirst', hrest'⟩ := List.pairwise_cons.1 hb
      rw [List.forall₂_cons, ih hrest hrest']
      constructor
      · rintro ⟨⟨rfl, hvw⟩, h⟩ key
        by_cases hk : k = key
        · subst hk
          rw [member?_cons_self, member?_cons_self]
          exact .some hvw
        · rw [member?_cons_of_ne hk, member?_cons_of_ne hk]
          exact h key
      · intro h
        -- the smaller one of the first keys would be missing on the other side
        have hkl : k = l := by
          rcases lt_trichotomy k l with hlt | heq | hgt
          · have hkey := h k
            have hnone : (obj ((l, w) :: bs)).member? k = none :=
              member?_eq_none (List.forall_mem_cons.2 ⟨hlt, fun m hm => hlt.trans (hfirst' m hm)⟩)
            rw [member?_cons_self, hnone] at hkey
            cases hkey
          · exact heq
          · have hkey := h l
            have hnone : (obj ((k, v) :: as)).member? l = none :=
              member?_eq_none (List.forall_mem_cons.2 ⟨hgt, fun m hm => hgt.trans (hfirst m hm)⟩)
            rw [member?_cons_self, hnone] at hkey
            cases hkey
        subst hkl
        have hvw : R v w := by
          have hkey := h k
          rw [member?_cons_self, member?_cons_self] at hkey
          cases hkey with
          | some hvw => exact hvw
        refine ⟨⟨rfl, hvw⟩, fun key => ?_⟩
        by_cases hk : k = key
        · subst hk
          rw [member?_eq_none hfirst, member?_eq_none hfirst']
          exact .none
        · have hkey := h key
          rwa [member?_cons_of_ne hk, member?_cons_of_ne hk] at hkey

end Keys

/-! ## Strict equality -/

theorem sameItems_iff {as bs : List Json} :
    sameItems as bs = true ↔ List.Forall₂ (fun a b => a.same b = true) as bs := by
  induction as generalizing bs with
  | nil => cases bs <;> simp [sameItems]
  | cons a as ih => cases bs <;> simp [sameItems, ih]

theorem sameMembers_iff {as bs : List (String × Json)} :
    sameMembers as bs = true ↔ List.Forall₂ (fun m n => m.1 = n.1 ∧ m.2.same n.2 = true) as bs := by
  induction as generalizing bs with
  | nil => cases bs <;> simp [sameMembers]
  | cons a as ih => cases bs <;> simp [sameMembers, ih]

mutual

/-- A value without the signs of its zeros. -/
def plain : Json → Json
  | real x => real x.unsigned
  | arr items => arr (plainItems items)
  | obj ms => obj (plainMembers ms)
  | v => v

@[inherit_doc plain] def plainItems : List Json → List Json
  | [] => []
  | v :: vs => plain v :: plainItems vs

@[inherit_doc plain] def plainMembers : List (String × Json) → List (String × Json)
  | [] => []
  | (k, v) :: ms => (k, plain v) :: plainMembers ms

end

mutual

/-- Proper values are equal if they are the same up to the signs of their zeros. -/
theorem same_iff_plain {a b : Json} (ha : a.Proper) (hb : b.Proper) : a.same b = true ↔ a.plain = b.plain := by
  cases a <;> cases b <;> simp [same, plain]
  case real.real x y => exact Binary64.equal_iff_unsigned ha.isFinite hb.isFinite
  case arr.arr as bs => exact sameItems_iff_plain ha.items hb.items
  case obj.obj as bs => exact sameMembers_iff_plain ha.members hb.members

theorem sameItems_iff_plain : ∀ {as bs : List Json}, (∀ v ∈ as, v.Proper) → (∀ v ∈ bs, v.Proper) →
    (sameItems as bs = true ↔ plainItems as = plainItems bs)
  | [], [], _, _ => by simp [sameItems, plainItems]
  | [], _ :: _, _, _ => by simp [sameItems, plainItems]
  | _ :: _, [], _, _ => by simp [sameItems, plainItems]
  | a :: as, b :: bs, ha, hb => by
    obtain ⟨ha, has⟩ := List.forall_mem_cons.1 ha
    obtain ⟨hb, hbs⟩ := List.forall_mem_cons.1 hb
    rw [sameItems, Bool.and_eq_true, same_iff_plain ha hb, sameItems_iff_plain has hbs, plainItems, plainItems,
      List.cons.injEq]

theorem sameMembers_iff_plain : ∀ {as bs : List (String × Json)}, (∀ m ∈ as, m.2.Proper) → (∀ m ∈ bs, m.2.Proper) →
    (sameMembers as bs = true ↔ plainMembers as = plainMembers bs)
  | [], [], _, _ => by simp [sameMembers, plainMembers]
  | [], _ :: _, _, _ => by simp [sameMembers, plainMembers]
  | _ :: _, [], _, _ => by simp [sameMembers, plainMembers]
  | (k, a) :: as, (l, b) :: bs, ha, hb => by
    obtain ⟨ha, has⟩ := List.forall_mem_cons.1 ha
    obtain ⟨hb, hbs⟩ := List.forall_mem_cons.1 hb
    rw [sameMembers, Bool.and_eq_true, Bool.and_eq_true, same_iff_plain ha hb, sameMembers_iff_plain has hbs,
      plainMembers, plainMembers, List.cons.injEq, Prod.mk.injEq, beq_iff_eq]

end

end GuardedConfig.Json
