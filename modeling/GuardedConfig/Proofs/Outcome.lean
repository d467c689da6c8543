import GuardedConfig.Error
import Mathlib.Data.List.Forall2

/-!
# `Proofs.Outcome` — what steps do

The outcome of a step is its result with the state after it. Each way of putting steps together has one equation
for its outcome, so that proofs about steps never open the monad.

Two steps on two kinds of states are *related* if from related states they end alike: both succeed, with the same
value and related states, or both fail. What relates the faults and the states after them is a relation of its own,
since a failure may leave less intact. Steps *correspond* if it does not depend on the faults, and a step *mimics*
another one if it has the same faults. A step *keeps* a property of states if from states with the property it succeeds
in states with the property; after a failure a weaker property may be left.

## Contents

* `except_bind_eq_ok`, `mapM_eq_ok_iff`, `forM_eq_ok_iff` — how results are put together
* `outcome` and its equations, `outcome_forIn`, `outcome_forIn_done`
* `Relates`, with `Relates.bind`, `Relates.forM`, and its cases `Corresponds` and `Mimics`
* `Keeps`, with `Keeps.bind`, `Keeps.forM`, `Keeps.forIn`
-/

namespace GuardedConfig

variable {σ τ α β ε : Type}

/-! ## Results -/

theorem except_ok_bind (a : α) (f : α → Except ε β) : ((.ok a : Except ε α) >>= f) = f a := rfl

theorem except_bind_eq_ok {x : Except ε α} {f : α → Except ε β} {b : β} :
    (x >>= f) = .ok b ↔ ∃ a, x = .ok a ∧ f a = .ok b := by
  cases x with
  | error e => exact ⟨fun h => (nomatch h), fun ⟨_, h, _⟩ => (nomatch h)⟩
  | ok a => exact ⟨fun h => ⟨a, rfl, h⟩, fun ⟨_, h, h'⟩ => by cases h; exact h'⟩

theorem except_bind_eq_error {x : Except ε α} {f : α → Except ε β} {e : ε} :
    (x >>= f) = .error e ↔ x = .error e ∨ ∃ a, x = .ok a ∧ f a = .error e := by
  cases x with
  | error e' =>
    constructor
    · exact fun h => .inl (congrArg _ (Except.error.inj h))
    · rintro (h | ⟨_, h, _⟩) <;> cases h
      rfl
  | ok a =>
    constructor
    · exact fun h => .inr ⟨a, rfl, h⟩
    · rintro (h | ⟨_, h, hf⟩) <;> cases h
      exact hf

theorem except_map_eq_ok {f : α → β} {x : Except ε α} {b : β} : f <$> x = .ok b ↔ ∃ a, x = .ok a ∧ f a = b := by
  cases x with
  | error e => exact ⟨fun h => (nomatch h), fun ⟨_, h, _⟩ => (nomatch h)⟩
  | ok a => exact ⟨fun h => ⟨a, rfl, Except.ok.inj h⟩, fun ⟨_, h, h'⟩ => by cases h; exact congrArg Except.ok h'⟩

theorem except_seq_eq_ok {f : Except ε (α → β)} {x : Except ε α} {b : β} :
    f <*> x = .ok b ↔ ∃ g a, f = .ok g ∧ x = .ok a ∧ g a = b := by
  cases f with
  | error e => exact ⟨fun h => (nomatch h), fun ⟨_, _, h, _⟩ => (nomatch h)⟩
  | ok g =>
    show g <$> x = .ok b ↔ _
    rw [except_map_eq_ok]
    exact ⟨fun ⟨a, ha⟩ => ⟨g, a, rfl, ha⟩, fun ⟨_, a, h, ha⟩ => by cases h; exact ⟨a, ha⟩⟩

/-- A list is mapped successfully if each of its members is. -/
theorem mapM_eq_ok_iff {f : α → Except ε β} {l : List α} {r : List β} :
    l.mapM f = .ok r ↔ List.Forall₂ (fun a b => f a = .ok b) l r := by
  induction l generalizing r with
  | nil =>
    rw [List.mapM_nil, List.forall₂_nil_left_iff]
    exact ⟨fun h => by cases h; rfl, fun h => by rw [h]; rfl⟩
  | cons a l ih =>
    rw [List.mapM_cons, List.forall₂_cons_left_iff]
    constructor
    · intro h
      obtain ⟨b, hb, h⟩ := except_bind_eq_ok.1 h
      obtain ⟨bs, hbs, h⟩ := except_bind_eq_ok.1 h
      cases h
      exact ⟨b, bs, hb, ih.1 hbs, rfl⟩
    · rintro ⟨b, bs, hb, hbs, rfl⟩
      exact except_bind_eq_ok.2 ⟨b, hb, except_bind_eq_ok.2 ⟨bs, ih.2 hbs, rfl⟩⟩

/-- A step that gives nothing of interest succeeds for a list if it does for each of its members. -/
theorem forM_eq_ok_iff {f : α → Except ε Unit} {l : List α} : l.forM f = .ok () ↔ ∀ a ∈ l, f a = .ok () := by
  induction l with
  | nil => exact ⟨fun _ _ ha => (nomatch ha), fun _ => rfl⟩
  | cons a l ih =>
    rw [List.forall_mem_cons, ← ih]
    show (f a >>= fun _ => l.forM f) = _ ↔ _
    rw [except_bind_eq_ok]
    exact ⟨fun ⟨⟨⟩, ha, hl⟩ => ⟨ha, hl⟩, fun ⟨ha, hl⟩ => ⟨⟨⟩, ha, hl⟩⟩

/-- What stands in the result comes from a member of the list. -/
theorem exists_of_mapM_eq_ok {f : α → Except ε β} {l : List α} {r : List β} (h : l.mapM f = .ok r) {b : β}
    (hb : b ∈ r) : ∃ a ∈ l, f a = .ok b := by
  replace h := mapM_eq_ok_iff.1 h
  induction h with
  | nil => cases hb
  | @cons a b' l r hab _ ih =>
    cases hb with
    | head => exact ⟨a, List.mem_cons_self .., hab⟩
    | tail _ hb =>
      obtain ⟨a', ha', h'⟩ := ih hb
      exact ⟨a', List.mem_cons_of_mem _ ha', h'⟩

/-- A list is not mapped if one of its members is not. -/
theorem exists_of_mapM_eq_error {f : α → Except ε β} {l : List α} {e : ε} (h : l.mapM f = .error e) :
    ∃ a ∈ l, f a = .error e := by
  induction l with
  | nil => cases h
  | cons a l ih =>
    rw [List.mapM_cons] at h
    cases ha : f a with
    | error e' =>
      rw [ha] at h
      cases h
      exact ⟨a, List.mem_cons_self .., ha⟩
    | ok b =>
      rw [ha, except_ok_bind] at h
      cases hl : l.mapM f with
      | error e' =>
        rw [hl] at h
        cases h
        obtain ⟨a', ha', h'⟩ := ih hl
        exact ⟨a', List.mem_cons_of_mem _ ha', h'⟩
      | ok bs =>
        rw [hl] at h
        cases h

/-! ## Outcomes -/

/-- The result of a step from a state, and the state after it. -/
def outcome (x : ExceptT ε (StateM σ) α) (s : σ) : Except ε α × σ := x.run.run s

@[simp] theorem outcome_pure (a : α) (s : σ) : outcome (pure a : ExceptT ε (StateM σ) α) s = (.ok a, s) := rfl

@[simp] theorem outcome_throw (e : ε) (s : σ) : outcome (throw e : ExceptT ε (StateM σ) α) s = (.error e, s) := rfl

@[simp] theorem outcome_get (s : σ) : outcome (get : ExceptT ε (StateM σ) σ) s = (.ok s, s) := rfl

@[simp] theorem outcome_modify (f : σ → σ) (s : σ) :
    outcome (modify f : ExceptT ε (StateM σ) Unit) s = (.ok (), f s) := rfl

@[simp] theorem outcome_of (f : σ → Except Error α × σ) (s : σ) : outcome (Task.of f) s = f s := rfl

@[simp] theorem outcome_ofExcept (r : Except Error α) (s : σ) :
    outcome (Task.ofExcept r : Task σ α) s = (r, s) := rfl

/-- A step that succeeds is followed by the next one; a failure ends both. -/
theorem outcome_bind (x : ExceptT ε (StateM σ) α) (f : α → ExceptT ε (StateM σ) β) (s : σ) :
    outcome (x >>= f) s =
      match outcome x s with
      | (.ok a, s) => outcome (f a) s
      | (.error e, s) => (.error e, s) := by
  show ((x >>= f).run.run s) = _
  rw [ExceptT.run_bind, StateT.run_bind]
  unfold outcome
  rcases x.run.run s with ⟨_ | _, _⟩ <;> rfl

theorem outcome_bind_ok {x : ExceptT ε (StateM σ) α} {f : α → ExceptT ε (StateM σ) β} {s s' : σ} {a : α}
    (h : outcome x s = (.ok a, s')) : outcome (x >>= f) s = outcome (f a) s' := by
  rw [outcome_bind, h]

theorem outcome_bind_eq_ok {x : ExceptT ε (StateM σ) α} {f : α → ExceptT ε (StateM σ) β} {s s' : σ} {b : β} :
    outcome (x >>= f) s = (.ok b, s') ↔ ∃ a t, outcome x s = (.ok a, t) ∧ outcome (f a) t = (.ok b, s') := by
  rw [outcome_bind]
  constructor
  · intro h
    rcases hx : outcome x s with ⟨e | a, t⟩ <;> rw [hx] at h
    · cases h
    · exact ⟨a, t, rfl, h⟩
  · rintro ⟨a, t, hx, h⟩
    rw [hx]
    exact h

/-- A fault of two steps is one of the first step, or one of the second step after the first has succeeded. -/
theorem outcome_bind_eq_error {x : ExceptT ε (StateM σ) α} {f : α → ExceptT ε (StateM σ) β} {s s' : σ} {e : ε} :
    outcome (x >>= f) s = (.error e, s') ↔
      outcome x s = (.error e, s') ∨ ∃ a t, outcome x s = (.ok a, t) ∧ outcome (f a) t = (.error e, s') := by
  rw [outcome_bind]
  constructor
  · intro h
    rcases hx : outcome x s with ⟨e' | a, t⟩ <;> rw [hx] at h
    · cases h
      exact .inl rfl
    · exact .inr ⟨a, t, rfl, h⟩
  · rintro (hx | ⟨a, t, hx, h⟩) <;> rw [hx]
    exact h

/-- A fault comes from the first of two steps if the second one never fails. -/
theorem outcome_eq_error_of_bind {x : ExceptT ε (StateM σ) α} {f : α → ExceptT ε (StateM σ) β} {s s' : σ} {e : ε}
    (h : outcome (x >>= f) s = (.error e, s')) (hf : ∀ a t e t', outcome (f a) t ≠ (.error e, t')) :
    outcome x s = (.error e, s') := by
  rcases outcome_bind_eq_error.1 h with hx | ⟨a, t, -, h⟩
  · exact hx
  · exact absurd h (hf a t e s')

/-- A fault is handled in the state that it left behind. -/
theorem outcome_tryCatch (x : ExceptT ε (StateM σ) α) (f : ε → ExceptT ε (StateM σ) α) (s : σ) :
    outcome (tryCatch x f) s =
      match outcome x s with
      | (.ok a, s) => (.ok a, s)
      | (.error e, s) => outcome (f e) s := by
  show ((ExceptT.tryCatch x f).run.run s) = _
  unfold outcome ExceptT.tryCatch
  show (x.run >>= _).run s = _
  rw [StateT.run_bind]
  rcases x.run.run s with ⟨_ | _, _⟩ <;> rfl

/-- A loop whose body always goes on does what its rounds do, one after the other. -/
theorem outcome_forIn {I : σ → Prop} {f : α → PUnit → ExceptT ε (StateM σ) (ForInStep PUnit)} {g : α → σ → σ}
    {l : List α} (h : ∀ a ∈ l, ∀ s, I s → outcome (f a ⟨⟩) s = (.ok (.yield ⟨⟩), g a s) ∧ I (g a s)) {s : σ}
    (hs : I s) :
    outcome (forIn l ⟨⟩ f) s = (.ok ⟨⟩, l.foldl (fun s a => g a s) s) ∧ I (l.foldl (fun s a => g a s) s) := by
  induction l generalizing s with
  | nil =>
    rw [List.forIn_nil]
    exact ⟨rfl, hs⟩
  | cons a l ih =>
    obtain ⟨hf, hi⟩ := h a (List.mem_cons_self ..) s hs
    rw [List.forIn_cons, outcome_bind_ok hf]
    exact ih (fun b hb => h b (List.mem_cons_of_mem _ hb)) hi

/-- A loop whose body does nothing does nothing. -/
theorem outcome_forIn_skip {f : α → PUnit → ExceptT ε (StateM σ) (ForInStep PUnit)} {l : List α} {s : σ}
    (h : ∀ a ∈ l, outcome (f a ⟨⟩) s = (.ok (.yield ⟨⟩), s)) : outcome (forIn l ⟨⟩ f) s = (.ok ⟨⟩, s) := by
  induction l with
  | nil =>
    rw [List.forIn_nil]
    rfl
  | cons a l ih =>
    rw [List.forIn_cons, outcome_bind_ok (h a (List.mem_cons_self ..))]
    exact ih fun b hb => h b (List.mem_cons_of_mem _ hb)

/-- A loop where some round ends it and the others change nothing ends as that round says. -/
theorem outcome_forIn_done {f : α → β → ExceptT ε (StateM σ) (ForInStep β)} {l : List α} {start : β} (last : β) {s : σ}
    (hrounds : ∀ a ∈ l, outcome (f a start) s = (.ok (.yield start), s) ∨
      outcome (f a start) s = (.ok (.done last), s))
    (hends : ∃ a ∈ l, outcome (f a start) s = (.ok (.done last), s)) :
    outcome (forIn l start f) s = (.ok last, s) := by
  induction l with
  | nil =>
    obtain ⟨a, ha, -⟩ := hends
    cases ha
  | cons a l ih =>
    rw [List.forIn_cons]
    rcases hrounds a (List.mem_cons_self ..) with hgoes | hdone
    · rw [outcome_bind_ok hgoes]
      refine ih (fun b hb => hrounds b (List.mem_cons_of_mem _ hb)) ?_
      obtain ⟨b, hb, hdone⟩ := hends
      rcases List.mem_cons.1 hb with rfl | hb
      · rw [hgoes] at hdone
        cases hdone
      · exact ⟨b, hb, hdone⟩
    · rw [outcome_bind_ok hdone]
      rfl

/-! ## Related steps -/

/-- Two outcomes are related: the same value and states related by `R`, or two faults that `F` relates together with
the states. -/
def EndRelated (R : σ → τ → Prop) (F : ε → ε → σ → τ → Prop) : Except ε α × σ → Except ε α × τ → Prop
  | (.ok a, s), (.ok b, t) => a = b ∧ R s t
  | (.error e, s), (.error e', t) => F e e' s t
  | _, _ => False

/-- Two steps have related outcomes from states related by `R`. -/
def Relates (R : σ → τ → Prop) (F : ε → ε → σ → τ → Prop) (x : ExceptT ε (StateM σ) α)
    (y : ExceptT ε (StateM τ) α) : Prop :=
  ∀ s t, R s t → EndRelated R F (outcome x s) (outcome y t)

namespace Relates

variable {R : σ → τ → Prop} {F : ε → ε → σ → τ → Prop}

theorem pure (a : α) : Relates R F (pure a : ExceptT ε (StateM σ) α) (pure a : ExceptT ε (StateM τ) α) :=
  fun _ _ h => ⟨rfl, h⟩

theorem throw {e e' : ε} (h : ∀ s t, R s t → F e e' s t) :
    Relates R F (throw e : ExceptT ε (StateM σ) α) (throw e' : ExceptT ε (StateM τ) α) := h

/-- Results without a state are related to themselves. -/
theorem ofExcept {F : Error → Error → σ → τ → Prop} (h : ∀ e s t, R s t → F e e s t) (r : Except Error α) :
    Relates R F (Task.ofExcept r : Task σ α) (Task.ofExcept r : Task τ α) := by
  intro s t hst
  cases r with
  | ok a => exact ⟨rfl, hst⟩
  | error e => exact h e s t hst

/-- Related steps one after the other. -/
theorem bind {x : ExceptT ε (StateM σ) α} {y : ExceptT ε (StateM τ) α} {f : α → ExceptT ε (StateM σ) β}
    {g : α → ExceptT ε (StateM τ) β} (hx : Relates R F x y) (hf : ∀ a, Relates R F (f a) (g a)) :
    Relates R F (x >>= f) (y >>= g) := by
  intro s t hst
  have h := hx s t hst
  rw [outcome_bind, outcome_bind]
  revert h
  rcases outcome x s with ⟨_ | a, s'⟩ <;> rcases outcome y t with ⟨_ | b, t'⟩ <;> intro h
  · exact h
  · exact h.elim
  · exact h.elim
  · obtain ⟨rfl, h⟩ := h
    exact hf a s' t' h

/-- Related steps for the members of a list, in order. -/
theorem forM {f : α → ExceptT ε (StateM σ) PUnit} {g : α → ExceptT ε (StateM τ) PUnit} {l : List α}
    (h : ∀ a ∈ l, Relates R F (f a) (g a)) : Relates R F (l.forM f) (l.forM g) := by
  induction l with
  | nil => exact pure _
  | cons a l ih => exact bind (h a (List.mem_cons_self ..)) fun _ => ih fun b hb => h b (List.mem_cons_of_mem _ hb)

end Relates

/-! ### Steps with the same faults -/

/-- A step mimics another one: the same value or the same fault, and related states in either case. -/
abbrev Mimics (R : σ → τ → Prop) (x : ExceptT ε (StateM σ) α) (y : ExceptT ε (StateM τ) α) : Prop :=
  Relates R (fun e e' s t => e = e' ∧ R s t) x y

namespace Mimics

variable {R : σ → τ → Prop} {x : ExceptT ε (StateM σ) α} {y : ExceptT ε (StateM τ) α}

/-- With the same faults, related outcomes have the same result. -/
theorem end_iff {p : Except ε α × σ} {q : Except ε α × τ} :
    EndRelated R (fun e e' s t => e = e' ∧ R s t) p q ↔ p.1 = q.1 ∧ R p.2 q.2 := by
  obtain ⟨e | a, s⟩ := p <;> obtain ⟨e' | b, t⟩ := q <;> simp [EndRelated]

/-- Faults are handled alike where they are the same. -/
theorem tryCatch {f : ε → ExceptT ε (StateM σ) α} {g : ε → ExceptT ε (StateM τ) α} (hx : Mimics R x y)
    (hf : ∀ e, Mimics R (f e) (g e)) : Mimics R (tryCatch x f) (tryCatch y g) := by
  intro s t hst
  have h := hx s t hst
  rw [outcome_tryCatch, outcome_tryCatch]
  revert h
  rcases outcome x s with ⟨e | a, s'⟩ <;> rcases outcome y t with ⟨e' | b, t'⟩ <;> intro h
  · obtain ⟨rfl, h⟩ := h
    exact hf e s' t' h
  · exact h.elim
  · exact h.elim
  · exact h

end Mimics

/-! ### Corresponding steps -/

/-- Two outcomes are alike: the same value and states related by `R`, or two faults and states related by `E`. -/
def EndAlike (R E : σ → τ → Prop) : Except ε α × σ → Except ε α × τ → Prop
  | (.ok a, s), (.ok b, t) => a = b ∧ R s t
  | (.error _, s), (.error _, t) => E s t
  | _, _ => False

theorem EndAlike.mono {R R' E E' : σ → τ → Prop} {p : Except ε α × σ} {q : Except ε α × τ}
    (h : EndAlike R E p q) (hR : ∀ s t, R s t → R' s t) (hE : ∀ s t, E s t → E' s t) : EndAlike R' E' p q := by
  obtain ⟨_ | a, s⟩ := p <;> obtain ⟨_ | b, t⟩ := q
  · exact hE s t h
  · exact h
  · exact h
  · exact ⟨h.1, hR s t h.2⟩

/-- Two steps end alike from states related by `R`. -/
def Corresponds (R E : σ → τ → Prop) (x : ExceptT ε (StateM σ) α) (y : ExceptT ε (StateM τ) α) : Prop :=
  ∀ s t, R s t → EndAlike R E (outcome x s) (outcome y t)

namespace Corresponds

variable {R E : σ → τ → Prop}

/-- Steps correspond if they are related whatever their faults. -/
theorem iff_relates {x : ExceptT ε (StateM σ) α} {y : ExceptT ε (StateM τ) α} :
    Corresponds R E x y ↔ Relates R (fun _ _ => E) x y := by
  refine forall₃_congr fun s t _ => ?_
  rcases outcome x s with ⟨_ | _, _⟩ <;> rcases outcome y t with ⟨_ | _, _⟩ <;> rfl

theorem pure (a : α) : Corresponds R E (pure a : ExceptT ε (StateM σ) α) (pure a : ExceptT ε (StateM τ) α) :=
  fun _ _ h => ⟨rfl, h⟩

theorem throw (h : ∀ s t, R s t → E s t) (e e' : ε) :
    Corresponds R E (throw e : ExceptT ε (StateM σ) α) (throw e' : ExceptT ε (StateM τ) α) := h

/-- Results without a state correspond to themselves. -/
theorem ofExcept (h : ∀ s t, R s t → E s t) (r : Except Error α) :
    Corresponds R E (Task.ofExcept r : Task σ α) (Task.ofExcept r : Task τ α) :=
  iff_relates.2 (.ofExcept (fun _ => h) r)

/-- Corresponding steps one after the other. -/
theorem bind {x : ExceptT ε (StateM σ) α} {y : ExceptT ε (StateM τ) α} {f : α → ExceptT ε (StateM σ) β}
    {g : α → ExceptT ε (StateM τ) β} (hx : Corresponds R E x y) (hf : ∀ a, Corresponds R E (f a) (g a)) :
    Corresponds R E (x >>= f) (y >>= g) :=
  iff_relates.2 (.bind (iff_relates.1 hx) fun a => iff_relates.1 (hf a))

/-- Corresponding steps for the members of a list, in order. -/
theorem forM {f : α → ExceptT ε (StateM σ) PUnit} {g : α → ExceptT ε (StateM τ) PUnit} {l : List α}
    (h : ∀ a ∈ l, Corresponds R E (f a) (g a)) : Corresponds R E (l.forM f) (l.forM g) :=
  iff_relates.2 (.forM fun a ha => iff_relates.1 (h a ha))

end Corresponds

/-! ## Kept properties -/

/-- How a step ends that keeps a property: it succeeds where `I` holds, or it fails where `J` holds. -/
def EndIn (I J : σ → Prop) : Except ε α × σ → Prop
  | (.ok _, s) => I s
  | (.error _, s) => J s

/-- A step succeeds from states with the property `I` only in states with this property, and fails only in states
with the property `J`. -/
def Keeps (I J : σ → Prop) (x : ExceptT ε (StateM σ) α) : Prop := ∀ s, I s → EndIn I J (outcome x s)

namespace Keeps

variable {I J : σ → Prop}

/-- A step keeps a property exactly if it corresponds to itself on equal states that have it. -/
theorem iff_corresponds {x : ExceptT ε (StateM σ) α} :
    Keeps I J x ↔ Corresponds (fun s t => s = t ∧ I s) (fun s t => s = t ∧ J s) x x := by
  constructor
  · rintro h s _ ⟨rfl, hs⟩
    have h := h s hs
    revert h
    rcases outcome x s with ⟨_ | a, s'⟩ <;> intro h
    · exact ⟨rfl, h⟩
    · exact ⟨rfl, rfl, h⟩
  · intro h s hs
    have h := h s s ⟨rfl, hs⟩
    revert h
    rcases outcome x s with ⟨_ | a, s'⟩ <;> intro h
    · exact h.2
    · exact h.2.2

/-- A step keeps a property, whether or not it fails, exactly if it mimics itself where the property holds. -/
theorem iff_mimics {x : ExceptT ε (StateM σ) α} : Keeps I I x ↔ Mimics (fun s t => s = t ∧ I s) x x := by
  constructor
  · rintro h s _ ⟨rfl, hs⟩
    have h := h s hs
    apply Mimics.end_iff.2
    revert h
    rcases outcome x s with ⟨_ | _, _⟩ <;> exact fun h => ⟨rfl, rfl, h⟩
  · intro h s hs
    have h := (Mimics.end_iff.1 (h s s ⟨rfl, hs⟩)).2.2
    revert h
    rcases outcome x s with ⟨_ | _, _⟩ <;> exact id

/-- What is kept holds in the end, whether or not the step fails. -/
theorem after {x : ExceptT ε (StateM σ) α} (h : Keeps I I x) {s : σ} (hs : I s) : I (outcome x s).2 :=
  (Mimics.end_iff.1 (iff_mimics.1 h s s ⟨rfl, hs⟩)).2.2

/-- Every step keeps what holds of all states. -/
theorem trivial (x : ExceptT ε (StateM σ) α) : Keeps (fun _ => True) (fun _ => True) x := by
  intro s _
  rcases outcome x s with ⟨_ | _, _⟩ <;> exact ⟨⟩

theorem pure (a : α) : Keeps I J (pure a : ExceptT ε (StateM σ) α) := fun _ h => h

theorem throw (h : ∀ s, I s → J s) (e : ε) : Keeps I J (throw e : ExceptT ε (StateM σ) α) := h

theorem get : Keeps I J (get : ExceptT ε (StateM σ) σ) := fun _ h => h

theorem modify {f : σ → σ} (h : ∀ s, I s → I (f s)) : Keeps I J (modify f : ExceptT ε (StateM σ) Unit) := h

theorem ofExcept (h : ∀ s, I s → J s) (r : Except Error α) : Keeps I J (Task.ofExcept r : Task σ α) :=
  iff_corresponds.2 (.ofExcept (fun s _ hst => ⟨hst.1, h s hst.2⟩) r)

theorem bind {x : ExceptT ε (StateM σ) α} {f : α → ExceptT ε (StateM σ) β} (hx : Keeps I J x)
    (hf : ∀ a, Keeps I J (f a)) : Keeps I J (x >>= f) :=
  iff_corresponds.2 ((iff_corresponds.1 hx).bind fun a => iff_corresponds.1 (hf a))

theorem forM {f : α → ExceptT ε (StateM σ) PUnit} {l : List α} (h : ∀ a ∈ l, Keeps I J (f a)) :
    Keeps I J (l.forM f) :=
  iff_corresponds.2 (.forM fun a ha => iff_corresponds.1 (h a ha))

/-- A loop keeps what its body keeps, also where it is left early. -/
theorem forIn {f : α → β → ExceptT ε (StateM σ) (ForInStep β)} (h : ∀ a b, Keeps I J (f a b)) (l : List α)
    (init : β) : Keeps I J (forIn l init f) := by
  induction l generalizing init with
  | nil =>
    rw [List.forIn_nil]
    exact pure init
  | cons a l ih =>
    rw [List.forIn_cons]
    refine (h a init).bind fun step => ?_
    cases step with
    | done b => exact pure b
    | yield b => exact ih b

theorem mapM {f : α → ExceptT ε (StateM σ) β} (h : ∀ a, Keeps I J (f a)) (l : List α) : Keeps I J (l.mapM f) := by
  induction l with
  | nil =>
    rw [List.mapM_nil]
    exact pure []
  | cons a l ih =>
    rw [List.mapM_cons]
    exact (h a).bind fun _ => ih.bind fun _ => pure _

end Keeps

end GuardedConfig
