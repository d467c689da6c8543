import GuardedConfig.Proofs.Outcome
import GuardedConfig.Proofs.Persistence

/-!
# `Proofs.Cache` — the file of an artifact is a cache

The artifact of a source is taken from its file if the file holds one with the fingerprint of the source. Otherwise the
lexer is called, and what its tokens are compiled to is written to the file. So an artifact that has been returned is
returned again for the same source, and the lexer is not called for it any more, whatever the file held before and
whatever sources fail in the meantime.

The lexer is any step on states of its own. The cache counts its calls.

## Contents

* `Artifact.Holds`, `stored?_eq_some`, `stored?_text` — what a file holds
* `Cache`, `Cache.obtain` — the steps, with the calls of the lexer
* `outcome_obtain_of_stored`, `outcome_obtain_of_none` — what the steps do
* `Serves`, `Answers`, `answers_obtain` — one call
* `Request`, `Use`, `Use.Current.requests` — calls one after another
* `file_is_cache`
-/

namespace GuardedConfig

namespace Artifact

variable {file : Option String} {source : String} {tokens : List Token} {a : Artifact}

/-- A file holds an artifact that can be read and has the fingerprint of a source. -/
def Holds (file : Option String) (source : String) : Prop :=
  ∃ text a, file = some text ∧ ofText? text = some a ∧ a.fingerprint = fingerprintOf source

theorem stored?_eq_some : stored? file source = some a ↔
    ∃ text, file = some text ∧ ofText? text = some a ∧ a.fingerprint = fingerprintOf source := by
  unfold stored?
  rw [Option.filter_eq_some_iff, Option.bind_eq_some_iff]
  constructor
  · rintro ⟨⟨text, hfile, hread⟩, hfresh⟩
    exact ⟨text, hfile, hread, eq_of_beq hfresh⟩
  · rintro ⟨text, hfile, hread, hfresh⟩
    exact ⟨⟨text, hfile, hread⟩, beq_iff_eq.2 hfresh⟩

theorem holds_iff : Holds file source ↔ ∃ a, stored? file source = some a := by
  constructor
  · rintro ⟨text, a, h⟩
    exact ⟨a, stored?_eq_some.2 ⟨text, h⟩⟩
  · rintro ⟨a, h⟩
    obtain ⟨text, h⟩ := stored?_eq_some.1 h
    exact ⟨text, a, h⟩

theorem not_holds_iff : ¬ Holds file source ↔ stored? file source = none := by
  rw [holds_iff, not_exists, Option.eq_none_iff_forall_ne_some]

theorem fingerprint_of_compile (h : compile source tokens = .ok a) : a.fingerprint = fingerprintOf source := by
  unfold compile at h
  split at h
  · cases h
    rfl
  · cases h

theorem compile_eq_error {e : Error} :
    compile source tokens = .error e ↔ ∃ stop, Statement.read tokens = .error stop ∧ e = .parse stop := by
  unfold compile
  cases Statement.read tokens with
  | ok parsed => simp
  | error stop => simp [eq_comm]

/-- A compiled artifact is found in its text. -/
theorem stored?_text (h : compile source tokens = .ok a) : stored? (some a.text) source = some a := by
  obtain ⟨d, hd, hread⟩ := exists_document a
  rw [Json.members_eq_self (compile_ordered h)] at hread
  exact stored?_eq_some.2 ⟨a.text, rfl, hread _ (Json.ofText?_indented hd), fingerprint_of_compile h⟩

end Artifact

open Artifact

/-! ## The cache -/

/-- A lexer: a step that gives tokens, on states of its own. -/
abbrev Lexer (σ : Type) := Task σ (List Token)

/-- The file of an artifact, and a lexer with the number of its calls. -/
structure Cache (σ : Type) where
  file : Option String
  calls : Nat := 0
  lexer : σ

namespace Cache

variable {σ : Type} {source : String} {lex : Lexer σ} {c : Cache σ} {a : Artifact} {e : Error}

/-- A cache after a call of the lexer. -/
def called (c : Cache σ) (lex : Lexer σ) : Cache σ :=
  { c with calls := c.calls + 1, lexer := (outcome lex c.lexer).2 }

/-- Calls the lexer. -/
def call (lex : Lexer σ) : Task (Cache σ) (List Token) := Task.of fun c => ((outcome lex c.lexer).1, c.called lex)

/-- The artifact of a source: from the file, or else from the tokens of the lexer, and then it is written. -/
def obtain (source : String) (lex : Lexer σ) : Task (Cache σ) Artifact := do
  if let some a := stored? (← get).file source then return a
  let tokens ← call lex
  let a ← Task.ofExcept (compile source tokens)
  modify fun c => { c with file := some a.text }
  return a

theorem outcome_obtain_of_stored (h : stored? c.file source = some a) : outcome (obtain source lex) c = (.ok a, c) := by
  unfold obtain
  rw [outcome_bind_ok (outcome_get c), h]
  rfl

theorem outcome_obtain_of_none (h : stored? c.file source = none) :
    outcome (obtain source lex) c =
      match (outcome lex c.lexer).1.bind (compile source) with
      | .ok a => (.ok a, { c.called lex with file := some a.text })
      | .error e => (.error e, c.called lex) := by
  have hcall : outcome (call lex) c = ((outcome lex c.lexer).1, c.called lex) := rfl
  unfold obtain
  rw [outcome_bind_ok (outcome_get c), h]
  dsimp only
  rw [outcome_bind, hcall]
  cases (outcome lex c.lexer).1 with
  | error e => rfl
  | ok tokens =>
    dsimp only [Except.bind]
    rw [outcome_bind, outcome_ofExcept]
    cases compile source tokens <;> rfl

/-- A cache that gets the tokens beforehand has the same result and the same file. -/
theorem obtain_of_none {file : Option String} {tokens : Except Error (List Token)} (h : stored? file source = none) :
    Artifact.obtain file source tokens =
      match tokens.bind (compile source) with
      | .ok a => (.ok a, some a.text)
      | .error e => (.error e, file) := by
  unfold Artifact.obtain
  split
  · rename_i b hstored
    rw [h] at hstored
    cases hstored
  · rfl

theorem bind_compile_eq_error {tokens : Except Error (List Token)} : tokens.bind (compile source) = .error e ↔
    tokens = .error e ∨ ∃ ts stop, tokens = .ok ts ∧ Statement.read ts = .error stop ∧ e = .parse stop := by
  cases tokens with
  | error e' => simp [Except.bind]
  | ok ts => simp [Except.bind, compile_eq_error]

/-! ## One call -/

/-- A cache has the artifact of a source: it is returned, and no lexer is called for it. -/
def Serves (c : Cache σ) (source : String) (a : Artifact) : Prop :=
  ∀ lex : Lexer σ, outcome (obtain source lex) c = (.ok a, c)

/-- A cache has what its file holds: any other artifact would need a lexer, which may fail. -/
theorem serves_iff : c.Serves source a ↔ stored? c.file source = some a := by
  constructor
  · intro h
    have hfailing := h (Task.ofExcept (.error .artifact))
    cases hstored : stored? c.file source with
    | none =>
      rw [outcome_obtain_of_none hstored] at hfailing
      cases hfailing
    | some b =>
      rw [outcome_obtain_of_stored hstored] at hfailing
      cases hfailing
      rfl
  · exact fun h _ => outcome_obtain_of_stored h

/-- What a cache answers: the result, and the cache afterwards. -/
structure Answers (c : Cache σ) (source : String) (lex : Lexer σ) (result : Except Error Artifact) (after : Cache σ) :
    Prop where
  /-- A cache that gets the tokens beforehand has the same result and the same file. -/
  eq_obtain : Artifact.obtain c.file source (outcome lex c.lexer).1 = (result, after.file)
  /-- What is found is returned, and nothing else happens. -/
  found : Holds c.file source → (∃ a, stored? c.file source = some a ∧ result = .ok a) ∧ after = c
  /-- Otherwise the lexer is called once. -/
  missed : ¬ Holds c.file source → after.calls = c.calls + 1 ∧ after.lexer = (outcome lex c.lexer).2
  fingerprint : ∀ a, result = .ok a → a.fingerprint = fingerprintOf source
  /-- What is returned is returned again, and then no lexer is called. -/
  serves : ∀ a, result = .ok a → after.Serves source a
  /-- The faults are those of the lexer, and those of reading the statements. -/
  faults : ∀ e, result = .error e ↔ ¬ Holds c.file source ∧ ((outcome lex c.lexer).1 = .error e ∨
    ∃ ts stop, (outcome lex c.lexer).1 = .ok ts ∧ Statement.read ts = .error stop ∧ e = .parse stop)
  /-- A fault leaves the file as it was. -/
  kept : ∀ e, result = .error e → after.file = c.file

theorem answers_of_stored (h : stored? c.file source = some a) : c.Answers source lex (.ok a) c := by
  have hholds : Holds c.file source := holds_iff.2 ⟨a, h⟩
  obtain ⟨text, -, -, hfresh⟩ := stored?_eq_some.1 h
  refine ⟨?eq_obtain, fun _ => ⟨⟨a, h, rfl⟩, rfl⟩, fun hmissed => absurd hholds hmissed, ?fingerprint, ?serves, ?faults,
    fun _ hfault => nomatch hfault⟩
  case eq_obtain =>
    unfold Artifact.obtain
    rw [h]
  case fingerprint =>
    rintro _ ⟨⟩
    exact hfresh
  case serves =>
    rintro _ ⟨⟩
    exact serves_iff.2 h
  case faults => exact fun e => ⟨fun hfault => (nomatch hfault), fun hmissed => absurd hholds hmissed.1⟩

theorem answers_of_compile (h : stored? c.file source = none)
    (hcompile : (outcome lex c.lexer).1.bind (compile source) = .ok a) :
    c.Answers source lex (.ok a) { c.called lex with file := some a.text } := by
  have hmissed : ¬ Holds c.file source := not_holds_iff.2 h
  obtain ⟨tokens, -, htokens⟩ := except_bind_eq_ok.1 hcompile
  refine ⟨?eq_obtain, fun hholds => absurd hholds hmissed, fun _ => ⟨rfl, rfl⟩, ?fingerprint, ?serves, ?faults,
    fun _ hfault => nomatch hfault⟩
  case eq_obtain => rw [obtain_of_none h, hcompile]
  case fingerprint =>
    rintro _ ⟨⟩
    exact fingerprint_of_compile htokens
  case serves =>
    -- what has been written is read back as the same artifact
    rintro _ ⟨⟩
    exact serves_iff.2 (stored?_text htokens)
  case faults =>
    refine fun e => ⟨fun hfault => (nomatch hfault), fun hfault => ?_⟩
    rw [bind_compile_eq_error.2 hfault.2] at hcompile
    cases hcompile

theorem answers_of_fault (h : stored? c.file source = none)
    (hfault : (outcome lex c.lexer).1.bind (compile source) = .error e) :
    c.Answers source lex (.error e) (c.called lex) := by
  have hmissed : ¬ Holds c.file source := not_holds_iff.2 h
  refine ⟨?eq_obtain, fun hholds => absurd hholds hmissed, fun _ => ⟨rfl, rfl⟩, fun _ hok => (nomatch hok),
    fun _ hok => (nomatch hok), ?faults, fun _ _ => rfl⟩
  case eq_obtain =>
    rw [obtain_of_none h, hfault]
    rfl
  case faults =>
    intro e'
    rw [← bind_compile_eq_error, hfault]
    exact ⟨fun he => ⟨hmissed, he⟩, fun he => he.2⟩

/-- One call is answered right, whatever the file holds and whatever the lexer does. -/
theorem answers_obtain (c : Cache σ) (source : String) (lex : Lexer σ) :
    c.Answers source lex (outcome (obtain source lex) c).1 (outcome (obtain source lex) c).2 := by
  cases hstored : stored? c.file source with
  | some a =>
    rw [outcome_obtain_of_stored hstored]
    exact answers_of_stored hstored
  | none =>
    rw [outcome_obtain_of_none hstored]
    cases hresult : (outcome lex c.lexer).1.bind (compile source) with
    | ok a => exact answers_of_compile hstored hresult
    | error e => exact answers_of_fault hstored hresult

/-! ## Calls one after another -/

/-- A call: a source, and the lexer for it. -/
structure Request (σ : Type) where
  source : String
  lex : Lexer σ

/-- A cache, and the artifact that it has returned last, with its source. -/
structure Use (σ : Type) where
  cache : Cache σ
  last : Option (String × Artifact) := none

/-- One more call; a fault returns nothing. -/
def Use.request (u : Use σ) (r : Request σ) : Use σ :=
  match outcome (obtain r.source r.lex) u.cache with
  | (.ok a, c) => ⟨c, some (r.source, a)⟩
  | (.error _, c) => ⟨c, u.last⟩

/-- The cache has the artifact that it has returned last. -/
def Use.Current (u : Use σ) : Prop := ∀ source a, u.last = some (source, a) → u.cache.Serves source a

theorem Use.Current.request {u : Use σ} (h : u.Current) (r : Request σ) : (u.request r).Current := by
  have hanswers := answers_obtain u.cache r.source r.lex
  unfold Use.request
  revert hanswers
  rcases outcome (obtain r.source r.lex) u.cache with ⟨e | a, after⟩ <;> intro hanswers
  · intro source b hlast
    -- the file is the same as before, so it still holds what was returned last
    have hserves := serves_iff.1 (h source b hlast)
    rw [← hanswers.kept e rfl] at hserves
    exact serves_iff.2 hserves
  · -- what was returned before does not count any more
    rintro _ _ ⟨⟩
    exact hanswers.serves a rfl

theorem Use.Current.requests {u : Use σ} (h : u.Current) (rs : List (Request σ)) :
    (rs.foldl Use.request u).Current := by
  induction rs generalizing u with
  | nil => exact h
  | cons r rs ih => exact ih (h.request r)

/-- **The file of an artifact is a cache**: whatever the file holds at the beginning, and whatever the lexers of all
calls do, each call returns an artifact of its source, calls its lexer exactly if the file holds no such artifact, and
leaves the file as it was if it fails. What was returned last is returned again without a lexer, also after calls that
have failed. -/
theorem file_is_cache (c : Cache σ) (rs : List (Request σ)) :
    let u := rs.foldl Use.request { cache := c }
    (∀ source lex, u.cache.Answers source lex (outcome (obtain source lex) u.cache).1
      (outcome (obtain source lex) u.cache).2) ∧ u.Current := by
  intro u
  have hstart : Use.Current { cache := c } := fun _ _ hlast => (nomatch hlast)
  exact ⟨answers_obtain u.cache, hstart.requests rs⟩

end Cache

end GuardedConfig
