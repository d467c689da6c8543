import GuardedConfig.Proofs.Savepoint

/-!
# `Proofs.CalmTexts` — texts without statements on savepoints

A statement that is not about savepoints does the same whatever savepoints are open, and it leaves them open. There is
one exception: if it fails under the conflict rule `ROLLBACK`, it ends all of them and goes back to the oldest one. What
holds of every such statement holds of a text of such statements, which are run one after the other.

## Contents

* `sentences`, `Sentence.isControl` — the statements of a text
* `query_calm`, `execute_calm` — texts of one statement
* `IsCalm.andThen`, `batch_calm` — texts of several statements
* `Session.Leaves`, `IsCalm.leaves` — what a step does to the savepoints of one session
-/

namespace GuardedConfig.Sql

/-! ## Statements of a text -/

/-- The statements of a list of tokens one after another, at most `fuel` of them, up to one that cannot be read. -/
def sentencesFrom : Nat → List Lexeme → List Sentence
  | 0, _ => []
  | fuel + 1, tokens =>
    match readFirst tokens with
    | .ok (some first) => first.sentence :: sentencesFrom fuel first.rest
    | _ => []

/-- The statements of a text, up to one that cannot be read. -/
def sentences (text : String) : List Sentence :=
  let tokens := lexemes text
  sentencesFrom (tokens.length + 1) tokens

/-- Whether a statement opens or closes savepoints. -/
def Sentence.isControl : Sentence → Bool
  | .run statement => statement.isControl
  | .create _ => false

namespace Session

variable {α β : Type} {s t : Session}

theorem isControl_of_prepareSentence {sentence : Sentence} {params : List Value} {p : Prepared}
    (h : s.prepareSentence sentence params = .ok p) : p.isControl = sentence.isControl := by
  cases sentence with
  | run statement => exact isControl_of_prepare h
  | create d =>
    obtain ⟨_, -, rfl⟩ := except_map_eq_ok.1 h
    rfl

theorem prepareSentence_congr (h : s.content = t.content) (sentence : Sentence) (params : List Value) :
    s.prepareSentence sentence params = t.prepareSentence sentence params := by
  cases sentence with
  | run statement => exact prepare_congr h statement params
  | create d => simp only [prepareSentence, h]

/-! ## Texts of calm statements -/

theorem prepareText_congr (h : s.content = t.content) (text : String) (params : List Value) :
    s.prepareText text params = t.prepareText text params := by
  unfold prepareText
  simp only [prepareSentence_congr h]

/-- The only statement of a text is one of its statements. -/
theorem isControl_of_prepareText {text : String} {params : List Value} {p : Prepared}
    (hcalm : ∀ sentence ∈ sentences text, sentence.isControl = false) (h : s.prepareText text params = .ok p) :
    p.isControl = false := by
  unfold prepareText at h
  obtain ⟨read, hread, h⟩ := except_bind_eq_ok.1 h
  cases read with
  | none => cases h
  | some first =>
    obtain ⟨q, hq, h⟩ := except_bind_eq_ok.1 h
    have hp : q = p := by
      obtain ⟨more, -, h⟩ := except_bind_eq_ok.1 h
      cases more with
      | some _ => cases h
      | none =>
        dsimp only at h
        split at h
        · cases h
        · cases h
          rfl
    have hmem : first.sentence ∈ sentences text := by
      unfold sentences
      dsimp only
      rw [sentencesFrom, hread]
      exact List.mem_cons_self ..
    rw [← hp, isControl_of_prepareSentence hq]
    exact hcalm _ hmem

theorem query_calm {text : String} (hcalm : ∀ sentence ∈ sentences text, sentence.isControl = false)
    (params : List Value) : IsCalm (·.query text params) :=
  .of_prepared (fun s p hp => by simp only [query, hp]) (fun s f hp => by simp only [query, hp])
    (fun _ _ hc => prepareText_congr hc text params) fun _ _ hp => run_calm (isControl_of_prepareText hcalm hp)

/-- The end of a statement whose result is counted. -/
def counted : Except Fault Result × Session → Except Fault Nat × Session
  | (.ok r, s) => (if r.rows.isEmpty then .ok s.changes else .error .returnedRows, s)
  | (.error f, s) => (.error f, s)

theorem IsCalm.counted {step : Session → Except Fault Result × Session} (h : IsCalm step) :
    IsCalm fun s => counted (step s) where
  alike s t hst hs ht := by
    have halike := h.alike s t hst hs ht
    revert halike
    rcases step s with ⟨f | r, s'⟩ <;> rcases step t with ⟨f' | r', t'⟩ <;>
      rintro ⟨⟨heq, hsaved⟩, hlast, hchanges⟩ <;> cases heq
    · exact ⟨⟨rfl, hsaved.imp id fun ⟨_, h⟩ => ⟨⟨f, rfl⟩, h⟩⟩, hlast, hchanges⟩
    · refine ⟨⟨?_, hsaved.imp id fun ⟨⟨_, hf⟩, _⟩ => nomatch hf⟩, hlast, hchanges⟩
      show (if _ then _ else _) = (if _ then _ else _)
      rw [show s'.changes = t'.changes from hchanges]
  idle s hs := by
    have hidle := h.idle s hs
    revert hidle
    rcases step s with ⟨_ | _, s'⟩ <;> exact id

theorem execute_calm {text : String} (hcalm : ∀ sentence ∈ sentences text, sentence.isControl = false)
    (params : List Value) : IsCalm (·.execute text params) :=
  .of_prepared
    (fun s p hp => by
      simp only [execute, hp]
      rcases s.run p with ⟨_ | _, _⟩ <;> rfl)
    (fun s f hp => by simp only [execute, hp]) (fun _ _ hc => prepareText_congr hc text params)
    fun _ _ hp => (run_calm (isControl_of_prepareText hcalm hp)).counted

/-- Calm steps one after the other, up to the first that fails. -/
theorem IsCalm.andThen {step : Session → Except Fault α × Session} {next whole : Session → Except Fault β × Session}
    (h : IsCalm step) (hnext : IsCalm next) (hok : ∀ s a t, step s = (.ok a, t) → whole s = next t)
    (herror : ∀ s f t, step s = (.error f, t) → whole s = (.error f, t)) : IsCalm whole where
  alike s t hst hs ht := by
    have halike := h.alike s t hst hs ht
    rcases hstep : step s with ⟨f | a, s'⟩ <;> rcases htwin : step t with ⟨f' | b, t'⟩ <;> rw [hstep, htwin] at halike <;>
      obtain ⟨⟨heq, hsaved⟩, hlast, hchanges⟩ := halike <;> cases heq
    · rw [herror s f s' hstep, herror t f t' htwin]
      exact ⟨⟨rfl, hsaved.imp id fun ⟨_, h⟩ => ⟨⟨f, rfl⟩, h⟩⟩, hlast, hchanges⟩
    · rw [hok s a s' hstep, hok t a t' htwin]
      obtain ⟨hst', hs', ht'⟩ | ⟨⟨_, hf⟩, -⟩ := hsaved
      · have hopen : s'.saved ≠ [] := fun hnil => hs (hs'.symm.trans hnil)
        have htwinOpen : t'.saved ≠ [] := fun hnil => ht (ht'.symm.trans hnil)
        obtain ⟨⟨heq, hafter⟩, hlast', hchanges'⟩ := hnext.alike s' t' hst' hopen htwinOpen
        refine ⟨⟨heq, hafter.imp (fun ⟨hu, hs'', ht''⟩ => ⟨hu, hs''.trans hs', ht''.trans ht'⟩) ?_⟩, hlast', hchanges'⟩
        exact fun ⟨hf, hs'', hc, ht''⟩ => ⟨hf, hs'', hc.trans (committed_of_saved hs' hopen), ht''⟩
      · cases hf
  idle s hs := by
    have hidle := h.idle s hs
    rcases hstep : step s with ⟨f | a, s'⟩ <;> rw [hstep] at hidle
    · rw [herror s f s' hstep]
      exact hidle
    · rw [hok s a s' hstep]
      exact hnext.idle s' hidle

theorem batchFrom_calm {fuel : Nat} {tokens : List Lexeme}
    (hcalm : ∀ sentence ∈ sentencesFrom fuel tokens, sentence.isControl = false) :
    IsCalm (·.batchFrom fuel tokens) := by
  induction fuel generalizing tokens with
  | zero => exact ⟨fun _ _ hst _ _ => .of_unchanged hst _, fun _ hs => hs⟩
  | succ fuel ih =>
    rw [sentencesFrom] at hcalm
    rcases hread : readFirst tokens with f | ⟨_ | first⟩ <;> rw [hread] at hcalm
    · simp only [batchFrom, hread]
      exact ⟨fun _ _ hst _ _ => .of_unchanged hst _, fun _ hs => hs⟩
    · simp only [batchFrom, hread]
      exact ⟨fun _ _ hst _ _ => .of_unchanged hst _, fun _ hs => hs⟩
    · obtain ⟨hfirst, hrest⟩ := List.forall_mem_cons.1 hcalm
      simp only [batchFrom, hread]
      refine .of_prepared (fun s p hp => by simp only [hp]; rfl) (fun s f hp => by simp only [hp])
        (fun _ _ hc => prepareSentence_congr hc first.sentence []) fun _ p hp => ?_
      exact (run_calm ((isControl_of_prepareSentence hp).trans hfirst)).andThen (ih hrest)
        (fun s a t h => by simp only [h]) (fun s f t h => by simp only [h])

theorem batch_calm {text : String} (hcalm : ∀ sentence ∈ sentences text, sentence.isControl = false) :
    IsCalm (·.batch text) :=
  batchFrom_calm hcalm

/-- What becomes of the savepoints of a session: nothing, unless a statement fails in a way that ends all of them. -/
def Leaves (s : Session) {α : Type} (p : Except Fault α × Session) : Prop :=
  p.2.saved = s.saved ∨ (∃ f, p.1 = .error f) ∧ p.2.saved = [] ∧ p.2.content = s.committed

theorem IsCalm.leaves {step : Session → Except Fault α × Session} (h : IsCalm step) (hopen : s.saved ≠ []) :
    s.Leaves (step s) := by
  obtain ⟨-, ⟨-, hsaved, -⟩ | ⟨hfails, hended, hcontent, -⟩⟩ := (h.alike s s rfl hopen hopen).stay
  · exact .inl hsaved
  · exact .inr ⟨hfails, hended, hcontent⟩

end Session

end GuardedConfig.Sql
