import GuardedConfig.Proofs.Grammar

/-!
# `Proofs.Concatenation` — one source behind another

Between two statements the reader holds nothing but what has been read: its draft is empty. So a source does the same
behind another one as on its own, and what both convey is put together, where the later text of a tag counts. If the
second one is refused, it is refused for the same reason. Within one run a fault is final: the reader stays as it is,
and refuses every token and the end.

## Contents

* `Json.override`, `mem_override` — members behind other members
* `Parsed.followedBy`, `Reader.behind` — what has been read, behind what was read before
* `feed_behind`, `feedAll_behind` — one token, and many
* `Steps.draft_eq`, `feedAll_of_read` — between two statements the draft is empty
* `feed_of_error`, `feeds_of_error` — after a fault
* `statements_independent`
-/

/-! ## Members behind other members -/

namespace GuardedConfig.Json

variable {α : Type} {key k : String} {value v : α} {ms new : List (String × α)}

/-- Members with others behind them, which replace those with the same keys. -/
def override (ms new : List (String × α)) : List (String × α) :=
  new.foldl (fun ms m => insertMember m.1 m.2 ms) ms

theorem override_cons (m : String × α) : override ms (m :: new) = override (insertMember m.1 m.2 ms) new := rfl

theorem pairwise_override (h : ms.Pairwise (·.1 < ·.1)) : (override ms new).Pairwise (·.1 < ·.1) := by
  induction new generalizing ms with
  | nil => exact h
  | cons m new ih => exact ih (pairwise_insertMember h)

/-- What a key has is what it has in the later members, or else what it has in the earlier ones. -/
theorem mem_override (h : ms.Pairwise (·.1 < ·.1)) (hnew : new.Pairwise (·.1 < ·.1)) :
    (k, v) ∈ override ms new ↔ (k, v) ∈ new ∨ (∀ w, (k, w) ∉ new) ∧ (k, v) ∈ ms := by
  induction new generalizing ms with
  | nil => simp [override]
  | cons m new ih =>
    obtain ⟨key, value⟩ := m
    obtain ⟨hfirst, hrest⟩ := List.pairwise_cons.1 hnew
    rw [override_cons, ih (pairwise_insertMember h) hrest, mem_insertMember h]
    by_cases hk : k = key
    · subst hk
      have habove : ∀ w, (k, w) ∉ new := fun w hw => (hfirst _ hw).ne rfl
      simp [habove]
    · simp [hk]

/-- A new member may be added to the later ones before or after they are put behind the earlier ones. -/
theorem override_insertMember (h : ms.Pairwise (·.1 < ·.1)) (hnew : new.Pairwise (·.1 < ·.1)) :
    override ms (insertMember key value new) = insertMember key value (override ms new) := by
  refine eq_of_mem_iff (pairwise_override h) (pairwise_insertMember (pairwise_override h)) fun k v => ?_
  rw [mem_override h (pairwise_insertMember hnew), mem_insertMember (pairwise_override h), mem_override h hnew,
    mem_insertMember hnew]
  by_cases hk : k = key
  · subst hk
    have hself : ¬ ∀ w, (k, w) ∉ insertMember k value new :=
      fun hall => hall value ((mem_insertMember hnew).2 (.inl ⟨rfl, rfl⟩))
    simp [hself]
  · simp [hk, mem_insertMember hnew]

end GuardedConfig.Json

namespace GuardedConfig.Statement

open Token

/-! ## What is read behind something else -/

/-- What has been read, with what is read behind it: declarations are added to those of their kind, and a tag has the
text that is given to it last. -/
def Parsed.followedBy (p q : Parsed) : Parsed :=
  ⟨Json.override p.metadata q.metadata, p.declarations.append q.declarations⟩

theorem Parsed.followedBy_empty (p : Parsed) : p.followedBy {} = p := by
  simp [followedBy, Json.override, Declarations.append]

/-- A reader to which something has been read before. -/
def Reader.behind (p : Parsed) (r : Reader) : Reader := { r with parsed := p.followedBy r.parsed }

/-- The metadata of a reader is ordered by tag. -/
def Reader.Ordered (r : Reader) : Prop := r.parsed.metadata.Pairwise (·.1 < ·.1)

variable {p q : Parsed} {r r' : Reader} {t : Token} {tokens : List Token} {kind : Token.Kind} {text : String}

namespace Reader

/-- An action adds to what has been read, and does not look at it. -/
theorem perform_behind (hp : p.metadata.Pairwise (·.1 < ·.1)) (hr : r.Ordered) (action : Action) :
    (r.behind p).perform action kind text = (r.perform action kind text).map (behind p) := by
  cases action with
  | pushKv tag =>
    simp only [perform, behind, Parsed.followedBy, Except.map, Json.override_insertMember hp hr]
  | emit =>
    simp only [perform, behind]
    rcases r.draft.emit with e | _ | d
    · rfl
    · rfl
    · simp only [Except.map, behind, Parsed.followedBy, Declarations.append_push]
  | whenChange | condition =>
    simp only [perform, behind, apply_ite (Except.map _)]
    rcases r.draft.withCondition text with e | d <;> rfl
  | _ =>
    simp only [perform, behind, apply_ite (Except.map _)]
    rfl

theorem Step.ordered (h : r.Step t r') (hr : r.Ordered) : r'.Ordered := by
  cases h with
  | tags => exact Json.pairwise_insertMember hr
  | _ => exact hr

/-- **One token**: it does the same, whatever has been read before. -/
theorem feed_behind (hp : p.metadata.Pairwise (·.1 < ·.1)) (hr : r.Ordered) :
    (r.behind p).feed t = ((r.feed t).1, (r.feed t).2.behind p) := by
  have hstate : (r.behind p).state = r.state := rfl
  simp only [feed, hstate, perform_behind hp hr]
  rcases r.perform (transition r.state t.kind).2 t.kind t.text with fault | next <;> rfl

/-- **Many tokens** do the same, whatever has been read before. -/
theorem feedAll_behind (hp : p.metadata.Pairwise (·.1 < ·.1)) (hr : r.Ordered) :
    (r.behind p).feedAll tokens = (r.feedAll tokens).map (behind p) := by
  induction tokens generalizing r with
  | nil => rfl
  | cons t tokens ih =>
    rw [feedAll, feedAll, feed_behind hp hr]
    rcases hfeed : r.feed t with ⟨stop | ⟨⟩, next⟩
    · rfl
    · exact ih ((feed_eq_ok_iff.1 hfeed).ordered hr)

theorem finish_behind : (r.behind p).finish = r.finish.map p.followedBy := by
  simp only [finish, behind, apply_ite (Except.map _)]
  rfl

/-! ## Between two statements -/

theorem feedAll_append (front back : List Token) :
    r.feedAll (front ++ back) = (r.feedAll front).bind (·.feedAll back) := by
  induction front generalizing r with
  | nil => rfl
  | cons t front ih =>
    rw [List.cons_append, feedAll, feedAll]
    rcases r.feed t with ⟨stop | ⟨⟩, next⟩
    · rfl
    · exact ih

/-- A token that leads between two statements empties the draft. -/
theorem Step.draft_eq (h : r.Step t r') (hstart : r'.state = .start) : r'.draft = {} := by
  cases h with
  | closes => rfl
  | _ => cases hstart

theorem Steps.draft_eq (h : r.Steps tokens r') (hr : r.state = .start → r.draft = {}) (hstart : r'.state = .start) :
    r'.draft = {} := by
  induction h with
  | nil => exact hr hstart
  | cons hstep _ ih => exact ih hstep.draft_eq hstart

theorem Steps.ordered (h : r.Steps tokens r') (hr : r.Ordered) : r'.Ordered := by
  induction h with
  | nil => exact hr
  | cons hstep _ ih => exact ih (hstep.ordered hr)

/-- The end of the source is accepted between two statements alone. -/
theorem Step.state_eq_start (h : r.Step t r') (heof : t.kind = .eof) : r.state = .start ∧ r'.parsed = r.parsed := by
  cases h with
  | begins hs => exact ⟨hs, rfl⟩
  | closes _ _ hk | tags _ _ hk | declares _ hk | types _ hk | rules _ hk | marks _ hk | watches _ hk | names _ hk
  | fills _ hk | fillsTemplate _ hk => cases heof.symm.trans hk

end Reader

/-- Tokens that are read with the end behind them lead between two statements, where nothing but what has been read is
kept. -/
theorem feedAll_of_read {last : Token} (hlast : last.kind = .eof) (h : read (tokens ++ [last]) = .ok p) :
    Reader.feedAll {} tokens = .ok (.between p) ∧ (Reader.between p).Ordered := by
  obtain ⟨final, hsteps, hfinish⟩ := read_eq_ok.1 h
  obtain ⟨-, rfl⟩ := finish_eq_ok_iff.1 hfinish
  rw [← Reader.feedAll_eq_ok_iff, Reader.feedAll_append] at hsteps
  rcases hfront : Reader.feedAll {} tokens with stop | r
  · rw [hfront] at hsteps
    cases hsteps
  rw [hfront] at hsteps
  obtain _ | ⟨hstep, hnil⟩ := Reader.feedAll_eq_ok_iff.1 hsteps
  cases hnil
  obtain ⟨hstart, hparsed⟩ := hstep.state_eq_start hlast
  have hfed := Reader.feedAll_eq_ok_iff.1 hfront
  have hordered : r.Ordered := hfed.ordered (r := {}) List.Pairwise.nil
  have hdraft : r.draft = {} := hfed.draft_eq (r := {}) (fun _ => rfl) hstart
  obtain ⟨state, draft, parsed⟩ := r
  dsimp only at hstart hparsed hdraft
  subst hstart hdraft
  rw [hparsed]
  exact ⟨rfl, hordered⟩

/-- **Sources behind one another**: behind a source, tokens are read as on their own, and what they convey is put behind
what the source has conveyed. -/
theorem read_append {last : Token} (hlast : last.kind = .eof) (h : read (tokens ++ [last]) = .ok p)
    (more : List Token) : read (tokens ++ more) = (read more).map p.followedBy := by
  obtain ⟨hfed, hordered⟩ := feedAll_of_read hlast h
  have hbehind : Reader.between p = Reader.behind p {} := by
    simp only [Reader.behind, Parsed.followedBy_empty]
  have hall : Reader.feedAll {} (tokens ++ more) = (Reader.feedAll {} more).map (Reader.behind p) := by
    rw [Reader.feedAll_append, hfed, hbehind]
    exact Reader.feedAll_behind hordered List.Pairwise.nil
  unfold read
  rw [hall]
  rcases Reader.feedAll {} more with stop | r
  · rfl
  · exact Reader.finish_behind

/-- What is conveyed by accepted tokens is ordered by tag. -/
theorem ordered_of_read (h : read tokens = .ok p) : p.metadata.Pairwise (·.1 < ·.1) := by
  obtain ⟨final, hsteps, hfinish⟩ := read_eq_ok.1 h
  obtain ⟨-, rfl⟩ := finish_eq_ok_iff.1 hfinish
  exact hsteps.ordered (r := {}) List.Pairwise.nil

/-! ## After a fault -/

namespace Reader

/-- The reader after tokens, each of which may be refused. -/
def feeds (r : Reader) (tokens : List Token) : Reader := tokens.foldl (fun r t => (r.feed t).2) r

/-- A token that is refused changes nothing but the state. -/
theorem feed_error {stop : Stop} (h : (r.feed t).1 = .error stop) : (r.feed t).2 = { r with state := .error } := by
  unfold feed at h ⊢
  dsimp only at h ⊢
  rcases hperform : r.perform (transition r.state t.kind).2 t.kind t.text with fault | next
  · rfl
  · rw [hperform] at h
    cases h

/-- In the error state every token is refused, and the reader stays as it is. -/
theorem feed_of_error (hr : r.state = .error) (t : Token) : r.feed t = (.error ⟨.error, .unexpected t.kind⟩, r) := by
  have hrow : transition r.state t.kind = (.error, .reject) := by rw [hr]; rfl
  obtain ⟨state, draft, parsed⟩ := r
  dsimp only at hr
  subst hr
  rw [feed, hrow]
  rfl

theorem feeds_of_error (hr : r.state = .error) (tokens : List Token) : r.feeds tokens = r := by
  induction tokens with
  | nil => rfl
  | cons t tokens ih =>
    show feeds (r.feed t).2 tokens = r
    rw [feed_of_error hr]
    exact ih

end Reader

/-- **Statements do not influence each other, and a fault is final.** Behind tokens that are read with `EOF` behind
them, others are read or refused as on their own, with the same fault; what both convey is put together kind by kind,
and the later text of a tag counts. Once a token has been refused, so is every other one and the end, and what has been
read by then stays as it is. -/
theorem statements_independent :
    (∀ (front more : List Token) (last : Token) (p : Parsed), last.kind = .eof → read (front ++ [last]) = .ok p →
      read (front ++ more) = (read more).map p.followedBy ∧
      ∀ q, read more = .ok q → (p.followedBy q).declarations = p.declarations.append q.declarations ∧
        (p.followedBy q).metadata.Pairwise (·.1 < ·.1) ∧
        ∀ tag text, (tag, text) ∈ (p.followedBy q).metadata ↔
          (tag, text) ∈ q.metadata ∨ (∀ other, (tag, other) ∉ q.metadata) ∧ (tag, text) ∈ p.metadata) ∧
    ∀ (r : Reader) (t : Token) (stop : Stop), (r.feed t).1 = .error stop → ∀ later : List Token,
      (r.feeds (t :: later)).parsed = r.parsed ∧ (∀ u, ∃ stop, ((r.feeds (t :: later)).feed u).1 = .error stop) ∧
        ∃ stop, (r.feeds (t :: later)).finish = .error stop := by
  constructor
  · intro front more last p hlast h
    refine ⟨read_append hlast h more, fun q hq => ⟨rfl, ?ordered, fun tag text => ?metadata⟩⟩
    case ordered => exact Json.pairwise_override (ordered_of_read h)
    case metadata => exact Json.mem_override (ordered_of_read h) (ordered_of_read hq)
  · intro r t stop hstop later
    have hafter : r.feeds (t :: later) = { r with state := .error } := by
      show Reader.feeds (r.feed t).2 later = _
      rw [Reader.feed_error hstop]
      exact Reader.feeds_of_error rfl later
    rw [hafter]
    exact ⟨rfl, fun u => ⟨_, congrArg Prod.fst (Reader.feed_of_error rfl u)⟩, _, rfl⟩

/-- Tokens with a given author, a column and a trigger. -/
def authored (name : String) : List Token := mixedTokens.set 4 (.withText .string name)

/-- The reader after a lone identifier. -/
def afterIdent : Reader := Reader.feeds {} [.withText .ident "a"]

/-- Of two authors the second one counts, and all columns stay. An identifier behind an identifier is refused, and
`SEMI` does not mend that. -/
theorem statements_independent_authors :
    (read (authored "one") =
        .ok ⟨[("AUTHOR", "one")], { structs := [⟨"n", "n TEXT", none⟩], triggers := [⟨"t", "x", "code"⟩] }⟩ ∧
      read ((authored "one").dropLast ++ authored "two") =
        .ok ⟨[("AUTHOR", "two")],
          { structs := [⟨"n", "n TEXT", none⟩, ⟨"n", "n TEXT", none⟩]
            triggers := [⟨"t", "x", "code"⟩, ⟨"t", "x", "code"⟩] }⟩) ∧
    (afterIdent.feed (.withText .ident "b")).1 = .error ⟨.after .ident, .secondIdentifier⟩ ∧
      ∃ stop, (afterIdent.feeds [.withText .ident "b", mixedTokens.bare .semi rfl]).finish = .error stop := by
  have hone : read (authored "one") =
      .ok ⟨[("AUTHOR", "one")], { structs := [⟨"n", "n TEXT", none⟩], triggers := [⟨"t", "x", "code"⟩] }⟩ := by
    decide +kernel
  have htwo : read (authored "two") =
      .ok ⟨[("AUTHOR", "two")], { structs := [⟨"n", "n TEXT", none⟩], triggers := [⟨"t", "x", "code"⟩] }⟩ := by
    decide +kernel
  have hstop : (afterIdent.feed (.withText .ident "b")).1 = .error ⟨.after .ident, .secondIdentifier⟩ := by
    decide +kernel
  refine ⟨⟨hone, ?_⟩, hstop, (statements_independent.2 _ _ _ hstop [mixedTokens.bare .semi rfl]).2.2⟩
  rw [(statements_independent.1 _ _ (mixedTokens.bare .eof rfl) _ rfl hone).1, htwo]
  decide +kernel

end GuardedConfig.Statement
