import GuardedConfig.Statement.Reader

/-!
# `Proofs.Transitions` — what one token does to a statement

The table of transitions gives the next state and an action, and the action asks something of the draft. `Step` joins
both: it has one case for each way in which a token is accepted. So an argument about accepted sources is a case
analysis on `Step`, and the table and the actions are not opened again.

## Contents

* `Reader.Step`, `feed_eq_ok_iff` — an accepted token
* `Reader.Steps`, `feedAll_eq_ok_iff` — accepted tokens, one after another
-/

namespace GuardedConfig.Statement

open Text Token

/-! ## One token -/

/-- What has been read, with one more declaration if there is one. -/
def Parsed.withDeclaration (p : Parsed) (d : Option Declaration) : Parsed :=
  { p with declarations := d.elim p.declarations p.declarations.push }

theorem ite_error_eq_ok {α ε : Type} {c : Prop} [Decidable c] {e : ε} {x : Except ε α} {a : α} :
    (if c then .error e else x) = .ok a ↔ ¬ c ∧ x = .ok a := by
  split <;> simp [*]

/-- The word that opens a statement. -/
def Handling.word : Handling → Token.Kind
  | .struct => .struct
  | .config => .config
  | .trigger => .trigger
  | .slice => .slice

/-- A token that is accepted, and the reader after it: the rows of the table together with what their actions ask
of the draft. -/
inductive Reader.Step (r : Reader) (t : Token) : Reader → Prop where
  | closes {d : Option Declaration} : r.state ≠ .error → r.state ≠ .after .eof → t.kind = .semi →
      r.draft.emit = .ok d → Step r t ⟨.start, {}, r.parsed.withDeclaration d⟩
  | begins : r.state = .start → t.kind ≠ .semi → Step r t { r with state := .after t.kind }
  | tags {tag : Token.Kind} : r.state = .after tag → tag.isTag = true → t.kind = .string →
      Step r t ⟨.pushKv, r.draft, { r.parsed with metadata := Json.insertMember tag.name t.text r.parsed.metadata }⟩
  | declares {handling : Handling} : r.state = .after handling.word → t.kind = .ident →
      Step r t { r with state := .after .ident, draft := { r.draft with handling := some handling, ident := t.text } }
  | types : r.state = .after .ident → t.kind = .ident → r.draft.handling = some .struct → r.draft.body = none →
      r.draft.argument = none →
      Step r t { r with
        state := .after .ident, draft := { r.draft with body := some (r.draft.ident ++ " " ++ t.text) } }
  | rules : r.state = .after .ident → t.kind = .argument → r.draft.handling = some .struct →
      r.draft.body = none →
      Step r t { r with state := .after .argument, draft := { r.draft with argument := some t.text } }
  | marks : r.state = .after .ident → t.kind = .tricond → r.draft.handling = some .trigger → t.text = "" →
      Step r t { r with state := .after .tricond }
  | watches : r.state = .after .ident → t.kind = .tricond → r.draft.handling = some .trigger → t.text ≠ "" →
      '|' ∉ r.draft.ident.toList →
      Step r t { r with
        state := .after .tricond, draft := { r.draft with ident := r.draft.ident ++ "|" ++ trim t.text } }
  | names : r.state = .after .tricond → t.kind = .ident → r.draft.handling = some .trigger →
      '|' ∉ r.draft.ident.toList →
      Step r t { r with
        state := .after .ident, draft := { r.draft with ident := r.draft.ident ++ "|" ++ trim t.text } }
  | fills : r.state = .after .ident ∨ r.state = .after .tricond → t.kind = .command →
      r.draft.handling ≠ none → r.draft.body = none →
      Step r t { r with state := .sql, draft := { r.draft with body := some t.text } }
  | fillsTemplate : r.state = .after .argument → t.kind = .command → r.draft.handling ≠ none →
      r.draft.body = none →
      Step r t { r with state := .preSql, draft := { r.draft with body := some t.text } }

namespace Reader

/-! ## What the actions ask -/

variable {r next : Reader} {kind : Token.Kind} {text : String}

theorem perform_secondIdent : r.perform .secondIdent kind text = .ok next ↔
    (r.draft.handling = some .struct ∧ r.draft.body = none ∧ r.draft.argument = none) ∧
      { r with draft := { r.draft with body := some (r.draft.ident ++ " " ++ text) } } = next := by
  simp [perform, ite_error_eq_ok, and_assoc]

theorem perform_argument : r.perform .argument kind text = .ok next ↔
    (r.draft.handling = some .struct ∧ r.draft.body = none) ∧
      { r with draft := { r.draft with argument := some text } } = next := by
  simp [perform, ite_error_eq_ok]

theorem withCondition_eq_ok {d d' : Draft} : d.withCondition text = .ok d' ↔
    '|' ∉ d.ident.toList ∧ { d with ident := d.ident ++ "|" ++ trim text } = d' := by
  simp [Draft.withCondition, ite_error_eq_ok]

theorem perform_condition : r.perform .condition kind text = .ok next ↔
    (r.draft.handling = some .trigger ∧ '|' ∉ r.draft.ident.toList) ∧
      { r with draft := { r.draft with ident := r.draft.ident ++ "|" ++ trim text } } = next := by
  by_cases ht : r.draft.handling = some .trigger <;> by_cases hb : '|' ∈ r.draft.ident.toList <;>
    simp [perform, Draft.withCondition, Except.map, ht, hb]

theorem perform_whenChange : r.perform .whenChange kind text = .ok next ↔
    r.draft.handling = some .trigger ∧
      (text = "" ∧ r = next ∨ text ≠ "" ∧ r.perform .condition kind text = .ok next) := by
  by_cases ht : r.draft.handling = some .trigger <;> by_cases he : text = "" <;> simp [perform, ht, he]

theorem perform_body : r.perform .body kind text = .ok next ↔
    (r.draft.handling ≠ none ∧ r.draft.body = none) ∧
      { r with draft := { r.draft with body := some text } } = next := by
  simp [perform, ite_error_eq_ok, and_assoc]

theorem perform_emit : r.perform .emit kind text = .ok next ↔
    ∃ d, r.draft.emit = .ok d ∧ { r with draft := {}, parsed := r.parsed.withDeclaration d } = next := by
  simp only [perform]
  rcases r.draft.emit with e | _ | d <;> simp [Parsed.withDeclaration]

/-! ## The table -/

theorem feed_eq_ok {t : Token} {r' : Reader} : r.feed t = (.ok (), r') ↔
    ∃ next, r.perform (transition r.state t.kind).2 t.kind t.text = .ok next ∧
      { next with state := (transition r.state t.kind).1 } = r' := by
  unfold feed
  dsimp only
  rcases r.perform (transition r.state t.kind).2 t.kind t.text with _ | next <;> simp

theorem transition_semi {state : State} (herror : state ≠ .error) (heof : state ≠ .after .eof) :
    transition state .semi = (.start, .emit) := by
  unfold transition
  split <;> simp_all

theorem transition_start {kind : Token.Kind} (h : kind ≠ .semi) :
    transition .start kind = (.after kind, .nothing) := by
  cases kind <;> first | rfl | exact absurd rfl h

theorem transition_tag {tag : Token.Kind} (h : tag.isTag = true) :
    transition (.after tag) .string = (.pushKv, .pushKv tag) := by
  cases tag <;> first | rfl | cases h

theorem transition_word (handling : Handling) :
    transition (.after handling.word) .ident = (.after .ident, .declare handling) := by
  cases handling <;> rfl

/-- **What one token does**: it is accepted exactly in these cases. -/
theorem feed_eq_ok_iff {t : Token} {r' : Reader} : r.feed t = (.ok (), r') ↔ r.Step t r' := by
  rw [feed_eq_ok]
  constructor
  · rintro ⟨next, hperform, rfl⟩
    -- the rows of the table match on state and kind, so these have to be variables
    generalize hs : r.state = state, hk : t.kind = kind at hperform ⊢
    revert hs hk hperform
    fun_cases transition state kind <;> intro hs hk hperform
    case case3 herror heof =>
      obtain ⟨d, hd, rfl⟩ := perform_emit.1 hperform
      exact .closes (hs ▸ herror) (hs ▸ heof) hk hd
    case case4 hsemi =>
      cases hperform
      exact hk ▸ .begins hs (hk ▸ hsemi)
    -- the four words with a name behind them
    case case5 | case6 | case7 | case8 =>
      cases hperform
      exact @Step.declares _ _ _ hs hk
    case case9 =>
      obtain ⟨⟨hstruct, hbody, hargument⟩, rfl⟩ := perform_secondIdent.1 hperform
      exact .types hs hk hstruct hbody hargument
    case case10 =>
      obtain ⟨⟨hstruct, hbody⟩, rfl⟩ := perform_argument.1 hperform
      exact .rules hs hk hstruct hbody
    case case11 =>
      obtain ⟨htrigger, ⟨hempty, rfl⟩ | ⟨htext, hperform⟩⟩ := perform_whenChange.1 hperform
      · exact .marks hs hk htrigger hempty
      · obtain ⟨⟨-, hbar⟩, rfl⟩ := perform_condition.1 hperform
        exact .watches hs hk htrigger htext hbar
    case case12 =>
      obtain ⟨⟨htrigger, hbar⟩, rfl⟩ := perform_condition.1 hperform
      exact .names hs hk htrigger hbar
    case case13 =>
      obtain ⟨⟨hhandling, hbody⟩, rfl⟩ := perform_body.1 hperform
      exact .fills (.inl hs) hk hhandling hbody
    case case14 =>
      obtain ⟨⟨hhandling, hbody⟩, rfl⟩ := perform_body.1 hperform
      exact .fills (.inr hs) hk hhandling hbody
    case case15 =>
      obtain ⟨⟨hhandling, hbody⟩, rfl⟩ := perform_body.1 hperform
      exact .fillsTemplate hs hk hhandling hbody
    case case16 tag _ htag =>
      cases hperform
      exact .tags hs htag hk
    -- the remaining rows lead to the error state, where no action succeeds
    all_goals cases hperform
  · intro h
    cases h with
    | closes herror heof hk hd =>
      rw [hk, transition_semi herror heof]
      exact ⟨_, perform_emit.2 ⟨_, hd, rfl⟩, rfl⟩
    | begins hs hk =>
      rw [hs, transition_start hk]
      exact ⟨_, rfl, rfl⟩
    | tags hs htag hk =>
      rw [hs, hk, transition_tag htag]
      exact ⟨_, rfl, rfl⟩
    | declares hs hk =>
      rw [hs, hk, transition_word]
      exact ⟨_, rfl, rfl⟩
    | types hs hk hstruct hbody hargument =>
      rw [hs, hk]
      exact ⟨_, perform_secondIdent.2 ⟨⟨hstruct, hbody, hargument⟩, rfl⟩, rfl⟩
    | rules hs hk hstruct hbody =>
      rw [hs, hk]
      exact ⟨_, perform_argument.2 ⟨⟨hstruct, hbody⟩, rfl⟩, rfl⟩
    | marks hs hk htrigger hempty =>
      rw [hs, hk]
      exact ⟨_, perform_whenChange.2 ⟨htrigger, .inl ⟨hempty, rfl⟩⟩, rfl⟩
    | watches hs hk htrigger htext hbar =>
      rw [hs, hk]
      exact ⟨_, perform_whenChange.2
        ⟨htrigger, .inr ⟨htext, perform_condition.2 ⟨⟨htrigger, hbar⟩, rfl⟩⟩⟩, rfl⟩
    | names hs hk htrigger hbar =>
      rw [hs, hk]
      exact ⟨_, perform_condition.2 ⟨⟨htrigger, hbar⟩, rfl⟩, rfl⟩
    | fills hs hk hhandling hbody =>
      obtain hs | hs := hs <;> rw [hs, hk] <;> exact ⟨_, perform_body.2 ⟨⟨hhandling, hbody⟩, rfl⟩, rfl⟩
    | fillsTemplate hs hk hhandling hbody =>
      rw [hs, hk]
      exact ⟨_, perform_body.2 ⟨⟨hhandling, hbody⟩, rfl⟩, rfl⟩

/-! ## Many tokens -/

/-- Tokens that are accepted one after another. -/
inductive Steps : Reader → List Token → Reader → Prop where
  | nil {r : Reader} : Steps r [] r
  | cons {r r' last : Reader} {t : Token} {tokens : List Token} : r.Step t r' → Steps r' tokens last →
      Steps r (t :: tokens) last

theorem Steps.append {r r' last : Reader} {front back : List Token} (h : r.Steps front r') (h' : r'.Steps back last) :
    r.Steps (front ++ back) last := by
  induction h with
  | nil => exact h'
  | cons hstep _ ih => exact .cons hstep (ih h')

/-- **What many tokens do**: they are accepted exactly if each one is, at the reader that the ones before it leave. -/
theorem feedAll_eq_ok_iff {r last : Reader} {tokens : List Token} :
    r.feedAll tokens = .ok last ↔ r.Steps tokens last := by
  induction tokens generalizing r with
  | nil =>
    constructor
    · rintro ⟨⟩
      exact .nil
    · rintro ⟨⟩
      rfl
  | cons t tokens ih =>
    rw [feedAll]
    constructor
    · intro h
      rcases hfeed : r.feed t with ⟨stop | ⟨⟩, next⟩ <;> rw [hfeed] at h
      · cases h
      · exact .cons (feed_eq_ok_iff.1 hfeed) (ih.1 h)
    · rintro (_ | ⟨hstep, h⟩)
      rw [feed_eq_ok_iff.2 hstep]
      exact ih.2 h

end Reader

end GuardedConfig.Statement
