import GuardedConfig.Proofs.Grammar
import Mathlib.Data.List.Forall2

/-!
# `Proofs.TriggerStatements` — the name and the condition of a trigger

The draft of a trigger keeps its name and its condition in one text, with a bar between them, and cuts it at the first
bar when the statement ends. A bar that the name has of its own is taken for that bar: such a name is refused a
condition, and without one it is cut into a name and a condition. All other triggers get the name and the condition
of their statement. Here this is said for all sources that are read, whatever texts their tokens carry.

## Contents

* `statements`, `triggerStatements` — the parts of a source between its `SEMI`s
* `TriggerRead` — what the statement of a trigger is read as
* `Kept`, `Within`, `Within.step`, `Reader.Steps.triggers` — the reader inside a statement, and over all of them
* `TriggerRead.steps` — every such statement is accepted
* `triggers_of_read`, `barred_trigger_without_condition`
-/

namespace GuardedConfig.Statement

open Text Token

/-! ## Statements -/

/-- The statements of a source: what stands between the occurrences of `SEMI`. -/
def statements (tokens : List Token) : List (List Token) := tokens.splitOnP fun t => t.kind = .semi

/-- Whether a statement declares a trigger. The word `TRIGGER` alone is a statement that declares nothing. -/
def declaresTrigger : List Token → Bool
  | word :: _ :: _ => word.kind = .trigger
  | _ => false

def triggerStatements (tokens : List Token) : List (List Token) := (statements tokens).filter declaresTrigger

/-- What the statement of a trigger is read as. -/
inductive TriggerRead : List Token → TriggerDecl → Prop where
  /-- A name without a bar, and a condition. -/
  | watching {word name code : Token} {between : List Token} {last : Token.Kind} {condition : String} :
      word.kind = .trigger → name.kind = .ident → code.kind = .command → '|' ∉ name.text.toList →
      WhenChange between last condition →
      TriggerRead (word :: name :: between ++ [code]) ⟨name.text, condition, code.text⟩
  /-- A name with a bar and no condition: what stands behind the bar is taken for one. -/
  | barred {word name code : Token} {between : List Token} {front back : String} :
      word.kind = .trigger → name.kind = .ident → code.kind = .command → '|' ∉ front.toList →
      name.text = front ++ "|" ++ back →
      between = [] ∨ (∃ mark : Token, mark.kind = .tricond ∧ mark.text = "" ∧ between = [mark]) →
      TriggerRead (word :: name :: between ++ [code]) ⟨front, back, code.text⟩

theorem Phrase.name_of_trigger {statement : List Token} {d : TriggerDecl}
    (h : Phrase statement (.declared (.trigger d))) : ∀ name ∈ statement[1]?, name.text = d.name := by
  cases h
  rintro name ⟨⟩
  rfl

/-- A trigger has the name and the condition of its statement exactly if that name has no bar. -/
theorem TriggerRead.phrase_iff {statement : List Token} {d : TriggerDecl} (h : TriggerRead statement d) :
    Phrase statement (.declared (.trigger d)) ↔ ∀ name ∈ statement[1]?, '|' ∉ name.text.toList := by
  cases h with
  | watching hw hn hc hbar hwhen =>
    refine ⟨fun _ name hname => ?_, fun _ => .trigger hw hn hwhen hc⟩
    cases hname
    exact hbar
  | @barred word name code between front back _ _ _ _ hname _ =>
    have hbar : '|' ∈ name.text.toList := by simp [hname]
    constructor
    · intro hphrase
      have hfront : name.text = front := hphrase.name_of_trigger name rfl
      rw [hname] at hfront
      simpa using congrArg (·.toList.length) hfront
    · intro hfree
      exact absurd hbar (hfree name rfl)

/-! ## The text that is kept -/

/-- The text that is kept for the name and the condition of a trigger, behind its name and some more tokens. -/
inductive Kept (name : String) : List Token → Token.Kind → String → Prop where
  | named : Kept name [] .ident name
  | marked {mark : Token} : mark.kind = .tricond → mark.text = "" → Kept name [mark] .tricond name
  | watching {between : List Token} {last : Token.Kind} {condition : String} : '|' ∉ name.toList →
      WhenChange between last condition → Kept name between last (name ++ "|" ++ condition)

namespace Kept

variable {name ident : String} {between : List Token} {last : Token.Kind} {t : Token}

theorem marks (h : Kept name between .ident ident) (hm : t.kind = .tricond) (he : t.text = "") :
    Kept name (between ++ [t]) .tricond ident := by
  cases h with
  | named => exact .marked hm he
  | watching hbar hwhen =>
    cases hwhen with
    | named hmark hempty hi => exact .watching hbar (.closed hmark hempty hi hm he)

theorem watches (h : Kept name between .ident ident) (hm : t.kind = .tricond) (hne : t.text ≠ "")
    (hbar : '|' ∉ ident.toList) : Kept name (between ++ [t]) .tricond (ident ++ "|" ++ trim t.text) := by
  cases h with
  | named => exact .watching hbar (.inline hm hne)
  | watching => exact absurd hbar (by simp)

theorem names (h : Kept name between .tricond ident) (hi : t.kind = .ident) (hbar : '|' ∉ ident.toList) :
    Kept name (between ++ [t]) .ident (ident ++ "|" ++ trim t.text) := by
  cases h with
  | marked hm he => exact .watching hbar (.named hm he hi)
  | watching => exact absurd hbar (by simp)

end Kept

theorem Kept.last {name ident : String} {between : List Token} {last : Token.Kind} (h : Kept name between last ident) :
    last = .ident ∨ last = .tricond := by
  cases h with
  | named => exact .inl rfl
  | marked => exact .inr rfl
  | watching _ hwhen => exact hwhen.last.symm

/-- What is read is what the kept text is cut into. -/
theorem Kept.triggerRead {word name code : Token} {between : List Token} {last : Token.Kind} {ident : String}
    {front back : List Char} (hw : word.kind = .trigger) (hn : name.kind = .ident) (hc : code.kind = .command)
    (h : Kept name.text between last ident) (hcut : cutAt? ['|'] ident.toList = some (front, back)) :
    TriggerRead (word :: name :: between ++ [code]) ⟨String.ofList front, String.ofList back, code.text⟩ := by
  -- a text that is kept without a condition is the name, so it is the name that has been cut
  have hbarred (hident : ident = name.text)
      (hbetween : between = [] ∨ ∃ mark : Token, mark.kind = .tricond ∧ mark.text = "" ∧ between = [mark]) :
      TriggerRead (word :: name :: between ++ [code]) ⟨String.ofList front, String.ofList back, code.text⟩ := by
    subst hident
    have hfront : '|' ∉ front := mt (List.singleton_infix_iff '|' front).2 (not_infix_of_cutAt? (by simp) hcut)
    have hname : name.text = String.ofList front ++ "|" ++ String.ofList back := by
      apply String.toList_injective
      rw [eq_of_cutAt? hcut]
      simp
    exact .barred hw hn hc (by simpa using hfront) hname hbetween
  cases h with
  | named => exact hbarred rfl (.inl rfl)
  | @marked mark hm he => exact hbarred rfl (.inr ⟨mark, hm, he, rfl⟩)
  | @watching _ _ condition hbar hwhen =>
    have hident : (name.text ++ "|" ++ condition).toList = name.text.toList ++ '|' :: condition.toList := by simp
    rw [hident, cutAt?_singleton hbar] at hcut
    cases hcut
    rw [String.ofList_toList, String.ofList_toList]
    exact .watching hw hn hc hbar hwhen

/-! ## Inside a statement -/

/-- The reader after some tokens of a statement. Of a statement that declares no trigger it is only said that it is
none. -/
inductive Within : List Token → State → Draft → Prop where
  | start : Within [] .start {}
  | word {t : Token} : Within [t] (.after t.kind) {}
  | other {word next : Token} {rest : List Token} {state : State} {draft : Draft} : word.kind ≠ .trigger →
      state ≠ .start → state ≠ .after .trigger → state ≠ .after .eof → draft.handling ≠ some .trigger →
      Within (word :: next :: rest) state draft
  | trigger {word name : Token} {between : List Token} {last : Token.Kind} {ident : String} :
      word.kind = .trigger → name.kind = .ident → Kept name.text between last ident →
      Within (word :: name :: between) (.after last) { handling := some .trigger, ident }
  | filled {word name code : Token} {between : List Token} {last : Token.Kind} {ident : String} :
      word.kind = .trigger → name.kind = .ident → Kept name.text between last ident → code.kind = .command →
      Within (word :: name :: between ++ [code]) .sql { handling := some .trigger, ident, body := some code.text }

/-- The trigger that is declared, if one is. -/
def triggersOf : Option Declaration → List TriggerDecl
  | some (.trigger d) => [d]
  | _ => []

theorem triggers_withDeclaration (p : Parsed) (d : Option Declaration) :
    (p.withDeclaration d).declarations.triggers = p.declarations.triggers ++ triggersOf d := by
  rcases d with _ | (_ | _ | _ | _) <;> simp [Parsed.withDeclaration, Declarations.push, triggersOf]

theorem triggersOf_emit {draft : Draft} {d : Option Declaration} (h : draft.emit = .ok d)
    (hother : draft.handling ≠ some .trigger) : triggersOf d = [] := by
  obtain ⟨handling, ident, argument, body⟩ := draft
  cases handling with
  | none =>
    cases h
    rfl
  | some handling =>
    cases body with
    | none => cases h
    | some body =>
      cases handling with
      | trigger => exact absurd rfl hother
      | _ =>
        cases h
        rfl

/-- **The end of a statement**: it declares a trigger as it is read, or no trigger. -/
theorem Within.emit {statement : List Token} {state : State} {draft : Draft} {d : Option Declaration}
    (h : Within statement state draft) (hd : draft.emit = .ok d) :
    List.Forall₂ TriggerRead ([statement].filter declaresTrigger) (triggersOf d) := by
  cases h with
  | start | word =>
    cases hd
    exact .nil
  | other hword _ _ _ hother =>
    rw [triggersOf_emit hd hother]
    simp [declaresTrigger, hword]
  | trigger => cases hd
  | @filled word name code between _ ident hw hn hkept hc =>
    have hopens : declaresTrigger (word :: name :: between ++ [code]) = true := by simp [declaresTrigger, hw]
    rw [List.filter_cons_of_pos hopens, List.filter_nil]
    simp only [Draft.emit] at hd
    split at hd
    · rename_i front back hcut
      cases hd
      exact .cons (hkept.triggerRead hw hn hc hcut) .nil
    · cases hd

/-- **One more token of a statement.** -/
theorem Within.step {statement : List Token} {r r' : Reader} {t : Token} (h : Within statement r.state r.draft)
    (hstep : r.Step t r') (ht : t.kind ≠ .semi) :
    Within (statement ++ [t]) r'.state r'.draft ∧ r'.parsed.declarations.triggers = r.parsed.declarations.triggers := by
  obtain ⟨state, draft, p⟩ := r
  dsimp only at h
  cases h with
  | start =>
    cases hstep with
    | closes _ _ hsemi => exact absurd hsemi ht
    | begins => exact ⟨.word, rfl⟩
    | _ => simp_all
  | @word word =>
    cases hstep with
    | closes _ _ hsemi => exact absurd hsemi ht
    | tags htag htrue =>
      have hword : word.kind ≠ .trigger := by
        intro hword
        obtain rfl := State.after.inj htag
        rw [hword] at htrue
        cases htrue
      exact ⟨.other hword nofun nofun nofun nofun, rfl⟩
    | @declares handling hword hname =>
      have hword := State.after.inj hword
      by_cases hhandling : handling = .trigger
      · subst hhandling
        exact ⟨.trigger hword hname .named, rfl⟩
      · have hother : word.kind ≠ .trigger := by
          rw [hword]
          cases handling <;> simp_all [Handling.word]
        exact ⟨.other hother nofun nofun nofun (by simpa using hhandling), rfl⟩
    | _ => simp_all
  | other hword hstart htrigger heof hother =>
    cases hstep with
    | closes _ _ hsemi => exact absurd hsemi ht
    | begins hs => exact absurd hs hstart
    | declares hs =>
      refine ⟨.other hword nofun nofun nofun ?_, rfl⟩
      rintro ⟨⟩
      exact htrigger hs
    | _ => exact ⟨.other hword nofun nofun nofun hother, rfl⟩
  | trigger hw hn hkept =>
    have hlast := hkept.last
    cases hstep with
    | closes _ _ hsemi => exact absurd hsemi ht
    | tags htag htrue => exact absurd htrue (Reader.Step.not_tag rfl (hlast.imp_right .inr) htag)
    | marks hs hm _ he =>
      cases hs
      exact ⟨.trigger hw hn (hkept.marks hm he), rfl⟩
    | watches hs hm _ hne hbar =>
      cases hs
      exact ⟨.trigger hw hn (hkept.watches hm hne hbar), rfl⟩
    | names hs hi _ hbar =>
      cases hs
      exact ⟨.trigger hw hn (hkept.names hi hbar), rfl⟩
    | fills _ hc => exact ⟨.filled hw hn hkept hc, rfl⟩
    | _ => rcases hlast with rfl | rfl <;> simp_all
  | filled =>
    cases hstep with
    | closes _ _ hsemi => exact absurd hsemi ht
    | _ => simp_all

/-- A source ends between two statements, or behind a single token. -/
theorem Within.not_declaresTrigger {statement : List Token} {state : State} {draft : Draft}
    (h : Within statement state draft) (heof : state = .after .eof) : declaresTrigger statement = false := by
  cases h with
  | start | word => rfl
  | other hword => simp [declaresTrigger, hword]
  | trigger _ _ hkept => rcases hkept.last with rfl | rfl <;> cases heof
  | filled => cases heof

/-! ## Sources -/

theorem triggerStatements_append {statement rest : List Token} {semi : Token}
    (hfree : ∀ t ∈ statement, t.kind ≠ .semi) (hsemi : semi.kind = .semi) :
    triggerStatements (statement ++ semi :: rest) = [statement].filter declaresTrigger ++ triggerStatements rest := by
  rw [triggerStatements, statements,
    List.splitOnP_append_cons_of_forall_mem (by simpa using hfree) semi (by simpa using hsemi)]
  exact List.filter_append [statement] _

/-- `SEMI` is only accepted as the end of a statement. -/
theorem Reader.Step.of_semi {r r' : Reader} {t : Token} (h : r.Step t r') (ht : t.kind = .semi) :
    ∃ d, r.draft.emit = .ok d ∧ r' = ⟨.start, {}, r.parsed.withDeclaration d⟩ := by
  cases h with
  | closes _ _ _ hd => exact ⟨_, hd, rfl⟩
  | _ => simp_all

/-- **The triggers of a source**, from any point inside a statement to the end. -/
theorem Reader.Steps.triggers {statement rest : List Token} {r last : Reader} (hsteps : r.Steps rest last)
    (h : Within statement r.state r.draft) (hfree : ∀ t ∈ statement, t.kind ≠ .semi)
    (hlast : last.state = .after .eof) :
    ∃ new, last.parsed.declarations.triggers = r.parsed.declarations.triggers ++ new ∧
      List.Forall₂ TriggerRead (triggerStatements (statement ++ rest)) new := by
  induction hsteps generalizing statement with
  | nil =>
    refine ⟨[], by simp, ?_⟩
    have hnone := h.not_declaresTrigger hlast
    rw [List.append_nil, triggerStatements, statements, List.splitOnP_eq_singleton (by simpa using hfree)]
    simp [hnone]
  | @cons r r' last t rest hstep hrest ih =>
    by_cases ht : t.kind = .semi
    · obtain ⟨d, hd, rfl⟩ := hstep.of_semi ht
      obtain ⟨new, hnew, hread⟩ := ih .start (fun _ h => nomatch h) hlast
      refine ⟨triggersOf d ++ new, ?_, ?_⟩
      · rw [hnew, triggers_withDeclaration, List.append_assoc]
      · rw [triggerStatements_append hfree ht]
        exact List.rel_append (h.emit hd) hread
    · obtain ⟨hwithin, hsame⟩ := h.step hstep ht
      rw [List.append_cons, ← hsame]
      exact ih hwithin (by simpa [or_imp, forall_and, ht] using hfree) hlast

/-! ## Accepted triggers -/

theorem Kept.steps {name ident : String} {between : List Token} {last : Token.Kind} (h : Kept name between last ident)
    (p : Parsed) :
    Reader.Steps ⟨.after .ident, { handling := some .trigger, ident := name }, p⟩ between
      ⟨.after last, { handling := some .trigger, ident }, p⟩ := by
  cases h with
  | named => exact .nil
  | marked hm he => exact .cons (.marks rfl hm rfl he) .nil
  | watching hbar hwhen =>
    cases hwhen with
    | inline hm hne => exact .cons (.watches rfl hm rfl hne hbar) .nil
    | named hm he hi => exact .cons (.marks rfl hm rfl he) (.cons (.names rfl hi rfl hbar) .nil)
    | closed hm he hi hl hle =>
      exact .cons (.marks rfl hm rfl he) (.cons (.names rfl hi rfl hbar) (.cons (.marks rfl hl rfl hle) .nil))

/-- **All of these statements are accepted**, those with a bar in the name as well. -/
theorem TriggerRead.steps {statement : List Token} {d : TriggerDecl} (h : TriggerRead statement d) {semi : Token}
    (hsemi : semi.kind = .semi) (p : Parsed) :
    (Reader.between p).Steps (statement ++ [semi]) (Reader.between (p.add (.declared (.trigger d)))) := by
  -- whatever is kept of a name and a condition, it is cut at the bar between them
  have hsteps {word name code : Token} {between : List Token} {last : Token.Kind} {front back : String}
      (hw : word.kind = .trigger) (hn : name.kind = .ident) (hc : code.kind = .command) (hfront : '|' ∉ front.toList)
      (hkept : Kept name.text between last (front ++ "|" ++ back)) :
      (Reader.between p).Steps ((word :: name :: between ++ [code]) ++ [semi])
        (Reader.between (p.add (.declared (.trigger ⟨front, back, code.text⟩)))) := by
    rw [List.append_assoc]
    refine .opened .trigger hw hn ((hkept.steps p).append (.cons (.fills ?_ hc nofun rfl)
      (.closed nofun nofun hsemi (Draft.emit_trigger hfront) rfl)))
    exact hkept.last.imp (congrArg State.after) (congrArg State.after)
  cases h with
  | watching hw hn hc hbar hwhen => exact hsteps hw hn hc hbar (.watching hbar hwhen)
  | @barred word name code between front back hw hn hc hfront hname hbetween =>
    rcases hbetween with rfl | ⟨mark, hm, he, rfl⟩
    · have hkept : Kept name.text [] .ident (front ++ "|" ++ back) := by
        rw [← hname]
        exact .named
      exact hsteps hw hn hc hfront hkept
    · have hkept : Kept name.text [mark] .tricond (front ++ "|" ++ back) := by
        rw [← hname]
        exact .marked hm he
      exact hsteps hw hn hc hfront hkept

/-! ## What triggers are read as -/

theorem TriggerRead.forall₂_phrase_iff {parts : List (List Token)} {ds : List TriggerDecl}
    (h : List.Forall₂ TriggerRead parts ds) :
    List.Forall₂ (fun statement d => Phrase statement (.declared (.trigger d))) parts ds ↔
      ∀ statement ∈ parts, ∀ name ∈ statement[1]?, '|' ∉ name.text.toList := by
  induction h with
  | nil => simp
  | cons hread _ ih => rw [List.forall₂_cons, hread.phrase_iff, ih, List.forall_mem_cons]

/-- **The triggers that are read**: one for each statement of a trigger, in order. All have the name and the condition
of their statement exactly if none of these names has a bar; a name with a bar is cut at it, and is accepted only
without a condition. -/
theorem triggers_of_read {tokens : List Token} {p : Parsed} (h : read tokens = .ok p) :
    List.Forall₂ TriggerRead (triggerStatements tokens) p.declarations.triggers ∧
      (List.Forall₂ (fun statement d => Phrase statement (.declared (.trigger d))) (triggerStatements tokens)
          p.declarations.triggers ↔
        ∀ statement ∈ triggerStatements tokens, ∀ name ∈ statement[1]?, '|' ∉ name.text.toList) := by
  obtain ⟨last, hsteps, hfinish⟩ := read_eq_ok.1 h
  obtain ⟨hlast, rfl⟩ := finish_eq_ok_iff.1 hfinish
  obtain ⟨new, hnew, hread⟩ := hsteps.triggers .start (fun _ h => nomatch h) hlast
  obtain rfl : last.parsed.declarations.triggers = new := hnew
  exact ⟨hread, TriggerRead.forall₂_phrase_iff hread⟩

/-- A trigger on a named config, the word alone, and a name with a bar. -/
def watchTokens : List Token :=
  [⟨.trigger, none, nofun⟩, .withText .ident "t", ⟨.tricond, none, nofun⟩, .withText .ident " C ",
   ⟨.tricond, none, nofun⟩, .withText .command "code", ⟨.semi, none, nofun⟩,
   ⟨.trigger, none, nofun⟩, ⟨.semi, none, nofun⟩,
   ⟨.trigger, none, nofun⟩, .withText .ident "a|b", .withText .command "more", ⟨.semi, none, nofun⟩,
   ⟨.eof, none, nofun⟩]

theorem triggers_of_read_watch :
    read watchTokens = .ok { declarations := { triggers := [⟨"t", "C", "code"⟩, ⟨"a", "b", "more"⟩] } } ∧
      List.Forall₂ TriggerRead (triggerStatements watchTokens) [⟨"t", "C", "code"⟩, ⟨"a", "b", "more"⟩] :=
  have h : read watchTokens = .ok { declarations := { triggers := [⟨"t", "C", "code"⟩, ⟨"a", "b", "more"⟩] } } := by
    decide +kernel
  ⟨h, (triggers_of_read h).1⟩

/-- A trigger whose name has a bar, and which has no condition. -/
def barredTokens : List Token :=
  [⟨.trigger, none, nofun⟩, .withText .ident "a|b", .withText .command "code", ⟨.semi, none, nofun⟩,
   ⟨.eof, none, nofun⟩]

/-- A trigger without a condition is accepted, and one is cut from its name. -/
theorem barred_trigger_without_condition :
    ∃ p, read barredTokens = .ok p ∧ p.declarations.triggers = [⟨"a", "b", "code"⟩] ∧
      ¬List.Forall₂ (fun statement d => Phrase statement (.declared (.trigger d))) (triggerStatements barredTokens)
        p.declarations.triggers := by
  refine ⟨{ declarations := { triggers := [⟨"a", "b", "code"⟩] } }, by decide +kernel, rfl, ?_⟩
  rw [show triggerStatements barredTokens = [barredTokens.take 3] by decide +kernel]
  intro h
  have hname := (List.forall₂_cons.1 h).1.name_of_trigger (.withText .ident "a|b") rfl
  exact absurd hname (by decide)

end GuardedConfig.Statement
