import GuardedConfig.Proofs.JsonValues
import GuardedConfig.Proofs.Pieces
import GuardedConfig.Proofs.Transitions
import Mathlib.Data.List.Chain

/-!
# `Proofs.Grammar` — the sources that are accepted, and what they convey

The reader has no grammar: it has states, actions and a draft with four parts, and whether a token fits depends on all
of them. Here the statements are written down as sequences of tokens, and the reader accepts exactly the sequences of
statements with `EOF` behind them. What it has read then is what the statements say: every declaration with its texts
as they stand, in order within each kind, and for every tag the last text given to it.

A draft keeps the name of a trigger and its condition in one text with a bar between them, so a name with a bar is cut
in the wrong place. The grammar holds for sources in which no identifier behind the word `TRIGGER` has a bar.

## Contents

* `WhenChange`, `Phrase`, `Source`, `Content` — the grammar
* `Phrase.steps`, `Source.steps` — what the grammar has is accepted
* `Opened`, `Opened.step`, `Reader.Steps.source` — what is accepted, the grammar has
* `Conveys`, `read_eq_ok_iff`
-/

namespace GuardedConfig.Statement

open Text Token

/-! ## The grammar -/

/-- What a statement says. -/
inductive Content where
  | nothing
  | tagged (tag : Token.Kind) (text : String)
  | declared (d : Declaration)
deriving DecidableEq, Repr

/-- What stands between the name of a trigger and its code: the kind of the last token, and the condition. -/
inductive WhenChange : List Token → Token.Kind → String → Prop where
  | inline {mark : Token} : mark.kind = .tricond → mark.text ≠ "" → WhenChange [mark] .tricond (trim mark.text)
  | named {mark config : Token} : mark.kind = .tricond → mark.text = "" → config.kind = .ident →
      WhenChange [mark, config] .ident (trim config.text)
  | closed {mark config last : Token} : mark.kind = .tricond → mark.text = "" → config.kind = .ident →
      last.kind = .tricond → last.text = "" → WhenChange [mark, config, last] .tricond (trim config.text)

theorem WhenChange.last {between : List Token} {last : Token.Kind} {condition : String}
    (h : WhenChange between last condition) : last = .tricond ∨ last = .ident := by
  cases h <;> simp

/-- The tokens of a statement up to its `SEMI`, and what it says. -/
inductive Phrase : List Token → Content → Prop where
  | empty : Phrase [] .nothing
  | single {t : Token} : t.kind ≠ .semi → t.kind ≠ .eof → Phrase [t] .nothing
  | tag {tag text : Token} : tag.kind.isTag = true → text.kind = .string →
      Phrase [tag, text] (.tagged tag.kind text.text)
  | struct {word name body : Token} : word.kind = .struct → name.kind = .ident → body.kind = .command →
      Phrase [word, name, body] (.declared (.struct ⟨name.text, body.text, none⟩))
  | column {word name type : Token} : word.kind = .struct → name.kind = .ident → type.kind = .ident →
      Phrase [word, name, type] (.declared (.struct ⟨name.text, name.text ++ " " ++ type.text, none⟩))
  | template {word name rule body : Token} : word.kind = .struct → name.kind = .ident → rule.kind = .argument →
      body.kind = .command →
      Phrase [word, name, rule, body] (.declared (.struct ⟨name.text, body.text, some rule.text⟩))
  | config {word name body : Token} : word.kind = .config → name.kind = .ident → body.kind = .command →
      Phrase [word, name, body] (.declared (.config ⟨name.text, body.text⟩))
  | slice {word name command : Token} : word.kind = .slice → name.kind = .ident → command.kind = .command →
      Phrase [word, name, command] (.declared (.slice ⟨name.text, command.text⟩))
  | trigger {word name code : Token} {between : List Token} {last : Token.Kind} {condition : String} :
      word.kind = .trigger → name.kind = .ident → WhenChange between last condition → code.kind = .command →
      Phrase (word :: name :: between ++ [code]) (.declared (.trigger ⟨name.text, condition, code.text⟩))

/-- A source: statements, each closed by `SEMI`, and `EOF` at the end. -/
inductive Source : List Token → List Content → Prop where
  | eof {t : Token} : t.kind = .eof → Source [t] []
  | statement {tokens rest : List Token} {semi : Token} {content : Content} {contents : List Content} :
      Phrase tokens content → semi.kind = .semi → Source rest contents →
      Source (tokens ++ semi :: rest) (content :: contents)

/-- No identifier behind the word `TRIGGER` has a bar, which stands between name and condition in a draft. -/
def Unbarred (tokens : List Token) : Prop :=
  tokens.IsChain fun word name => word.kind = .trigger → name.kind = .ident → '|' ∉ name.text.toList

instance (tokens : List Token) : Decidable (Unbarred tokens) :=
  inferInstanceAs (Decidable (List.IsChain _ _))

theorem Unbarred.left {front back : List Token} (h : Unbarred (front ++ back)) : Unbarred front :=
  List.IsChain.left_of_append h

theorem Unbarred.right {front back : List Token} (h : Unbarred (front ++ back)) : Unbarred back :=
  List.IsChain.right_of_append h

theorem Unbarred.name {word name : Token} {rest : List Token} (h : Unbarred (word :: name :: rest))
    (hword : word.kind = .trigger) (hname : name.kind = .ident) : '|' ∉ name.text.toList :=
  (List.isChain_cons_cons.1 h).1 hword hname

/-! ## What a statement adds -/

/-- What has been read, with what one more statement says. -/
def Parsed.add (p : Parsed) : Content → Parsed
  | .nothing => p
  | .tagged tag text => { p with metadata := Json.insertMember tag.name text p.metadata }
  | .declared d => { p with declarations := p.declarations.push d }

/-- The reader between two statements. -/
abbrev Reader.between (p : Parsed) : Reader := ⟨.start, {}, p⟩

/-- The draft of a trigger keeps its name and its condition apart, if the name has no bar. -/
theorem Draft.emit_trigger {name condition code : String} (h : '|' ∉ name.toList) :
    Draft.emit { handling := some .trigger, ident := name ++ "|" ++ condition, body := some code } =
      .ok (some (.trigger ⟨name, condition, code⟩)) := by
  simp [emit, cutAt?_singleton h]

theorem Draft.emit_unwatched {name code : String} (h : '|' ∉ name.toList) {d : Option Declaration} :
    Draft.emit { handling := some .trigger, ident := name, body := some code } ≠ .ok d := by
  simp [emit, cutAt?_singleton_eq_none.2 h]

/-- A word and a name open a statement. -/
theorem Reader.Steps.opened {word name : Token} (h : Handling) {p : Parsed} {rest : List Token} {last : Reader}
    (hword : word.kind = h.word) (hname : name.kind = .ident)
    (hrest : Reader.Steps ⟨.after .ident, { handling := some h, ident := name.text }, p⟩ rest last) :
    (Reader.between p).Steps (word :: name :: rest) last := by
  have hsemi : word.kind ≠ .semi := by
    rw [hword]
    cases h <;> decide
  exact .cons (.begins rfl hsemi) (.cons (.declares (congrArg State.after hword) hname) hrest)

/-- `SEMI` ends a statement whose draft is complete. -/
theorem Reader.Steps.closed {r : Reader} {d : Option Declaration} {p : Parsed} {semi : Token}
    (herror : r.state ≠ .error) (heof : r.state ≠ .after .eof) (hsemi : semi.kind = .semi)
    (hemit : r.draft.emit = .ok d) (hadd : r.parsed.withDeclaration d = p) : r.Steps [semi] (Reader.between p) :=
  hadd ▸ .cons (.closes herror heof hsemi hemit) .nil

/-- **A statement is read as what it says.** -/
theorem Phrase.steps {tokens : List Token} {content : Content} (h : Phrase tokens content) (hbar : Unbarred tokens)
    {semi : Token} (hsemi : semi.kind = .semi) (p : Parsed) :
    (Reader.between p).Steps (tokens ++ [semi]) (Reader.between (p.add content)) := by
  cases h with
  | empty => exact .closed nofun nofun hsemi rfl rfl
  | single hs he =>
    exact .cons (.begins rfl hs) (.closed nofun (fun h => he (State.after.inj h)) hsemi rfl rfl)
  | @tag tag text htag htext =>
    have hs : tag.kind ≠ .semi := by
      intro hk
      rw [hk] at htag
      cases htag
    exact .cons (.begins rfl hs) (.cons (.tags rfl htag htext) (.closed nofun nofun hsemi rfl rfl))
  | struct hw hn hb =>
    exact .opened .struct hw hn (.cons (.fills (.inl rfl) hb nofun rfl) (.closed nofun nofun hsemi rfl rfl))
  | column hw hn ht =>
    exact .opened .struct hw hn (.cons (.types rfl ht rfl rfl rfl) (.closed nofun nofun hsemi rfl rfl))
  | template hw hn hr hb =>
    exact .opened .struct hw hn (.cons (.rules rfl hr rfl rfl)
      (.cons (.fillsTemplate rfl hb nofun rfl) (.closed nofun nofun hsemi rfl rfl)))
  | config hw hn hb =>
    exact .opened .config hw hn (.cons (.fills (.inl rfl) hb nofun rfl) (.closed nofun nofun hsemi rfl rfl))
  | slice hw hn hb =>
    exact .opened .slice hw hn (.cons (.fills (.inl rfl) hb nofun rfl) (.closed nofun nofun hsemi rfl rfl))
  | trigger hw hn hwhen hc =>
    have hfree := hbar.name hw hn
    refine .opened .trigger hw hn ?_
    cases hwhen with
    | inline hm hne =>
      exact .cons (.watches rfl hm rfl hne hfree)
        (.cons (.fills (.inr rfl) hc nofun rfl) (.closed nofun nofun hsemi (Draft.emit_trigger hfree) rfl))
    | named hm he hi =>
      exact .cons (.marks rfl hm rfl he) (.cons (.names rfl hi rfl hfree)
        (.cons (.fills (.inl rfl) hc nofun rfl) (.closed nofun nofun hsemi (Draft.emit_trigger hfree) rfl)))
    | closed hm he hi hl hle =>
      exact .cons (.marks rfl hm rfl he) (.cons (.names rfl hi rfl hfree)
        (.cons (.marks rfl hl rfl hle)
          (.cons (.fills (.inr rfl) hc nofun rfl) (.closed nofun nofun hsemi (Draft.emit_trigger hfree) rfl))))

/-! ## Inside a statement -/

/-- The reader after some tokens of a statement, where `p` has been read before it. -/
inductive Opened (p : Parsed) : List Token → Reader → Prop where
  | start : Opened p [] (.between p)
  | single {t : Token} : t.kind ≠ .semi → t.kind ≠ .eof → Opened p [t] ⟨.after t.kind, {}, p⟩
  | named {word name : Token} {handling : Handling} : word.kind = handling.word → name.kind = .ident →
      Opened p [word, name] ⟨.after .ident, { handling := some handling, ident := name.text }, p⟩
  | ruled {word name rule : Token} : word.kind = .struct → name.kind = .ident → rule.kind = .argument →
      Opened p [word, name, rule]
        ⟨.after .argument, { handling := some .struct, ident := name.text, argument := some rule.text }, p⟩
  | marked {word name mark : Token} : word.kind = .trigger → name.kind = .ident → mark.kind = .tricond →
      mark.text = "" →
      Opened p [word, name, mark] ⟨.after .tricond, { handling := some .trigger, ident := name.text }, p⟩
  | watching {word name : Token} {between : List Token} {last : Token.Kind} {condition : String} :
      word.kind = .trigger → name.kind = .ident → WhenChange between last condition →
      Opened p (word :: name :: between)
        ⟨.after last, { handling := some .trigger, ident := name.text ++ "|" ++ condition }, p⟩
  /-- Nothing but `SEMI` may follow, and it ends the statement. -/
  | complete {tokens : List Token} {content : Content} {r : Reader} {d : Option Declaration} :
      Phrase tokens content → r.state ≠ .after .eof → (∀ t r', r.Step t r' → t.kind = .semi) →
      r.draft.emit = .ok d → r.parsed.withDeclaration d = p.add content → Opened p tokens r
  /-- A trigger without a condition has got its code: nothing may follow. -/
  | unwatched {tokens : List Token} {name code : String} : '|' ∉ name.toList →
      Opened p tokens ⟨.sql, { handling := some .trigger, ident := name, body := some code }, p⟩

variable {p : Parsed} {tokens : List Token} {r r' : Reader} {t : Token}

/-- Where one more token of a statement leads: it ends the statement, or the source if nothing of the statement has been
read, or the statement goes on. -/
inductive Opened.Next (p : Parsed) (tokens : List Token) (t : Token) (r' : Reader) : Prop where
  | ends {content : Content} : t.kind = .semi → Phrase tokens content → r' = .between (p.add content) →
      Next p tokens t r'
  | eof : t.kind = .eof → tokens = [] → r' = ⟨.after .eof, {}, p⟩ → Next p tokens t r'
  | goesOn : Opened p (tokens ++ [t]) r' → Next p tokens t r'

/-! Behind a name, an argument or a condition there is no word that opens a statement, and no tag. -/

@[simp] theorem ident_ne_word (h : Handling) : Kind.ident ≠ h.word := by cases h <;> decide

@[simp] theorem argument_ne_word (h : Handling) : Kind.argument ≠ h.word := by cases h <;> decide

@[simp] theorem tricond_ne_word (h : Handling) : Kind.tricond ≠ h.word := by cases h <;> decide

theorem Reader.Step.not_tag {k : Token.Kind} (hs : r.state = .after k)
    (hk : k = .ident ∨ k = .argument ∨ k = .tricond) {tag : Token.Kind} (htag : r.state = .after tag) :
    tag.isTag ≠ true := by
  obtain rfl := State.after.inj (hs.symm.trans htag)
  rcases hk with rfl | rfl | rfl <;> decide

/-- Behind a body or the text of a tag only `SEMI` is accepted. -/
theorem Reader.Step.kind_eq_semi (h : r.Step t r') (hs : r.state = .sql ∨ r.state = .preSql ∨ r.state = .pushKv) :
    t.kind = .semi := by
  rcases hs with hs | hs | hs <;> cases h <;> simp_all

/-- Behind a column only `SEMI` is accepted, since its draft has a body. -/
theorem Reader.Step.kind_eq_semi_of_column {d : Draft} (h : Reader.Step ⟨.after .ident, d, p⟩ t r')
    (hd : d.handling = some .struct) (hbody : d.body ≠ none) : t.kind = .semi := by
  cases h with
  | closes _ _ hsemi => exact hsemi
  | tags htag htrue => exact absurd htrue (not_tag rfl (.inl rfl) htag)
  | _ => simp_all

/-- A word and a name, and one more token. -/
theorem Opened.step_named {word name : Token} {handling : Handling} (hw : word.kind = handling.word)
    (hn : name.kind = .ident) (hbar : Unbarred ([word, name] ++ [t]))
    (hstep : Reader.Step ⟨.after .ident, { handling := some handling, ident := name.text }, p⟩ t r') :
    Opened.Next p [word, name] t r' := by
  cases hstep with
  | closes _ _ _ hd => cases hd
  | tags htag htrue => exact absurd htrue (Reader.Step.not_tag rfl (.inl rfl) htag)
  | types _ ht hstruct =>
    cases hstruct
    exact .goesOn (.complete (.column hw hn ht) nofun (fun _ _ h => h.kind_eq_semi_of_column rfl nofun) rfl rfl)
  | rules _ hr hstruct =>
    cases hstruct
    exact .goesOn (.ruled hw hn hr)
  | marks _ hm htrigger he =>
    cases htrigger
    exact .goesOn (.marked hw hn hm he)
  | watches _ hm htrigger hne =>
    cases htrigger
    exact .goesOn (.watching hw hn (.inline hm hne))
  | fills _ hc =>
    have hlast (u : Token) (r' : Reader) :
        Reader.Step ⟨.sql, { handling := some handling, ident := name.text, body := some t.text }, p⟩ u r' →
          u.kind = .semi := fun h => h.kind_eq_semi (.inl rfl)
    cases handling with
    | struct => exact .goesOn (.complete (.struct hw hn hc) nofun hlast rfl rfl)
    | config => exact .goesOn (.complete (.config hw hn hc) nofun hlast rfl rfl)
    | slice => exact .goesOn (.complete (.slice hw hn hc) nofun hlast rfl rfl)
    | trigger => exact .goesOn (.unwatched (hbar.name hw hn))
  | _ => simp_all

/-- A trigger with its condition, and one more token. -/
theorem Opened.step_watching {word name : Token} {between : List Token} {last : Token.Kind} {condition : String}
    (hw : word.kind = .trigger) (hn : name.kind = .ident) (hwhen : WhenChange between last condition)
    (hbar : Unbarred (word :: name :: between ++ [t]))
    (hstep : Reader.Step ⟨.after last, { handling := some .trigger, ident := name.text ++ "|" ++ condition }, p⟩ t r') :
    Opened.Next p (word :: name :: between) t r' := by
  cases hstep with
  | closes _ _ _ hd => cases hd
  | tags htag htrue =>
    exact absurd htrue (Reader.Step.not_tag rfl (hwhen.last.elim (.inr ∘ .inr) .inl) htag)
  | marks hident hm _ he =>
    cases hident
    cases hwhen with
    | named hmark hempty hi => exact .goesOn (.watching hw hn (.closed hmark hempty hi hm he))
  | fills _ hc =>
    exact .goesOn (.complete (.trigger hw hn hwhen hc) nofun (fun _ _ h => h.kind_eq_semi (.inl rfl))
      (Draft.emit_trigger (hbar.name hw hn)) rfl)
  | _ => rcases hwhen.last with rfl | rfl <;> simp_all

/-- **One more token of a statement**, wherever in the statement it stands. -/
theorem Opened.step (h : Opened p tokens r) (hbar : Unbarred (tokens ++ [t])) (hstep : r.Step t r') :
    Opened.Next p tokens t r' := by
  cases h with
  | start =>
    cases hstep with
    | closes _ _ hsemi hd =>
      cases hd
      exact .ends hsemi .empty rfl
    | begins _ hsemi =>
      by_cases heof : t.kind = .eof
      · exact .eof heof rfl (by rw [heof])
      · exact .goesOn (.single hsemi heof)
    | _ => simp_all
  | single hs he =>
    cases hstep with
    | closes _ _ hsemi hd =>
      cases hd
      exact .ends hsemi (.single hs he) rfl
    | tags htag htrue htext =>
      cases htag
      exact .goesOn (.complete (.tag htrue htext) nofun (fun _ _ h => h.kind_eq_semi (.inr (.inr rfl))) rfl rfl)
    | declares hword hname => exact .goesOn (.named (State.after.inj hword) hname)
    | _ => simp_all
  | named hw hn => exact step_named hw hn hbar hstep
  | ruled hw hn hr =>
    cases hstep with
    | closes _ _ _ hd => cases hd
    | tags htag htrue => exact absurd htrue (Reader.Step.not_tag rfl (.inr (.inl rfl)) htag)
    | fillsTemplate _ hc =>
      exact .goesOn (.complete (.template hw hn hr hc) nofun (fun _ _ h => h.kind_eq_semi (.inr (.inl rfl))) rfl rfl)
    | _ => simp_all
  | marked hw hn hm he =>
    cases hstep with
    | closes _ _ _ hd => cases hd
    | tags htag htrue => exact absurd htrue (Reader.Step.not_tag rfl (.inr (.inr rfl)) htag)
    | names _ hi => exact .goesOn (.watching hw hn (.named hm he hi))
    | fills _ hc => exact .goesOn (.unwatched (hbar.name hw hn))
    | _ => simp_all
  | watching hw hn hwhen => exact step_watching hw hn hwhen hbar hstep
  | unwatched hfree =>
    cases hstep with
    -- the draft has no bar, so there is no condition to cut off
    | closes _ _ _ hd => exact absurd hd (Draft.emit_unwatched hfree)
    | _ => simp_all
  | complete hphrase _ hlast hemit hadd =>
    have hsemi := hlast t r' hstep
    cases hstep with
    | closes _ _ _ hd =>
      rw [hemit] at hd
      cases hd
      exact .ends hsemi hphrase (by rw [hadd])
    | _ => simp_all

theorem Opened.state_ne_eof (h : Opened p tokens r) : r.state ≠ .after .eof := by
  cases h with
  | single _ he => exact fun h => he (State.after.inj h)
  | watching _ _ hwhen => rcases hwhen.last with rfl | rfl <;> nofun
  | complete _ hne => exact hne
  | _ => nofun

/-- Nothing is accepted after the end of the source. -/
theorem Reader.Step.state_ne_eof (h : r.Step t r') : r.state ≠ .after .eof := by
  intro heof
  cases h with
  | closes _ hne => exact hne heof
  | tags htag htrue =>
    cases htag.symm.trans heof
    cases htrue
  | @declares h hword =>
    have hk := State.after.inj (hword.symm.trans heof)
    cases h <;> cases hk
  | _ => simp_all

/-! ## Sources -/

/-- **Every statement of a source is read as what it says**, one after the other. -/
theorem Source.steps {contents : List Content} (h : Source tokens contents) (hbar : Unbarred tokens) (p : Parsed) :
    (Reader.between p).Steps tokens ⟨.after .eof, {}, contents.foldl Parsed.add p⟩ := by
  induction h generalizing p with
  | @eof t heof =>
    have hbegins : (Reader.between p).Step t ⟨.after t.kind, {}, p⟩ := .begins rfl (by rw [heof]; decide)
    rw [heof] at hbegins
    exact .cons hbegins .nil
  | @statement front rest semi content contents hphrase hsemi _ ih =>
    rw [List.append_cons] at hbar ⊢
    exact (hphrase.steps hbar.left.left hsemi p).append (ih hbar.right (p.add content))

/-- **What is accepted is a source**: from any point inside a statement to the end. -/
theorem Reader.Steps.source {rest : List Token} {last : Reader} (hsteps : r.Steps rest last) (h : Opened p tokens r)
    (hbar : Unbarred (tokens ++ rest)) (hlast : last.state = .after .eof) :
    ∃ contents, Source (tokens ++ rest) contents ∧ contents.foldl Parsed.add p = last.parsed := by
  induction hsteps generalizing p tokens with
  | nil => exact absurd hlast h.state_ne_eof
  | @cons r r' last t rest hstep hrest ih =>
    rw [List.append_cons] at hbar
    cases h.step hbar.left hstep with
    | @ends content hsemi hphrase hr =>
      subst hr
      obtain ⟨contents, hsource, hparsed⟩ := ih .start hbar.right hlast
      exact ⟨content :: contents, .statement hphrase hsemi hsource, hparsed⟩
    | eof heof hempty hr =>
      subst hempty hr
      cases hrest with
      | nil => exact ⟨[], .eof heof, rfl⟩
      | cons hnext _ => exact absurd rfl hnext.state_ne_eof
    | goesOn hopened =>
      -- the statement is not over: the token joins those that have been read of it
      obtain ⟨contents, hsource, hparsed⟩ := ih hopened hbar hlast
      exact ⟨contents, List.append_cons tokens t rest ▸ hsource, hparsed⟩

theorem finish_eq_ok_iff {r : Reader} : r.finish = .ok p ↔ r.state = .after .eof ∧ r.parsed = p := by
  unfold Reader.finish
  split <;> simp [*]

theorem read_eq_ok : read tokens = .ok p ↔ ∃ last, Reader.Steps {} tokens last ∧ last.finish = .ok p := by
  simp only [← Reader.feedAll_eq_ok_iff, read]
  rcases Reader.feedAll {} tokens with stop | last <;> simp

/-- **What is read from a source**: a source is read, and nothing else is. -/
theorem read_eq_ok_iff_source (hbar : Unbarred tokens) :
    read tokens = .ok p ↔ ∃ contents, Source tokens contents ∧ contents.foldl Parsed.add {} = p := by
  rw [read_eq_ok]
  constructor
  · rintro ⟨last, hsteps, hfinish⟩
    obtain ⟨hlast, rfl⟩ := finish_eq_ok_iff.1 hfinish
    exact hsteps.source .start hbar hlast
  · rintro ⟨contents, hsource, rfl⟩
    exact ⟨_, hsource.steps hbar {}, finish_eq_ok_iff.2 ⟨rfl, rfl⟩⟩

/-! ## What a source conveys -/

/-- What is declared, in the order of the source within each kind. -/
def declarationsOf (contents : List Content) : Declarations where
  structs := contents.filterMap fun | .declared (.struct d) => some d | _ => none
  configs := contents.filterMap fun | .declared (.config d) => some d | _ => none
  triggers := contents.filterMap fun | .declared (.trigger d) => some d | _ => none
  slices := contents.filterMap fun | .declared (.slice d) => some d | _ => none

/-- The text that a statement gives to a tag. -/
def Content.textOf? (tag : Token.Kind) : Content → Option String
  | .tagged other text => if other = tag then some text else none
  | _ => none

/-- The text that the last statement with a tag gives to it. -/
def lastText? (tag : Token.Kind) (contents : List Content) : Option String :=
  contents.reverse.findSome? (Content.textOf? tag)

/-- What has been read is what the statements say: the declarations of each kind in their order, and, ordered by the
names of the tags, the last text of each tag. -/
structure Conveys (contents : List Content) (p : Parsed) : Prop where
  declarations : p.declarations = declarationsOf contents
  ordered : p.metadata.Pairwise (·.1 < ·.1)
  metadata : ∀ name text,
    (name, text) ∈ p.metadata ↔ ∃ tag : Token.Kind, tag.name = name ∧ lastText? tag contents = some text

theorem declarationsOf_concat (contents : List Content) (content : Content) :
    declarationsOf (contents ++ [content]) =
      match content with
      | .declared d => (declarationsOf contents).push d
      | _ => declarationsOf contents := by
  rcases content with _ | _ | (_ | _ | _ | _) <;> simp [declarationsOf, Declarations.push]

theorem lastText?_concat (tag : Token.Kind) (contents : List Content) (content : Content) :
    lastText? tag (contents ++ [content]) = (content.textOf? tag).or (lastText? tag contents) := by
  unfold lastText?
  rw [List.reverse_concat, List.findSome?_cons]
  cases content.textOf? tag <;> rfl

theorem kind_name_inj {k k' : Token.Kind} : k.name = k'.name ↔ k = k' := by
  refine ⟨fun h => ?_, congrArg _⟩
  have hname := Kind.ofName_name k
  rw [h, Kind.ofName_name k'] at hname
  exact (Except.ok.inj hname).symm

variable {contents : List Content}

theorem Conveys.add (h : Conveys contents p) (content : Content) : Conveys (contents ++ [content]) (p.add content) where
  declarations := by
    rw [declarationsOf_concat]
    cases content with
    | declared d => exact congrArg (Declarations.push · d) h.declarations
    | _ => exact h.declarations
  ordered := by
    cases content with
    | tagged tag text => exact Json.pairwise_insertMember h.ordered
    | _ => exact h.ordered
  metadata name text := by
    simp only [lastText?_concat]
    cases content with
    | tagged tag new =>
      rw [Parsed.add, Json.mem_insertMember h.ordered, h.metadata]
      constructor
      · rintro (⟨rfl, rfl⟩ | ⟨hne, tag', rfl, htext⟩)
        · exact ⟨tag, rfl, by simp [Content.textOf?]⟩
        · have hother : tag ≠ tag' := fun h => hne (congrArg Kind.name h.symm)
          exact ⟨tag', rfl, by simpa [Content.textOf?, hother] using htext⟩
      · rintro ⟨tag', rfl, htext⟩
        by_cases hsame : tag = tag'
        · subst hsame
          simp only [Content.textOf?, if_pos, Option.some_or, Option.some.injEq] at htext
          exact .inl ⟨rfl, htext.symm⟩
        · rw [Content.textOf?, if_neg hsame, Option.none_or] at htext
          exact .inr ⟨fun h => hsame (kind_name_inj.1 h).symm, tag', rfl, htext⟩
    | _ => exact h.metadata name text

theorem conveys_foldl (contents : List Content) : Conveys contents (contents.foldl Parsed.add {}) := by
  induction contents using List.reverseRecOn with
  | nil => exact ⟨rfl, .nil, fun _ _ => by simp [lastText?]⟩
  | append_singleton contents content ih =>
    rw [List.foldl_concat]
    exact ih.add content

/-- What a source conveys is determined by its statements. -/
theorem Conveys.unique {p' : Parsed} (h : Conveys contents p) (h' : Conveys contents p') : p = p' := by
  have hmetadata : p.metadata = p'.metadata :=
    Json.eq_of_mem_iff h.ordered h'.ordered fun name text => (h.metadata name text).trans (h'.metadata name text).symm
  have hdeclarations := h.declarations.trans h'.declarations.symm
  cases p
  cases p'
  simp_all

/-- **The grammar of a source**: exactly the sequences of statements with `EOF` behind them are read, and what is
read is what the statements say. -/
theorem read_eq_ok_iff (hbar : Unbarred tokens) :
    ((∃ p, read tokens = .ok p) ↔ ∃ contents, Source tokens contents) ∧
      ∀ p, read tokens = .ok p ↔ ∃ contents, Source tokens contents ∧ Conveys contents p := by
  have hread (p : Parsed) : read tokens = .ok p ↔ ∃ contents, Source tokens contents ∧ Conveys contents p := by
    rw [read_eq_ok_iff_source hbar]
    refine exists_congr fun contents => and_congr_right fun _ => ?_
    exact ⟨fun h => h ▸ conveys_foldl contents, fun h => (conveys_foldl contents).unique h⟩
  refine ⟨⟨fun ⟨p, hp⟩ => ?_, fun ⟨contents, hsource⟩ => ?_⟩, hread⟩
  · obtain ⟨contents, hsource, -⟩ := (hread p).1 hp
    exact ⟨contents, hsource⟩
  · exact ⟨_, (hread _).2 ⟨contents, hsource, conveys_foldl contents⟩⟩

/-- A tag that is given twice, a column, a trigger on a named config, a lone word and an empty statement. -/
def mixedTokens : List Token :=
  [bare .author rfl, .withText .string "one", bare .semi rfl,
   bare .author rfl, .withText .string "two", bare .semi rfl,
   bare .struct rfl, .withText .ident "n", .withText .ident "TEXT", bare .semi rfl,
   bare .trigger rfl, .withText .ident "t", bare .tricond rfl, .withText .ident " x ", bare .tricond rfl,
   .withText .command "code", bare .semi rfl,
   bare .list rfl, bare .semi rfl, bare .semi rfl, bare .eof rfl]
where
  /-- A token without a text. -/
  bare (kind : Token.Kind) (h : kind.needsPayload = false) : Token :=
    ⟨kind, none, fun hneeds => nomatch h.symm.trans hneeds⟩

theorem mixedTokens_read : Unbarred mixedTokens ∧ ∃ contents, Source mixedTokens contents ∧
    Conveys contents
      ⟨[("AUTHOR", "two")], { structs := [⟨"n", "n TEXT", none⟩], triggers := [⟨"t", "x", "code"⟩] }⟩ :=
  have hbar : Unbarred mixedTokens := by decide +kernel
  ⟨hbar, ((read_eq_ok_iff hbar).2 _).1 (by decide +kernel)⟩

end GuardedConfig.Statement
