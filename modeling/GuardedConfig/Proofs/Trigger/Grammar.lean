import GuardedConfig.Proofs.Trigger.Tokens
import GuardedConfig.Trigger.Read

/-!
# `Proofs.Trigger.Grammar` — how programs are written as tokens

The grammar of the language, as a relation between the parts of a program and lists of tokens. An expression is written
for its place: a comparison is a whole expression, and parentheses put it at any other place. Parentheses are allowed
everywhere, so one expression has many lists of tokens.

## Contents

* `Level`, `Expr.Written` — expressions
* `Stmt.Written`, `Written` — statements and programs
* `Closed` — lists without tokens that join: `Expr.Written.closed`, `Stmt.Written.closed`, `Written.apart`
-/

namespace GuardedConfig.Trigger

/-! ## Expressions -/

/-- The places of an expression: on its own, beside a comparison or behind a negation, and before an index or a
member. -/
inductive Level where
  | whole
  | operand
  | target
deriving DecidableEq, Repr

/-- The tokens of arguments: each one's, with commas between them. -/
def argumentTokens : List (List Lexeme) → List Lexeme
  | [] => []
  | ts :: more => ts ++ more.flatMap (.sign .comma :: ·)

/-- How an expression is written at a place. -/
inductive Expr.Written : Level → Expr → List Lexeme → Prop
  | null : Written .target (.literal .null) [.word "null"]
  | bool (b : Bool) : Written .target (.literal (.bool b)) [.word (if b then "true" else "false")]
  | number {text : String} {v : Json} : numberValue text = .ok v → Written .target (.literal v) [.number text]
  | string (text : String) : Written .target (.literal (.str text)) [.string text]
  | var {name : String} : isName name = true → Written .target (.var name) [.word name]
  | call {c : Capability} {arguments : List (Expr × List Lexeme)} : (∀ a ∈ arguments, Written .whole a.1 a.2) →
      c.least ≤ arguments.length → arguments.length ≤ c.most →
      Written .target (.call c (arguments.map (·.1)))
        (.word c.name :: .sign .openParen :: (argumentTokens (arguments.map (·.2)) ++ [.sign .closeParen]))
  | paren {e : Expr} {ts : List Lexeme} : Written .whole e ts →
      Written .target e (.sign .openParen :: (ts ++ [.sign .closeParen]))
  | index {e i : Expr} {ts us : List Lexeme} : Written .target e ts → Written .whole i us →
      Written .target (.index e i) (ts ++ .sign .openBracket :: (us ++ [.sign .closeBracket]))
  | member {e : Expr} {name : String} {ts : List Lexeme} : Written .target e ts → isName name = true →
      Written .target (.member e name) (ts ++ [.sign .dot, .word name])
  | target {e : Expr} {ts : List Lexeme} : Written .target e ts → Written .operand e ts
  | not {e : Expr} {ts : List Lexeme} : Written .operand e ts → Written .operand (.not e) (.sign .bang :: ts)
  | operand {e : Expr} {ts : List Lexeme} : Written .operand e ts → Written .whole e ts
  | compare {a b : Expr} {op : Comparison} {ts us : List Lexeme} : Written .operand a ts → Written .operand b us →
      Written .whole (.compare a op b) (ts ++ .comparison op :: us)

/-! ## Statements -/

/-- The tokens of a block. -/
def blockTokens (body : List (List Lexeme)) : List Lexeme :=
  .sign .openBrace :: (body.flatten ++ [.sign .closeBrace])

/-- How a statement is written. A branch whose other side is one branch may be continued with `else if`. -/
inductive Stmt.Written : Stmt → List Lexeme → Prop
  | bind {name : String} {e : Expr} {ts : List Lexeme} : isName name = true → e.Written .whole ts →
      Written (.bind name e) (.word "let" :: .word name :: .sign .assign :: (ts ++ [.sign .semicolon]))
  | branch {c : Expr} {ts : List Lexeme} {yes : List (Stmt × List Lexeme)} : c.Written .whole ts →
      (∀ s ∈ yes, Written s.1 s.2) →
      Written (.branch c (yes.map (·.1)) []) (.word "if" :: (ts ++ blockTokens (yes.map (·.2))))
  | otherwise {c : Expr} {ts : List Lexeme} {yes no : List (Stmt × List Lexeme)} : c.Written .whole ts →
      (∀ s ∈ yes, Written s.1 s.2) → (∀ s ∈ no, Written s.1 s.2) →
      Written (.branch c (yes.map (·.1)) (no.map (·.1)))
        (.word "if" :: (ts ++ (blockTokens (yes.map (·.2)) ++ .word "else" :: blockTokens (no.map (·.2)))))
  | elseIf {c c' : Expr} {ts us : List Lexeme} {yes : List (Stmt × List Lexeme)} {yes' no' : List Stmt} :
      c.Written .whole ts → (∀ s ∈ yes, Written s.1 s.2) → Written (.branch c' yes' no') us →
      Written (.branch c (yes.map (·.1)) [.branch c' yes' no'])
        (.word "if" :: (ts ++ (blockTokens (yes.map (·.2)) ++ .word "else" :: us)))
  | done : Written (.done none) [.word "return", .sign .semicolon]
  | doneWith {e : Expr} {ts : List Lexeme} : e.Written .whole ts →
      Written (.done (some e)) (.word "return" :: (ts ++ [.sign .semicolon]))
  | eval {e : Expr} {ts : List Lexeme} : e.Written .whole ts → Written (.eval e) (ts ++ [.sign .semicolon])

/-- How a program is written: its statements one after another. -/
def Written (program : List Stmt) (ts : List Lexeme) : Prop :=
  ∃ parts : List (Stmt × List Lexeme), (∀ s ∈ parts, s.1.Written s.2) ∧ program = parts.map (·.1) ∧
    ts = (parts.map (·.2)).flatten

/-! ## Tokens that join -/

/-- Whether some token could join this one. -/
def Lexeme.isOpen : Lexeme → Bool
  | sign .dot | sign .assign | sign .bang | comparison .lt | comparison .gt => true
  | _ => false

/-- Whether an expression may begin with a token. -/
def Lexeme.starts : Lexeme → Bool
  | word text => !(["let", "if", "else", "return"].contains text)
  | number _ | string _ | sign .bang | sign .openParen => true
  | _ => false

/-- A list that an expression may begin. -/
def Starts (ts : List Lexeme) : Prop := ∃ l rest, ts = l :: rest ∧ l.starts = true

/-- A list without tokens that join, also with what follows. -/
structure Closed (ts : List Lexeme) : Prop where
  apart : Apart ts
  last : ∀ l ∈ ts.getLast?, l.isOpen = false

variable {l m : Lexeme} {ts us : List Lexeme}

theorem Lexeme.Joins.isOpen (h : l.Joins m) : l.isOpen = true := by
  cases h with
  | point => rfl
  | equal hl => revert l; decide

/-- Of the tokens that an expression may begin with, only a number may join the token before it. -/
theorem Lexeme.Joins.eq_dot (h : l.Joins m) (hm : m.starts = true) : l = .sign .dot := by
  cases h with
  | point => rfl
  | equal _ hequal =>
    simp only [List.mem_cons, List.not_mem_nil, or_false] at hequal
    rcases hequal with rfl | rfl <;> cases hm

theorem Starts.append (h : Starts ts) (us : List Lexeme) : Starts (ts ++ us) := by
  obtain ⟨l, rest, rfl, hl⟩ := h
  exact ⟨l, rest ++ us, rfl, hl⟩

namespace Closed

theorem nil : Closed [] := ⟨.nil, nofun⟩

theorem append (h : Closed ts) (h' : Closed us) : Closed (ts ++ us) := by
  refine ⟨List.isChain_append.2 ⟨h.apart, h'.apart, fun l hl m _ hjoins => ?_⟩, fun l hl => ?_⟩
  · have hopen := h.last l hl
    rw [hjoins.isOpen] at hopen
    cases hopen
  · rw [List.getLast?_append] at hl
    cases hus : us.getLast? with
    | none =>
      rw [hus] at hl
      exact h.last l hl
    | some m =>
      rw [hus] at hl
      cases hl
      exact h'.last _ hus

theorem singleton (hl : l.isOpen = false) : Closed [l] := ⟨.singleton l, fun m hm => by cases hm; exact hl⟩

theorem cons (hl : l.isOpen = false) (h : Closed ts) : Closed (l :: ts) := (singleton hl).append h

/-- Any token but the point may stand before an expression. -/
theorem cons_of_starts (hl : l ≠ .sign .dot) (h : Closed ts) (hstarts : Starts ts) : Closed (l :: ts) := by
  obtain ⟨m, rest, rfl, hm⟩ := hstarts
  refine ⟨List.isChain_cons_cons.2 ⟨fun hjoins => hl (hjoins.eq_dot hm), h.apart⟩, fun last hlast => h.last last ?_⟩
  rw [List.getLast?_cons_cons] at hlast
  exact hlast

theorem flatten {tss : List (List Lexeme)} (h : ∀ ts ∈ tss, Closed ts) : Closed tss.flatten := by
  induction tss with
  | nil => exact nil
  | cons ts tss ih =>
    obtain ⟨hts, htss⟩ := List.forall_mem_cons.1 h
    exact hts.append (ih htss)

theorem argumentTokens {tss : List (List Lexeme)} (h : ∀ ts ∈ tss, Closed ts) : Closed (argumentTokens tss) := by
  cases tss with
  | nil => exact nil
  | cons ts tss =>
    obtain ⟨hts, htss⟩ := List.forall_mem_cons.1 h
    refine hts.append (flatten fun us hus => ?_)
    obtain ⟨ts, hmem, rfl⟩ := List.mem_map.1 hus
    exact cons rfl (htss ts hmem)

theorem blockTokens {body : List (List Lexeme)} (h : ∀ ts ∈ body, Closed ts) : Closed (blockTokens body) :=
  cons rfl ((flatten h).append (singleton rfl))

end Closed

theorem starts_of_isName {name : String} (h : isName name = true) : Starts [.word name] := by
  refine ⟨_, _, rfl, ?_⟩
  simp only [isName, keywords, Bool.not_eq_true', List.contains_eq_mem, decide_eq_false_iff_not] at h
  simp only [Lexeme.starts, Bool.not_eq_true', List.contains_eq_mem, decide_eq_false_iff_not]
  exact fun hmem => h (by simp at hmem ⊢; tauto)

/-- An expression begins with a token that only expressions begin with, and none of its tokens join. -/
theorem Expr.Written.starts_closed {level : Level} {e : Expr} (h : e.Written level ts) : Starts ts ∧ Closed ts := by
  induction h with
  | null => exact ⟨⟨_, _, rfl, by decide⟩, .singleton rfl⟩
  | bool b => exact ⟨⟨_, _, rfl, by cases b <;> decide⟩, .singleton rfl⟩
  | number => exact ⟨⟨_, _, rfl, rfl⟩, .singleton rfl⟩
  | string => exact ⟨⟨_, _, rfl, rfl⟩, .singleton rfl⟩
  | var hname => exact ⟨starts_of_isName hname, .singleton rfl⟩
  | @call c arguments _ _ _ ih =>
    refine ⟨⟨_, _, rfl, by cases c <;> decide⟩, .cons rfl (.cons rfl (.append (.argumentTokens ?_) (.singleton rfl)))⟩
    exact List.forall_mem_map.2 fun a ha => (ih a ha).2
  | paren _ ih => exact ⟨⟨_, _, rfl, rfl⟩, .cons rfl (ih.2.append (.singleton rfl))⟩
  | index _ _ iht ihu => exact ⟨iht.1.append _, iht.2.append (.cons rfl (ihu.2.append (.singleton rfl)))⟩
  | member _ hname ih =>
    -- the one place of a point: a name stands behind it
    refine ⟨ih.1.append _, ih.2.append ⟨List.isChain_pair.2 fun hjoins => ?_, fun l hl => ?_⟩⟩
    · cases hjoins with
      | equal hl => exact absurd hl (by decide)
    · cases hl
      rfl
  | target _ ih => exact ih
  | not _ ih => exact ⟨⟨_, _, rfl, rfl⟩, .cons_of_starts (by decide) ih.2 ih.1⟩
  | operand _ ih => exact ih
  | @compare a b op _ _ _ _ iht ihu => exact ⟨iht.1.append _, iht.2.append (.cons_of_starts (by simp) ihu.2 ihu.1)⟩

theorem Stmt.Written.closed {s : Stmt} (h : s.Written ts) : Closed ts := by
  have hbody {body : List (Stmt × List Lexeme)} (ih : ∀ s ∈ body, Closed s.2) : Closed (blockTokens (body.map (·.2))) :=
    .blockTokens (List.forall_mem_map.2 ih)
  induction h with
  | bind _ he =>
    obtain ⟨hstarts, hclosed⟩ := he.starts_closed
    have htokens := hclosed.append (.singleton (l := .sign .semicolon) rfl)
    exact .cons rfl (.cons rfl (.cons_of_starts (by decide) htokens (hstarts.append _)))
  | branch hc _ ih => exact .cons rfl (hc.starts_closed.2.append (hbody ih))
  | otherwise hc _ _ ihyes ihno =>
    exact .cons rfl (hc.starts_closed.2.append ((hbody ihyes).append (.cons rfl (hbody ihno))))
  | elseIf hc _ _ ihyes ihno => exact .cons rfl (hc.starts_closed.2.append ((hbody ihyes).append (.cons rfl ihno)))
  | done => exact .cons rfl (.singleton rfl)
  | doneWith he => exact .cons rfl (he.starts_closed.2.append (.singleton rfl))
  | eval he => exact he.starts_closed.2.append (.singleton rfl)

theorem Written.apart {program : List Stmt} (h : Written program ts) : Apart ts := by
  obtain ⟨parts, hparts, -, rfl⟩ := h
  exact (Closed.flatten (List.forall_mem_map.2 fun s hs => (hparts s hs).closed)).apart

end GuardedConfig.Trigger
