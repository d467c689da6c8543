import GuardedConfig.Proofs.Outcome
import GuardedConfig.Proofs.Trigger.Reading

/-!
# `Proofs.Trigger.Derivation` — what is read is written

The tokens that the reader has gone through write what it returns, whatever they are. With the converse, the programs
that are read are those that the grammar has.

## Contents

* `step_map_eq_ok`, `step_seq_eq_ok`, `step_branch_eq_ok` — the parts of what a step returns
* `ReadsExprs`, `readsExprs` — expressions, by induction on the steps
* `ReadsStmts`, `readsStmts` — statements
* `readProgram_eq_ok_iff` — programs
-/

namespace GuardedConfig.Trigger

variable {e : Expr} {ts rest : List Lexeme} {fuel : Nat}

/-! ## Parts -/

section

variable {α β γ : Type} {us : List Lexeme}

/-- A part that is made of another one. -/
theorem step_map_eq_ok {f : α → β} {x : Checked α} {b : β} :
    (some (f <$> x, us) : Step β) = some (.ok b, rest) ↔ ∃ a, x = .ok a ∧ f a = b ∧ us = rest := by
  rw [Option.some.injEq, Prod.mk.injEq, except_map_eq_ok]
  exact ⟨fun ⟨⟨a, ha⟩, he⟩ => ⟨a, ha.1, ha.2, he⟩, fun ⟨a, hx, ha, he⟩ => ⟨⟨a, hx, ha⟩, he⟩⟩

/-- A part that is made of two others. -/
theorem step_seq_eq_ok {f : α → β → γ} {x : Checked α} {y : Checked β} {c : γ} :
    (some (f <$> x <*> y, us) : Step γ) = some (.ok c, rest) ↔
      ∃ a b, x = .ok a ∧ y = .ok b ∧ f a b = c ∧ us = rest := by
  rw [Option.some.injEq, Prod.mk.injEq, except_seq_eq_ok]
  constructor
  · rintro ⟨⟨g, b, hg, hy, hb⟩, he⟩
    obtain ⟨a, hx, rfl⟩ := except_map_eq_ok.1 hg
    exact ⟨a, b, hx, hy, hb, he⟩
  · rintro ⟨a, b, rfl, hy, hb, he⟩
    exact ⟨⟨f a, b, rfl, hy, hb⟩, he⟩

theorem step_branch_eq_ok {c : Checked Expr} {yes no : Checked (List Stmt)} {s : Stmt} :
    (some (.branch <$> c <*> yes <*> no, us) : Step Stmt) = some (.ok s, rest) ↔
      ∃ c' yes' no', c = .ok c' ∧ yes = .ok yes' ∧ no = .ok no' ∧ .branch c' yes' no' = s ∧ us = rest := by
  rw [Option.some.injEq, Prod.mk.injEq, except_seq_eq_ok]
  constructor
  · rintro ⟨⟨g, no', hg, hno, hs⟩, he⟩
    obtain ⟨f, yes', hf, hyes, rfl⟩ := except_seq_eq_ok.1 hg
    obtain ⟨c', hc, rfl⟩ := except_map_eq_ok.1 hf
    exact ⟨c', yes', no', hc, hyes, hno, hs, he⟩
  · rintro ⟨c', yes', no', rfl, rfl, hno, hs, he⟩
    exact ⟨⟨.branch c' yes', no', rfl, hno, hs⟩, he⟩

end

/-! ## Expressions -/

theorem eq_name_of_ofName? {w : String} {c : Capability} (h : Capability.ofName? w = some c) : w = c.name := by
  have hname := List.find?_some h
  exact (beq_iff_eq.1 hname).symm

theorem written_of_wordExpr {w : String} (h : wordExpr w = some e) : e.Written .target [.word w] := by
  unfold wordExpr at h
  split at h
  · cases h
    exact .bool true
  · cases h
    exact .bool false
  · cases h
    exact .null
  · split at h
    case isTrue hname =>
      cases h
      exact .var hname
    case isFalse => cases h

/-- What the readers of expressions have gone through writes what they return. Indices and members are behind a target,
which is then written with them. -/
structure ReadsExprs (fuel : Nat) : Prop where
  whole : ∀ {ts e rest}, readExpr fuel ts = some (.ok e, rest) → ∃ us, e.Written .whole us ∧ ts = us ++ rest
  operand : ∀ {ts e rest}, readOperand fuel ts = some (.ok e, rest) → ∃ us, e.Written .operand us ∧ ts = us ++ rest
  suffixes : ∀ {r ts e rest}, readPostfix fuel r ts = some (.ok e, rest) → ∃ target us, r = .ok target ∧
    ts = us ++ rest ∧ ∀ vs, target.Written .target vs → e.Written .target (vs ++ us)
  arguments : ∀ {ts es rest}, readArguments fuel ts = some (.ok es, rest) → ∃ parts : List (Expr × List Lexeme),
    (∀ a ∈ parts, a.1.Written .whole a.2) ∧ es = parts.map (·.1) ∧
      ts = argumentTokens (parts.map (·.2)) ++ .sign .closeParen :: rest
  more : ∀ {ts es rest}, readMoreArguments fuel ts = some (.ok es, rest) → ∃ parts : List (Expr × List Lexeme),
    (∀ a ∈ parts, a.1.Written .whole a.2) ∧ es = parts.map (·.1) ∧
      ts = (parts.map (·.2)).flatMap (.sign .comma :: ·) ++ .sign .closeParen :: rest

namespace ReadsExprs

variable {vs : List Lexeme} {r : Checked Expr}

theorem readExpr_succ (h : ReadsExprs fuel) (hread : readExpr (fuel + 1) ts = some (.ok e, rest)) :
    ∃ us, e.Written .whole us ∧ ts = us ++ rest := by
  rw [readExpr] at hread
  split at hread
  · rename_i left op more hleft
    split at hread
    · rename_i right rest' hright
      obtain ⟨a, b, rfl, rfl, rfl, rfl⟩ := step_seq_eq_ok.1 hread
      obtain ⟨us, hus, rfl⟩ := h.operand hleft
      obtain ⟨vs, hvs, rfl⟩ := h.operand hright
      exact ⟨_, .compare hus hvs, by rw [List.append_assoc, List.cons_append]⟩
    · cases hread
  · obtain ⟨us, hus, rfl⟩ := h.operand hread
    exact ⟨us, .operand hus, rfl⟩

theorem readOperand_succ (h : ReadsExprs fuel) (hread : readOperand (fuel + 1) ts = some (.ok e, rest)) :
    ∃ us, e.Written .operand us ∧ ts = us ++ rest := by
  rw [readOperand.eq_def] at hread
  dsimp only at hread
  -- one case per token that an operand may begin with; all but `!` may have indices and members behind them
  split at hread
  · obtain ⟨⟨_ | a, rest'⟩, hoperand, he⟩ := Option.map_eq_some_iff.1 hread
    · cases he
    cases he
    obtain ⟨us, hus, rfl⟩ := h.operand hoperand
    exact ⟨_, .not hus, rfl⟩
  · obtain ⟨target, us, ht, rfl, hbehind⟩ := h.suffixes hread
    cases ht
    exact ⟨_, .target (hbehind _ (.string _)), rfl⟩
  · obtain ⟨target, us, ht, rfl, hbehind⟩ := h.suffixes hread
    obtain ⟨v, hv, rfl⟩ := except_map_eq_ok.1 ht
    exact ⟨_, .target (hbehind _ (.number hv)), rfl⟩
  · split at hread
    case h_1 hexpr =>
      obtain ⟨target, us, rfl, rfl, hbehind⟩ := h.suffixes hread
      obtain ⟨vs, hvs, rfl⟩ := h.whole hexpr
      exact ⟨_, .target (hbehind _ (.paren hvs)), by simp⟩
    case h_2 => cases hread
  · split at hread
    case h_1 hname =>
      -- the name of a capability with a parenthesis behind it is always a call
      split at hread
      case h_1 harguments =>
        obtain ⟨target, us, hcall, rfl, hbehind⟩ := h.suffixes hread
        obtain ⟨es, rfl, hchecked⟩ := except_bind_eq_ok.1 hcall
        obtain ⟨parts, hparts, rfl, rfl⟩ := h.arguments harguments
        unfold checkedCall at hchecked
        split at hchecked
        case isTrue harity =>
          cases hchecked
          rw [List.length_map] at harity
          rw [eq_name_of_ofName? hname]
          exact ⟨_, .target (hbehind _ (.call hparts harity.1 harity.2)), by simp⟩
        case isFalse => cases hchecked
      case h_2 => cases hread
    case h_2 =>
      split at hread
      case h_1 hword =>
        obtain ⟨target, us, ht, rfl, hbehind⟩ := h.suffixes hread
        cases ht
        exact ⟨_, .target (hbehind _ (written_of_wordExpr hword)), rfl⟩
      case h_2 => cases hread
  · cases hread

theorem readPostfix_succ (h : ReadsExprs fuel) (hread : readPostfix (fuel + 1) r ts = some (.ok e, rest)) :
    ∃ target us, r = .ok target ∧ ts = us ++ rest ∧ ∀ vs, target.Written .target vs → e.Written .target (vs ++ us) := by
  rw [readPostfix.eq_def] at hread
  dsimp only at hread
  split at hread
  -- an index or a member is part of the target for what stands behind it
  · split at hread
    case h_1 hexpr =>
      obtain ⟨target, us, hindex, rfl, hbehind⟩ := h.suffixes hread
      obtain ⟨g, i, hg, rfl, rfl⟩ := except_seq_eq_ok.1 hindex
      obtain ⟨a, rfl, rfl⟩ := except_map_eq_ok.1 hg
      obtain ⟨is, his, rfl⟩ := h.whole hexpr
      refine ⟨a, .sign .openBracket :: (is ++ [.sign .closeBracket]) ++ us, rfl, by simp, fun vs hvs => ?_⟩
      rw [← List.append_assoc]
      exact hbehind _ (.index hvs his)
    case h_2 => cases hread
  · split at hread
    case isTrue hname =>
      obtain ⟨target, us, hmember, rfl, hbehind⟩ := h.suffixes hread
      obtain ⟨a, rfl, rfl⟩ := except_map_eq_ok.1 hmember
      refine ⟨a, [.sign .dot, .word _] ++ us, rfl, rfl, fun vs hvs => ?_⟩
      rw [← List.append_assoc]
      exact hbehind _ (.member hvs hname)
    case isFalse => cases hread
  · cases hread
  · cases hread
    exact ⟨e, [], rfl, rfl, fun vs hvs => (List.append_nil vs).symm ▸ hvs⟩

theorem readMoreArguments_succ (h : ReadsExprs fuel) {es : List Expr}
    (hread : readMoreArguments (fuel + 1) ts = some (.ok es, rest)) : ∃ parts : List (Expr × List Lexeme),
      (∀ a ∈ parts, a.1.Written .whole a.2) ∧ es = parts.map (·.1) ∧
        ts = (parts.map (·.2)).flatMap (.sign .comma :: ·) ++ .sign .closeParen :: rest := by
  rw [readMoreArguments.eq_def] at hread
  dsimp only at hread
  split at hread
  · cases hread
    exact ⟨[], nofun, rfl, rfl⟩
  · split at hread
    case h_1 hexpr =>
      split at hread
      case h_1 hmore =>
        obtain ⟨e, es, rfl, rfl, rfl, rfl⟩ := step_seq_eq_ok.1 hread
        obtain ⟨us, hus, rfl⟩ := h.whole hexpr
        obtain ⟨parts, hparts, rfl, rfl⟩ := h.more hmore
        exact ⟨(e, us) :: parts, List.forall_mem_cons.2 ⟨hus, hparts⟩, rfl, by simp⟩
      case h_2 => cases hread
    case h_2 => cases hread
  · cases hread

theorem readArguments_succ (h : ReadsExprs fuel) {es : List Expr}
    (hread : readArguments (fuel + 1) ts = some (.ok es, rest)) : ∃ parts : List (Expr × List Lexeme),
      (∀ a ∈ parts, a.1.Written .whole a.2) ∧ es = parts.map (·.1) ∧
        ts = argumentTokens (parts.map (·.2)) ++ .sign .closeParen :: rest := by
  rw [readArguments.eq_def] at hread
  dsimp only at hread
  split at hread
  · cases hread
    exact ⟨[], nofun, rfl, rfl⟩
  · split at hread
    case h_1 hexpr =>
      split at hread
      case h_1 hmore =>
        obtain ⟨e, es, rfl, rfl, rfl, rfl⟩ := step_seq_eq_ok.1 hread
        obtain ⟨us, hus, rfl⟩ := h.whole hexpr
        obtain ⟨parts, hparts, rfl, rfl⟩ := h.more hmore
        exact ⟨(e, us) :: parts, List.forall_mem_cons.2 ⟨hus, hparts⟩, rfl, by simp [argumentTokens]⟩
      case h_2 => cases hread
    case h_2 => cases hread

end ReadsExprs

theorem readsExprs (fuel : Nat) : ReadsExprs fuel := by
  induction fuel with
  | zero => exact ⟨nofun, nofun, nofun, nofun, nofun⟩
  | succ fuel ih =>
    exact ⟨ih.readExpr_succ, ih.readOperand_succ, ih.readPostfix_succ, ih.readArguments_succ, ih.readMoreArguments_succ⟩

/-! ## Statements -/

/-- What the readers of statements have gone through writes what they return. -/
structure ReadsStmts (fuel : Nat) : Prop where
  stmt : ∀ {ts s rest}, readStmt fuel ts = some (.ok s, rest) → ∃ us, s.Written us ∧ ts = us ++ rest
  branch : ∀ {ts s rest}, readBranch fuel ts = some (.ok s, rest) → ∃ c yes no us, s = .branch c yes no ∧
    s.Written (.word "if" :: us) ∧ ts = us ++ rest
  block : ∀ {ts body rest}, readBlock fuel ts = some (.ok body, rest) → ∃ parts : List (Stmt × List Lexeme),
    (∀ s ∈ parts, s.1.Written s.2) ∧ body = parts.map (·.1) ∧ ts = blockTokens (parts.map (·.2)) ++ rest
  stmts : ∀ {ts body rest}, readStmts fuel ts = some (.ok body, rest) → ∃ parts : List (Stmt × List Lexeme),
    (∀ s ∈ parts, s.1.Written s.2) ∧ body = parts.map (·.1) ∧ ts = (parts.map (·.2)).flatten ++ rest

namespace ReadsStmts

variable {s : Stmt} {body : List Stmt}

theorem readStmt_succ (h : ReadsStmts fuel) (hread : readStmt (fuel + 1) ts = some (.ok s, rest)) :
    ∃ us, s.Written us ∧ ts = us ++ rest := by
  rw [readStmt.eq_def] at hread
  dsimp only at hread
  split at hread
  · split at hread
    case isTrue hname =>
      split at hread
      case h_1 hexpr =>
        obtain ⟨e, rfl, rfl, rfl⟩ := step_map_eq_ok.1 hread
        obtain ⟨us, hus, rfl⟩ := (readsExprs fuel).whole hexpr
        exact ⟨_, .bind hname hus, by simp⟩
      case h_2 => cases hread
    case isFalse => cases hread
  · obtain ⟨c, yes, no, us, rfl, hus, rfl⟩ := h.branch hread
    exact ⟨_, hus, rfl⟩
  · cases hread
    exact ⟨_, .done, rfl⟩
  · split at hread
    case h_1 hexpr =>
      obtain ⟨e, rfl, rfl, rfl⟩ := step_map_eq_ok.1 hread
      obtain ⟨us, hus, rfl⟩ := (readsExprs fuel).whole hexpr
      exact ⟨_, .doneWith hus, by simp⟩
    case h_2 => cases hread
  · split at hread
    case h_1 hexpr =>
      obtain ⟨e, rfl, rfl, rfl⟩ := step_map_eq_ok.1 hread
      obtain ⟨us, hus, rfl⟩ := (readsExprs fuel).whole hexpr
      exact ⟨_, .eval hus, by simp⟩
    case h_2 => cases hread

theorem readBranch_succ (h : ReadsStmts fuel) (hread : readBranch (fuel + 1) ts = some (.ok s, rest)) :
    ∃ c yes no us, s = .branch c yes no ∧ s.Written (.word "if" :: us) ∧ ts = us ++ rest := by
  rw [readBranch] at hread
  split at hread
  case h_2 => cases hread
  case h_1 hexpr =>
    split at hread
    -- `else if`, `else` and neither
    case h_1 hblock =>
      split at hread
      case h_1 hno =>
        obtain ⟨c, yes, no, rfl, rfl, hsingle, rfl, rfl⟩ := step_branch_eq_ok.1 hread
        obtain ⟨s, rfl, rfl⟩ := except_map_eq_ok.1 hsingle
        obtain ⟨ts, hts, rfl⟩ := (readsExprs fuel).whole hexpr
        obtain ⟨parts, hparts, rfl, rfl⟩ := h.block hblock
        obtain ⟨c', yes', no', us, rfl, hus, rfl⟩ := h.branch hno
        exact ⟨_, _, _, _, rfl, .elseIf hts hparts hus, by simp⟩
      case h_2 => cases hread
    case h_2 hblock =>
      split at hread
      case h_1 hno =>
        obtain ⟨c, yes, no, rfl, rfl, rfl, rfl, rfl⟩ := step_branch_eq_ok.1 hread
        obtain ⟨ts, hts, rfl⟩ := (readsExprs fuel).whole hexpr
        obtain ⟨yes, hyes, rfl, rfl⟩ := h.block hblock
        obtain ⟨no, hother, rfl, rfl⟩ := h.block hno
        exact ⟨_, _, _, _, rfl, .otherwise hts hyes hother, by simp⟩
      case h_2 => cases hread
    case h_3 hblock =>
      obtain ⟨c, yes, rfl, rfl, rfl, rfl⟩ := step_seq_eq_ok.1 hread
      obtain ⟨ts, hts, rfl⟩ := (readsExprs fuel).whole hexpr
      obtain ⟨parts, hparts, rfl, rfl⟩ := h.block hblock
      exact ⟨_, _, _, _, rfl, .branch hts hparts, by simp⟩
    case h_4 => cases hread

theorem readBlock_succ (h : ReadsStmts fuel) (hread : readBlock (fuel + 1) ts = some (.ok body, rest)) :
    ∃ parts : List (Stmt × List Lexeme), (∀ s ∈ parts, s.1.Written s.2) ∧ body = parts.map (·.1) ∧
      ts = blockTokens (parts.map (·.2)) ++ rest := by
  rw [readBlock.eq_def] at hread
  dsimp only at hread
  split at hread
  · split at hread
    case h_1 hstmts =>
      cases hread
      obtain ⟨parts, hparts, rfl, rfl⟩ := h.stmts hstmts
      exact ⟨parts, hparts, rfl, by simp [blockTokens]⟩
    case h_2 => cases hread
  · cases hread

theorem readStmts_succ (h : ReadsStmts fuel) (hread : readStmts (fuel + 1) ts = some (.ok body, rest)) :
    ∃ parts : List (Stmt × List Lexeme), (∀ s ∈ parts, s.1.Written s.2) ∧ body = parts.map (·.1) ∧
      ts = (parts.map (·.2)).flatten ++ rest := by
  rw [readStmts.eq_def] at hread
  dsimp only at hread
  split at hread
  · cases hread
    exact ⟨[], nofun, rfl, rfl⟩
  · cases hread
    exact ⟨[], nofun, rfl, rfl⟩
  · split at hread
    case h_1 hstmt =>
      split at hread
      case h_1 hmore =>
        obtain ⟨s, more, rfl, rfl, rfl, rfl⟩ := step_seq_eq_ok.1 hread
        obtain ⟨us, hus, rfl⟩ := h.stmt hstmt
        obtain ⟨parts, hparts, rfl, rfl⟩ := h.stmts hmore
        exact ⟨(s, us) :: parts, List.forall_mem_cons.2 ⟨hus, hparts⟩, rfl, by simp⟩
      case h_2 => cases hread
    case h_2 => cases hread

end ReadsStmts

theorem readsStmts (fuel : Nat) : ReadsStmts fuel := by
  induction fuel with
  | zero => exact ⟨nofun, nofun, nofun, nofun⟩
  | succ fuel ih => exact ⟨ih.readStmt_succ, ih.readBranch_succ, ih.readBlock_succ, ih.readStmts_succ⟩

/-! ## Programs -/

/-- **A text is read as a program if and only if its tokens write the program.** -/
theorem readProgram_eq_ok_iff {text : String} {program : List Stmt} :
    readProgram text = .ok program ↔ ∃ ts, lexemes text = some ts ∧ Written program ts := by
  unfold readProgram
  constructor
  · intro hread
    split at hread
    · cases hread
    · rename_i ts hts
      split at hread
      · rename_i hstmts
        subst hread
        obtain ⟨parts, hparts, hprogram, htokens⟩ := (readsStmts _).stmts hstmts
        exact ⟨ts, hts, parts, hparts, hprogram, htokens.trans (List.append_nil _)⟩
      · cases hread
  · rintro ⟨ts, hts, parts, hparts, rfl, rfl⟩
    have hread := readStmts_tokens (fun s hs => (hparts s hs).reads) (fun s hs => (hparts s hs).opens)
      (fuelFor (parts.map (·.2)).flatten) [] (.inl rfl) (Nat.le_refl _)
    rw [List.append_nil] at hread
    rw [hts]
    dsimp only
    rw [hread]

end GuardedConfig.Trigger
