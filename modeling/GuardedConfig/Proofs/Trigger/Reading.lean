import GuardedConfig.Proofs.Trigger.Grammar

/-!
# `Proofs.Trigger.Reading` — what is written is read

What the grammar has, the reader accepts: given enough steps for the tokens that are left, each part of a program is
read from the tokens it is written with, and the reader stops where they end, if what stands there does not continue the
part.

## Contents

* `Level.Continues`, `Stops` — where an expression ends
* `Reads`, `Expr.Written.reads` — expressions, by induction on how they are written
* `Stmt.Written.reads`, `readStmts_tokens` — statements
-/

namespace GuardedConfig.Trigger

/-! ## Expressions -/

/-- A token that continues an expression that is written for a place: the parenthesis of a call, that of an index or the
point of a member, or a comparison. -/
inductive Level.Continues : Level → Lexeme → Prop
  | call (level : Level) : Continues level (.sign .openParen)
  | index {level : Level} : level ≠ .target → Continues level (.sign .openBracket)
  | member {level : Level} : level ≠ .target → Continues level (.sign .dot)
  | compare (op : Comparison) : Continues .whole (.comparison op)

/-- An expression that is written for a place ends before these tokens. -/
def Stops (level : Level) (rest : List Lexeme) : Prop := ∀ l ∈ rest.head?, ¬ level.Continues l

/-- An expression is read from its tokens: an operand, or a whole expression, with nothing behind it, and a target with
the indices and members behind it. Four steps for each token that is left are enough. -/
def Reads (e : Expr) (ts : List Lexeme) : Level → Prop
  | .whole => ∀ fuel rest, Stops .whole rest → 4 * (ts.length + rest.length) + 2 ≤ fuel →
      readExpr fuel (ts ++ rest) = some (.ok e, rest)
  | .operand => ∀ fuel rest, Stops .operand rest → 4 * (ts.length + rest.length) + 1 ≤ fuel →
      readOperand fuel (ts ++ rest) = some (.ok e, rest)
  | .target => ∀ fuel rest, Stops .target rest → 4 * (ts.length + rest.length) + 1 ≤ fuel →
      ∃ left, 4 * rest.length + 1 ≤ left ∧ readOperand fuel (ts ++ rest) = readPostfix left (.ok e) rest

variable {e : Expr} {l : Lexeme} {ts rest : List Lexeme} {fuel : Nat} {level : Level}

theorem stops_cons (h : ¬ level.Continues l) (rest : List Lexeme) : Stops level (l :: rest) := by
  intro m hm
  cases hm
  exact h

/-- What ends a whole expression ends any. -/
theorem Stops.of_whole (h : Stops .whole rest) (level : Level) : Stops level rest := by
  intro l hl hcontinues
  refine h l hl ?_
  cases hcontinues with
  | call => exact .call _
  | index => exact .index (by decide)
  | member => exact .member (by decide)
  | compare op => exact .compare op

/-- What ends any expression ends a target. -/
theorem Stops.target (h : Stops level rest) : Stops .target rest := by
  intro l hl hcontinues
  cases hcontinues with
  | call => exact h _ hl (.call _)
  | index hne => exact hne rfl
  | member hne => exact hne rfl

/-- Only a parenthesis continues a target as such. -/
theorem stops_target (h : l ≠ .sign .openParen) (rest : List Lexeme) : Stops .target (l :: rest) := by
  refine stops_cons (fun hcontinues => ?_) rest
  cases hcontinues with
  | call => exact h rfl
  | index hne => exact hne rfl
  | member hne => exact hne rfl

theorem readPostfix_stops (r : Checked Expr) (h : Stops .operand rest) (hfuel : 0 < fuel) :
    readPostfix fuel r rest = some (r, rest) := by
  obtain ⟨fuel, rfl⟩ := Nat.exists_eq_succ_of_ne_zero hfuel.ne'
  rw [readPostfix]
  · rintro _ rfl
    exact h _ rfl (.index (by decide))
  · rintro _ _ rfl
    exact h _ rfl (.member (by decide))
  · rintro _ rfl
    exact h _ rfl (.member (by decide))

/-- A word that is no call. -/
theorem readOperand_word {w : String} (hw : wordExpr w = some e) (h : Stops .target rest) :
    readOperand (fuel + 1) (.word w :: rest) = readPostfix fuel (.ok e) rest := by
  rw [readOperand]
  · rw [hw]
  · rintro _ _ _ rfl
    exact h _ rfl (.call _)

theorem readOperand_call (c : Capability) : readOperand (fuel + 1) (.word c.name :: .sign .openParen :: rest) =
    match readArguments fuel rest with
    | some (arguments, rest) => readPostfix fuel (arguments >>= checkedCall c) rest
    | none => none := by
  rw [readOperand.eq_def]
  dsimp only
  rewrite [Capability.ofName?_name]
  rfl

theorem wordExpr_of_isName {name : String} (h : isName name = true) : wordExpr name = some (.var name) := by
  unfold wordExpr
  split
  · exact absurd h (by decide)
  · exact absurd h (by decide)
  · exact absurd h (by decide)
  · exact if_pos h

/-- A single token that is a target. -/
theorem reads_token {l : Lexeme} (h : ∀ fuel rest, Stops .target rest →
    readOperand (fuel + 1) (l :: rest) = readPostfix fuel (.ok e) rest) : Reads e [l] .target := by
  intro fuel rest hrest hfuel
  obtain ⟨fuel, rfl⟩ := Nat.exists_eq_succ_of_ne_zero (show fuel ≠ 0 by omega)
  rw [List.length_singleton] at hfuel
  exact ⟨fuel, by omega, h fuel rest hrest⟩

theorem stops_moreArguments (tss : List (List Lexeme)) (rest : List Lexeme) :
    Stops .whole (tss.flatMap (.sign .comma :: ·) ++ .sign .closeParen :: rest) := by
  cases tss with
  | nil => exact stops_cons (by nofun) _
  | cons => exact stops_cons (by nofun) _

/-- Arguments behind the first one. -/
theorem readMoreArguments_tokens {arguments : List (Expr × List Lexeme)} (h : ∀ a ∈ arguments, Reads a.1 a.2 .whole)
    (fuel : Nat) (rest : List Lexeme)
    (hfuel : 4 * (((arguments.map (·.2)).flatMap (.sign .comma :: ·)).length + (rest.length + 1)) + 1 ≤ fuel) :
    readMoreArguments fuel ((arguments.map (·.2)).flatMap (.sign .comma :: ·) ++ .sign .closeParen :: rest) =
      some (.ok (arguments.map (·.1)), rest) := by
  induction arguments generalizing fuel with
  | nil =>
    obtain ⟨fuel, rfl⟩ := Nat.exists_eq_succ_of_ne_zero (show fuel ≠ 0 by omega)
    rfl
  | cons a arguments ih =>
    obtain ⟨ha, harguments⟩ := List.forall_mem_cons.1 h
    simp only [List.map_cons, List.flatMap_cons, List.length_append, List.length_cons] at hfuel
    obtain ⟨fuel, rfl⟩ := Nat.exists_eq_succ_of_ne_zero (show fuel ≠ 0 by omega)
    rw [List.map_cons, List.flatMap_cons, List.cons_append, List.cons_append, List.append_assoc, readMoreArguments,
      ha fuel _ (stops_moreArguments _ _) (by simp only [List.length_append, List.length_cons]; omega)]
    dsimp only
    rw [ih harguments fuel (by omega)]
    rfl

theorem readArguments_tokens {arguments : List (Expr × List Lexeme)} (h : ∀ a ∈ arguments, Reads a.1 a.2 .whole)
    (hstarts : ∀ a ∈ arguments, Starts a.2) (fuel : Nat) (rest : List Lexeme)
    (hfuel : 4 * ((argumentTokens (arguments.map (·.2))).length + (rest.length + 1)) + 3 ≤ fuel) :
    readArguments fuel (argumentTokens (arguments.map (·.2)) ++ .sign .closeParen :: rest) =
      some (.ok (arguments.map (·.1)), rest) := by
  obtain ⟨fuel, rfl⟩ := Nat.exists_eq_succ_of_ne_zero (show fuel ≠ 0 by omega)
  cases arguments with
  | nil => rfl
  | cons a arguments =>
    obtain ⟨ha, harguments⟩ := List.forall_mem_cons.1 h
    simp only [List.map_cons, argumentTokens, List.length_append] at hfuel
    have hexpr := ha fuel _ (stops_moreArguments (arguments.map (·.2)) rest)
      (by simp only [List.length_append, List.length_cons]; omega)
    have hmore := readMoreArguments_tokens harguments fuel rest (by omega)
    rw [List.map_cons, argumentTokens, List.append_assoc]
    obtain ⟨l, more, htokens, hl⟩ := hstarts a (List.mem_cons_self ..)
    rw [htokens, List.cons_append] at hexpr ⊢
    rw [readArguments]
    · rw [hexpr]
      dsimp only
      rw [hmore]
      rfl
    · rintro _ he
      cases he
      cases hl

/-- **What the grammar has as an expression is read.** -/
theorem Expr.Written.reads {level : Level} (h : e.Written level ts) : Reads e ts level := by
  induction h with
  | null => exact reads_token fun _ _ hrest => readOperand_word rfl hrest
  | bool b => exact reads_token fun _ _ hrest => readOperand_word (by cases b <;> rfl) hrest
  | number hv =>
    refine reads_token fun _ _ _ => ?_
    rw [readOperand, hv]
    rfl
  | string text => exact reads_token fun _ _ _ => rfl
  | var hname => exact reads_token fun _ _ hrest => readOperand_word (wordExpr_of_isName hname) hrest
  | @call c arguments hwritten hleast hmost ih =>
    intro fuel rest hrest hfuel
    simp only [List.length_cons, List.length_append, List.length_nil] at hfuel
    obtain ⟨fuel, rfl⟩ := Nat.exists_eq_succ_of_ne_zero (show fuel ≠ 0 by omega)
    have harguments := readArguments_tokens ih (fun a ha => (hwritten a ha).starts_closed.1) fuel rest (by omega)
    have hcall : checkedCall c (arguments.map (·.1)) = .ok (.call c (arguments.map (·.1))) := by
      rw [checkedCall, List.length_map, if_pos ⟨hleast, hmost⟩]
    refine ⟨fuel, by omega, ?_⟩
    rw [List.cons_append, List.cons_append, List.append_assoc, List.singleton_append,
      readOperand_call, harguments]
    dsimp only
    rw [← hcall]
    rfl
  | @paren e ts _ ih =>
    intro fuel rest hrest hfuel
    simp only [List.length_cons, List.length_append, List.length_nil] at hfuel
    obtain ⟨fuel, rfl⟩ := Nat.exists_eq_succ_of_ne_zero (show fuel ≠ 0 by omega)
    have hexpr := ih fuel (.sign .closeParen :: rest) (stops_cons (by nofun) _) (by simp only [List.length_cons]; omega)
    refine ⟨fuel, by omega, ?_⟩
    rw [List.cons_append, List.append_assoc, List.singleton_append, readOperand, hexpr]
  | @index e i ts us _ _ ihe ihi =>
    intro fuel rest hrest hfuel
    simp only [List.length_cons, List.length_append, List.length_nil] at hfuel
    rw [List.append_assoc, List.cons_append, List.append_assoc, List.singleton_append]
    obtain ⟨left, hleft, hread⟩ := ihe fuel (.sign .openBracket :: (us ++ .sign .closeBracket :: rest))
      (stops_target (by decide) _) (by simp only [List.length_cons, List.length_append]; omega)
    simp only [List.length_cons, List.length_append] at hleft
    -- reading the target has left enough for the index, which is shorter than what the target and it had together
    obtain ⟨left, rfl⟩ := Nat.exists_eq_succ_of_ne_zero (show left ≠ 0 by omega)
    have hindex := ihi left (.sign .closeBracket :: rest) (stops_cons (by nofun) _)
      (by simp only [List.length_cons]; omega)
    refine ⟨left, by omega, ?_⟩
    rw [hread, readPostfix, hindex]
    rfl
  | @member e name ts _ hname ih =>
    intro fuel rest hrest hfuel
    simp only [List.length_cons, List.length_append, List.length_nil] at hfuel
    rw [List.append_assoc]
    obtain ⟨left, hleft, hread⟩ := ih fuel (.sign .dot :: .word name :: rest) (stops_target (by decide) _)
      (by simp only [List.length_cons]; omega)
    simp only [List.length_cons] at hleft
    obtain ⟨left, rfl⟩ := Nat.exists_eq_succ_of_ne_zero (show left ≠ 0 by omega)
    refine ⟨left, by omega, ?_⟩
    rw [List.cons_append, List.singleton_append, hread, readPostfix, if_pos hname]
    rfl
  | target _ ih =>
    intro fuel rest hrest hfuel
    obtain ⟨left, hleft, hread⟩ := ih fuel rest hrest.target hfuel
    rw [hread, readPostfix_stops _ hrest (by omega)]
  | not _ ih =>
    intro fuel rest hrest hfuel
    simp only [List.length_cons] at hfuel
    obtain ⟨fuel, rfl⟩ := Nat.exists_eq_succ_of_ne_zero (show fuel ≠ 0 by omega)
    rw [List.cons_append, readOperand, ih fuel rest hrest (by omega)]
    rfl
  | operand _ ih =>
    intro fuel rest hrest hfuel
    obtain ⟨fuel, rfl⟩ := Nat.exists_eq_succ_of_ne_zero (show fuel ≠ 0 by omega)
    rw [readExpr, ih fuel rest (hrest.of_whole _) (by omega)]
    -- a comparison behind the operand would belong to the expression
    split
    · rename_i he
      cases he
      exact absurd (.compare _) (hrest _ rfl)
    · rfl
  | @compare a b op ts us _ _ iha ihb =>
    intro fuel rest hrest hfuel
    simp only [List.length_cons, List.length_append] at hfuel
    obtain ⟨fuel, rfl⟩ := Nat.exists_eq_succ_of_ne_zero (show fuel ≠ 0 by omega)
    have hleft := iha fuel (.comparison op :: (us ++ rest)) (stops_cons (by nofun) _)
      (by simp only [List.length_cons, List.length_append]; omega)
    rw [List.append_assoc, List.cons_append, readExpr, hleft]
    dsimp only
    rw [ihb fuel rest (hrest.of_whole _) (by omega)]
    rfl

/-! ## Statements -/

/-- A statement is read from its tokens, unless they are those of a branch and `else` stands behind them. -/
def ReadsStmt (s : Stmt) (ts : List Lexeme) : Prop :=
  ∀ fuel rest, rest.head? ≠ some (.word "else") → 4 * (ts.length + rest.length) + 3 ≤ fuel →
    readStmt fuel (ts ++ rest) = some (.ok s, rest)

/-- A list that a statement may begin. -/
def Opens (ts : List Lexeme) : Prop := ∃ l more, ts = l :: more ∧ l ≠ .sign .closeBrace ∧ l ≠ .word "else"

theorem Stmt.Written.opens {s : Stmt} (h : s.Written ts) : Opens ts := by
  cases h with
  | bind => exact ⟨_, _, rfl, by decide, by decide⟩
  | branch => exact ⟨_, _, rfl, by decide, by decide⟩
  | otherwise => exact ⟨_, _, rfl, by decide, by decide⟩
  | elseIf => exact ⟨_, _, rfl, by decide, by decide⟩
  | done => exact ⟨_, _, rfl, by decide, by decide⟩
  | doneWith => exact ⟨_, _, rfl, by decide, by decide⟩
  | eval he =>
    obtain ⟨l, more, htokens, hl⟩ := he.starts_closed.1.append [.sign .semicolon]
    refine ⟨l, more, htokens, ?_, ?_⟩ <;> rintro rfl <;> exact absurd hl (by decide)

/-- Statements are read one after the other, up to a closing brace or the end. -/
theorem readStmts_tokens {parts : List (Stmt × List Lexeme)} (h : ∀ s ∈ parts, ReadsStmt s.1 s.2)
    (hopens : ∀ s ∈ parts, Opens s.2) (fuel : Nat) (rest : List Lexeme)
    (hrest : rest = [] ∨ rest.head? = some (.sign .closeBrace))
    (hfuel : 4 * ((parts.map (·.2)).flatten.length + rest.length) + 4 ≤ fuel) :
    readStmts fuel ((parts.map (·.2)).flatten ++ rest) = some (.ok (parts.map (·.1)), rest) := by
  induction parts generalizing fuel with
  | nil =>
    obtain ⟨fuel, rfl⟩ := Nat.exists_eq_succ_of_ne_zero (show fuel ≠ 0 by omega)
    rcases hrest with rfl | hrest
    · rfl
    · obtain ⟨more, rfl⟩ := List.head?_eq_some_iff.1 hrest
      rfl
  | cons s parts ih =>
    obtain ⟨hs, hparts⟩ := List.forall_mem_cons.1 h
    obtain ⟨hopen, hopens⟩ := List.forall_mem_cons.1 hopens
    simp only [List.map_cons, List.flatten_cons, List.length_append] at hfuel
    obtain ⟨fuel, rfl⟩ := Nat.exists_eq_succ_of_ne_zero (show fuel ≠ 0 by omega)
    -- no statement begins with `else`, so it cannot belong to the one before
    have helse : ((parts.map (·.2)).flatten ++ rest).head? ≠ some (.word "else") := by
      cases parts with
      | nil =>
        rcases hrest with rfl | hrest
        · simp
        · rw [List.map_nil, List.flatten_nil, List.nil_append, hrest]
          simp
      | cons t parts =>
        obtain ⟨l, more, htokens, -, hl⟩ := hopens t (List.mem_cons_self ..)
        simp [htokens, hl]
    have hstmt := hs fuel _ helse (by simp only [List.length_append]; omega)
    obtain ⟨l, more, htokens, hbrace, -⟩ := hopen
    have hlength : s.2.length = more.length + 1 := by rw [htokens, List.length_cons]
    rw [List.map_cons, List.flatten_cons, List.append_assoc]
    rw [htokens, List.cons_append] at hstmt ⊢
    rw [readStmts]
    · rw [hstmt]
      dsimp only
      rw [ih hparts hopens fuel (by omega)]
      rfl
    · nofun
    · rintro _ he
      cases he
      exact hbrace rfl

theorem readBlock_tokens {body : List (Stmt × List Lexeme)} (h : ∀ s ∈ body, ReadsStmt s.1 s.2)
    (hopens : ∀ s ∈ body, Opens s.2) (fuel : Nat) (rest : List Lexeme)
    (hfuel : 4 * ((blockTokens (body.map (·.2))).length + rest.length) + 1 ≤ fuel) :
    readBlock fuel (blockTokens (body.map (·.2)) ++ rest) = some (.ok (body.map (·.1)), rest) := by
  simp only [blockTokens, List.length_cons, List.length_append, List.length_nil] at hfuel
  obtain ⟨fuel, rfl⟩ := Nat.exists_eq_succ_of_ne_zero (show fuel ≠ 0 by omega)
  rw [blockTokens, List.cons_append, List.append_assoc, List.singleton_append, readBlock,
    readStmts_tokens h hopens _ _ (.inr rfl) (by simp only [List.length_cons]; omega)]

section

variable {us more : List Lexeme} {c : Checked Expr} {yes no : Checked (List Stmt)} {other : Checked Stmt}

/-- A branch without another side. -/
theorem readBranch_bare (hc : readExpr fuel ts = some (c, us)) (hyes : readBlock fuel us = some (yes, rest))
    (helse : rest.head? ≠ some (.word "else")) :
    readBranch (fuel + 1) ts = some ((.branch · · []) <$> c <*> yes, rest) := by
  rw [readBranch, hc]
  dsimp only
  rw [hyes]
  split
  · rename_i he
    cases he
    exact absurd rfl helse
  · rename_i he
    cases he
    exact absurd rfl helse
  · rename_i he
    cases he
    rfl
  · rename_i he
    cases he

/-- A branch with a block on the other side. -/
theorem readBranch_otherwise (hc : readExpr fuel ts = some (c, us))
    (hyes : readBlock fuel us = some (yes, .word "else" :: .sign .openBrace :: more))
    (hno : readBlock fuel (.sign .openBrace :: more) = some (no, rest)) :
    readBranch (fuel + 1) ts = some (.branch <$> c <*> yes <*> no, rest) := by
  rw [readBranch, hc]
  dsimp only
  rw [hyes]
  split
  · rename_i he
    cases he
  · rename_i he
    cases he
    rw [hno]
  · rename_i helse he
    cases he
    exact (helse _ rfl).elim
  · rename_i he
    cases he

/-- A branch with a branch on the other side. -/
theorem readBranch_elseIf (hc : readExpr fuel ts = some (c, us))
    (hyes : readBlock fuel us = some (yes, .word "else" :: .word "if" :: more))
    (hno : readBranch fuel more = some (other, rest)) :
    readBranch (fuel + 1) ts = some (.branch <$> c <*> yes <*> ((fun s => [s]) <$> other), rest) := by
  rw [readBranch, hc]
  dsimp only
  rw [hyes]
  split
  · rename_i he
    cases he
    rw [hno]
  · rename_i hif he
    cases he
    exact (hif _ rfl).elim
  · rename_i hif helse he
    cases he
    exact (hif _ rfl).elim
  · rename_i he
    cases he

end

/-- **What the grammar has as a statement is read.** -/
theorem Stmt.Written.reads {s : Stmt} (h : s.Written ts) : ReadsStmt s ts := by
  induction h with
  | @bind name e ts hname he =>
    intro fuel rest _ hfuel
    simp only [List.length_cons, List.length_append, List.length_nil] at hfuel
    obtain ⟨fuel, rfl⟩ := Nat.exists_eq_succ_of_ne_zero (show fuel ≠ 0 by omega)
    have hexpr := he.reads fuel (.sign .semicolon :: rest) (stops_cons (by nofun) _)
      (by simp only [List.length_cons]; omega)
    rw [List.cons_append, List.cons_append, List.cons_append, List.append_assoc, List.singleton_append, readStmt,
      if_pos hname, hexpr]
    rfl
  | @branch c ts yes hc hyes ihyes =>
    intro fuel rest helse hfuel
    simp only [List.length_cons, List.length_append] at hfuel
    obtain ⟨fuel, rfl⟩ := Nat.exists_eq_add_of_le' (show 2 ≤ fuel by omega)
    have hcondition := hc.reads fuel (blockTokens (yes.map (·.2)) ++ rest) (stops_cons (by nofun) _)
      (by simp only [List.length_append]; omega)
    have hblock := readBlock_tokens ihyes (fun s hs => (hyes s hs).opens) fuel rest (by omega)
    rw [List.cons_append, List.append_assoc, readStmt, readBranch_bare hcondition hblock helse]
    rfl
  | @otherwise c ts yes no hc hyes hno ihyes ihno =>
    intro fuel rest helse hfuel
    simp only [List.length_cons, List.length_append] at hfuel
    obtain ⟨fuel, rfl⟩ := Nat.exists_eq_add_of_le' (show 2 ≤ fuel by omega)
    have hcondition := hc.reads fuel
      (blockTokens (yes.map (·.2)) ++ .word "else" :: (blockTokens (no.map (·.2)) ++ rest)) (stops_cons (by nofun) _)
      (by simp only [List.length_append, List.length_cons]; omega)
    have hyesBlock := readBlock_tokens ihyes (fun s hs => (hyes s hs).opens) fuel
      (.word "else" :: (blockTokens (no.map (·.2)) ++ rest))
      (by simp only [List.length_append, List.length_cons]; omega)
    have hnoBlock := readBlock_tokens ihno (fun s hs => (hno s hs).opens) fuel rest (by omega)
    rw [List.cons_append, List.append_assoc, List.append_assoc, List.cons_append, readStmt,
      readBranch_otherwise hcondition hyesBlock hnoBlock]
    rfl
  | @elseIf c c' ts us yes yes' no' hc hyes hwritten ihyes ihno =>
    intro fuel rest helse hfuel
    simp only [List.length_cons, List.length_append] at hfuel
    obtain ⟨fuel, rfl⟩ := Nat.exists_eq_add_of_le' (show 2 ≤ fuel by omega)
    have hcondition := hc.reads fuel (blockTokens (yes.map (·.2)) ++ .word "else" :: (us ++ rest))
      (stops_cons (by nofun) _) (by simp only [List.length_append, List.length_cons]; omega)
    have hblock := readBlock_tokens ihyes (fun s hs => (hyes s hs).opens) fuel (.word "else" :: (us ++ rest))
      (by simp only [List.length_append, List.length_cons]; omega)
    -- one step more reads the other branch as a statement of its own
    have hbranch := ihno (fuel + 1) rest helse (by omega)
    obtain ⟨us, rfl⟩ : ∃ more, us = .word "if" :: more := by cases hwritten <;> exact ⟨_, rfl⟩
    rw [List.cons_append] at hblock hbranch
    rw [List.cons_append, List.append_assoc, List.append_assoc, List.cons_append, readStmt,
      readBranch_elseIf hcondition hblock hbranch]
    rfl
  | done =>
    intro fuel rest _ hfuel
    obtain ⟨fuel, rfl⟩ := Nat.exists_eq_succ_of_ne_zero (show fuel ≠ 0 by omega)
    rfl
  | @doneWith e ts he =>
    intro fuel rest _ hfuel
    simp only [List.length_cons, List.length_append, List.length_nil] at hfuel
    obtain ⟨fuel, rfl⟩ := Nat.exists_eq_succ_of_ne_zero (show fuel ≠ 0 by omega)
    have hexpr := he.reads fuel (.sign .semicolon :: rest) (stops_cons (by nofun) _)
      (by simp only [List.length_cons]; omega)
    rw [List.cons_append, List.append_assoc, List.singleton_append, readStmt]
    · rw [hexpr]
      rfl
    · rintro _ hsemicolon
      obtain ⟨l, more, rfl, hl⟩ := he.starts_closed.1
      cases hsemicolon
      cases hl
  | @eval e ts he =>
    intro fuel rest _ hfuel
    simp only [List.length_append, List.length_cons, List.length_nil] at hfuel
    obtain ⟨fuel, rfl⟩ := Nat.exists_eq_succ_of_ne_zero (show fuel ≠ 0 by omega)
    have hexpr := he.reads fuel (.sign .semicolon :: rest) (stops_cons (by nofun) _)
      (by simp only [List.length_cons]; omega)
    obtain ⟨l, more, rfl, hl⟩ := he.starts_closed.1
    rw [List.append_assoc, List.singleton_append, readStmt]
    · rw [hexpr]
      rfl
    all_goals
      intros
      rename_i hkeyword
      rw [(List.cons.inj hkeyword).1] at hl
      exact absurd hl (by decide)

end GuardedConfig.Trigger
