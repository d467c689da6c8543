import GuardedConfig.Proofs.TokenForms

/-!
# `Proofs.TokenCuts` — texts that fall into tokens

A text falls into tokens if each of them has one of the forms of tokens, what stands before it is skipped, and what
stands behind it does not go on with it. Such a text has exactly these tokens; and every text falls into its tokens, if
all of them are legal.

## Contents

* `Cuts`, `Cuts.cons` — the relation of texts and tokens
* `lexemesFrom_of_cuts`, `cuts_lexemesFrom` — it is what the reader of tokens finds
* `lexemes_of_cuts`, `cuts_lexemes` — whole texts
-/

namespace GuardedConfig.Sql

open Text

variable {cs text rest gap : List Char} {c : Char} {kind : LexemeKind} {more : Char → Bool} {ls : List Lexeme}

theorem skipGap_suffix (g : Gap) (cs : List Char) : skipGap g cs <:+ cs := by
  fun_induction skipGap g cs with
  | case1 => exact List.suffix_rfl
  | case2 c rest ih => exact ih.trans (List.suffix_cons _ _)
  | case3 more ih => exact ih.trans ((List.suffix_cons _ _).trans (List.suffix_cons _ _))
  | case4 c rest _ ih => exact ih.trans (List.suffix_cons _ _)
  | case5 more ih => exact ih.trans ((List.suffix_cons _ _).trans (List.suffix_cons _ _))
  | case6 d more ih => exact ih.trans ((List.suffix_cons _ _).trans (List.suffix_cons _ _))
  | case7 c rest _ _ _ ih => exact ih.trans (List.suffix_cons _ _)
  | case8 => exact List.suffix_rfl

/-- A token that begins with a dash is one of two signs. -/
theorem Form.dash (h : Form kind text more) (hdash : text.head? = some '-') : text = ['-'] ∨ text = ['-', '>'] := by
  cases h with
  | string => cases hdash
  | quotedName hquote =>
    cases hdash
    exact absurd hquote (by decide)
  | bracketed => cases hdash
  | number htext =>
    obtain ⟨c, cs, hcs, hc⟩ := htext.begins []
    rw [List.append_nil] at hcs
    rw [hcs] at hdash
    cases hdash
    exact absurd hc (by simp; decide)
  | hexNumber => cases hdash
  | place => cases hdash
  | parameter hmark =>
    cases hdash
    exact absurd hmark (by decide)
  | blob hmark =>
    cases hdash
    exact absurd hmark (by decide)
  | word hstart =>
    cases hdash
    exact absurd hstart (by decide)
  | @doubleSign c d hsign =>
    have hsigns : ∀ sign ∈ doubleSigns, sign.head? = some '-' → sign = ['-', '>'] := by decide
    exact .inr (hsigns _ hsign hdash)
  | sign =>
    cases hdash
    exact .inl rfl

/-- A text that falls into tokens, with blanks and comments before each of them and behind the last one. -/
inductive Cuts : List Char → List Lexeme → Prop where
  | done {cs : List Char} : skipBlanks cs = [] → Cuts cs []
  | token {kind : LexemeKind} {gap text rest : List Char} {more : Char → Bool} {ls : List Lexeme} :
      skipBlanks (gap ++ (text ++ rest)) = text ++ rest → Form kind text more → (∀ c ∈ rest.head?, more c = false) →
      Cuts rest ls → Cuts (gap ++ (text ++ rest)) (⟨kind, gap, text⟩ :: ls)

/-- A token in front of a text that falls into tokens. -/
theorem Cuts.cons (hskip : skipBlanks cs = text ++ rest) (hform : Form kind text more)
    (hstop : ∀ c ∈ rest.head?, more c = false) (h : Cuts rest ls) : ∃ gap, Cuts cs (⟨kind, gap, text⟩ :: ls) := by
  obtain ⟨gap, hgap⟩ := skipGap_suffix .blank cs
  obtain rfl : gap ++ (text ++ rest) = cs := by rw [← hgap, ← hskip]; rfl
  exact ⟨gap, .token hskip hform hstop h⟩

/-- A text at whose front nothing is skipped begins with its first token. -/
theorem Cuts.exists_first (h : Cuts (c :: cs) ls) (hskip : skipBlanks (c :: cs) = c :: cs) :
    ∃ l ls' rest more, ls = l :: ls' ∧ l.gap = [] ∧ l.text.head? = some c ∧ c :: cs = l.text ++ rest ∧
      Form l.kind l.text more ∧ Cuts rest ls' := by
  generalize hcs : c :: cs = whole at h hskip
  cases h with
  | done hdone =>
    rw [hdone] at hskip
    rw [← hskip] at hcs
    cases hcs
  | @token kind gap text rest more ls hstart hform hstop htail =>
    obtain rfl : gap = [] := by
      have hlength := congrArg List.length (hskip.symm.trans hstart)
      rw [List.length_append] at hlength
      exact List.length_eq_zero_iff.1 (by omega)
    have hcs : c :: cs = text ++ rest := hcs
    have hhead : text.head? = some c := by
      rw [← List.head?_append_of_ne_nil text hform.ne_nil, ← hcs]
      rfl
    exact ⟨_, _, rest, more, rfl, rfl, hhead, rfl, hform, htail⟩

/-- Behind what is skipped there is no comment. -/
theorem head?_of_skipGap {g : Gap} (h : skipGap g cs = '-' :: rest) : rest.head? ≠ some '-' := by
  fun_induction skipGap g cs with
  | case1 => cases h
  | case2 c rest ih => exact ih h
  | case3 more ih => exact ih h
  | case4 c rest _ ih => exact ih h
  | case5 more ih => exact ih h
  | case6 d more ih => exact ih h
  | case7 c rest _ _ _ ih => exact ih h
  | case8 c cs hline _ _ =>
    obtain ⟨rfl, rfl⟩ := List.cons.inj h
    intro hhead
    obtain ⟨more, hmore⟩ := List.head?_eq_some_iff.1 hhead
    exact hline more rfl hmore

/-! ## What is read -/

/-- What is read of a text that falls into tokens. -/
theorem lexemesFrom_of_cuts (h : Cuts cs ls) {fuel : Nat} (hfuel : cs.length < fuel) : lexemesFrom fuel cs = ls := by
  induction h generalizing fuel with
  | done hskip =>
    cases fuel with
    | zero => rfl
    | succ fuel =>
      rw [lexemesFrom]
      dsimp only
      rw [hskip]
  | @token kind gap text rest more ls hskip hform hstop htail ih =>
    cases fuel with
    | zero => cases hfuel
    | succ fuel =>
      have hlength := List.length_pos_iff.2 hform.ne_nil
      simp only [List.length_append] at hfuel
      rw [lexemesFrom_step hskip hform.ne_nil (nextLexeme_of_form hform hstop) hform.legal, ih (by omega)]

/-- A text whose tokens are all legal falls into them. -/
theorem cuts_lexemesFrom {fuel : Nat} (hfuel : cs.length < fuel)
    (hlegal : ∀ l ∈ lexemesFrom fuel cs, l.kind ≠ .illegal) : Cuts cs (lexemesFrom fuel cs) := by
  induction fuel generalizing cs with
  | zero => cases hfuel
  | succ fuel ih =>
    obtain ⟨gap, hgap⟩ := skipGap_suffix .blank cs
    have hgap : cs = gap ++ skipBlanks cs := hgap.symm
    by_cases hdone : skipBlanks cs = []
    · have hnone : lexemesFrom (fuel + 1) cs = [] := by
        rw [lexemesFrom]
        dsimp only
        rw [hdone]
      rw [hnone]
      exact .done hdone
    · generalize hstart : skipBlanks cs = start at hgap hdone
      cases hnext : nextLexeme start with | mk kind rest =>
      by_cases hkind : kind = .illegal
      · refine absurd ?_ (hlegal ⟨kind, cs.take (cs.length - start.length), start.take (start.length - rest.length)⟩ ?_)
        · exact hkind
        · obtain ⟨d, ds, hd⟩ := List.exists_cons_of_ne_nil hdone
          rw [lexemesFrom]
          dsimp only
          rw [hstart, hd]
          dsimp only
          rw [← hd, hnext]
          dsimp only
          rw [if_pos hkind]
          exact List.mem_singleton_self _
      · obtain ⟨text, more, rfl, hform, hstop⟩ := exists_form hnext hkind
        subst hgap
        have hlength := List.length_pos_iff.2 hform.ne_nil
        simp only [List.length_append] at hfuel
        rw [lexemesFrom_step hstart hform.ne_nil hnext hkind] at hlegal ⊢
        exact .token hstart hform hstop (ih (by omega) (List.forall_mem_cons.1 hlegal).2)

/-! ## Whole texts -/

/-- A token without what stands before it. -/
def Lexeme.token (l : Lexeme) : LexemeKind × List Char := (l.kind, l.text)

/-- The tokens of a text. -/
def tokens (text : String) : List (LexemeKind × List Char) := (lexemes text).map Lexeme.token

/-- The text up to a NUL, which is all that is read. -/
def readable (text : String) : List Char := text.toList.takeWhile (·.toNat != 0)

theorem lexemes_of_cuts {text : String} (h : Cuts (readable text) ls) : lexemes text = ls :=
  lexemesFrom_of_cuts h (Nat.lt_succ_self _)

theorem cuts_lexemes {text : String} (hlegal : ∀ l ∈ lexemes text, l.kind ≠ .illegal) :
    Cuts (readable text) (lexemes text) :=
  cuts_lexemesFrom (Nat.lt_succ_self _) hlegal

end GuardedConfig.Sql
