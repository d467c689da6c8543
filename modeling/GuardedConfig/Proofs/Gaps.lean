import GuardedConfig.Proofs.Literals
import GuardedConfig.Proofs.TokenCuts
import GuardedConfig.Proofs.WholeWords

/-!
# `Proofs.Gaps` — substitution in blanks and comments

Substitution also replaces words in comments. But what it puts in has none of the characters that end a line, and none
of those that begin or end a comment between its signs. So a comment is still a comment, as long as no two dashes come
to stand next to each other behind it, and what is skipped with substitution is what is skipped without.

## Contents

* `substituteFrom_takeWhile`, `head?_substituteFrom` — the run at the front
* `skipGap_line`, `skipGap_block`, `skipBlanks_cons`, `skipBlanks_word` — what is skipped
* `MarksApart`, `skipGap_substituteFrom`
-/

namespace GuardedConfig

open Text Sql

namespace Field

/-! ## Substitution and gaps -/

theorem isNameChar_of_isWord {c : Char} (h : isWord c = true) : isNameChar c = true := by
  unfold isWord at h
  unfold isNameChar
  split at h
  · simp only [Bool.or_eq_true] at h ⊢
    exact .inl (.inl h)
  · have hlarge : 128 ≤ c.toNat := by omega
    simp [hlarge]

theorem isWord_of_isAsciiDigit {c : Char} (h : isAsciiDigit c = true) : isWord c = true := by
  have hsmall : c.toNat < 128 := by
    simp only [isAsciiDigit, Bool.and_eq_true, decide_eq_true_eq] at h
    have hle : c.toNat ≤ 57 := h.2
    omega
  simp [isWord, hsmall, h]

theorem isLiteralChar_ne {c : Char} (h : isLiteralChar c = true) : c ≠ '\n' ∧ c ≠ '*' ∧ c ≠ '/' := by
  refine ⟨?_, ?_, ?_⟩ <;> rintro rfl <;> exact absurd h (by decide)

variable {placeholder literal run cs : List Char} {c : Char}

theorem substituteFrom_cons (hne : placeholder ≠ []) (hc : isWord c = false) :
    substituteFrom placeholder literal [] (c :: cs) = c :: substituteFrom placeholder literal [] cs := by
  rw [substituteFrom, if_neg (by simp [hc]), replaceRun_nil hne, List.nil_append]

/-- The run at the front of a text is substituted on its own. -/
theorem substituteFrom_takeWhile (hne : placeholder ≠ []) (cs : List Char) :
    substituteFrom placeholder literal [] cs =
      replacePiece placeholder literal (cs.takeWhile isWord) ++
        substituteFrom placeholder literal [] (cs.dropWhile isWord) := by
  have happend : substituteFrom placeholder literal [] (cs.takeWhile isWord ++ cs.dropWhile isWord) = _ :=
    substituteFrom_append hne (.inr (head?_dropWhile isWord cs))
  rwa [List.takeWhile_append_dropWhile, substituteFrom_run fun c hc => List.mem_takeWhile_imp hc] at happend

/-- A text begins with the literal if a run at its front is the placeholder, and otherwise as before. -/
theorem head?_substituteFrom (hne : placeholder ≠ []) (hliteral : literal ≠ []) (cs : List Char) :
    (substituteFrom placeholder literal [] cs).head? =
      if cs.takeWhile isWord = placeholder then literal.head? else cs.head? := by
  rw [substituteFrom_takeWhile hne, replacePiece]
  split
  · rw [List.head?_append_of_ne_nil _ hliteral]
  · cases cs with
    | nil => rw [List.takeWhile_nil, List.dropWhile_nil, List.nil_append, substituteFrom, replaceRun_nil hne]
    | cons c cs =>
      cases hc : isWord c with
      | true => rw [List.takeWhile_cons_of_pos hc]; rfl
      | false =>
        have hneg : ¬ isWord c = true := by simp [hc]
        rw [List.takeWhile_cons_of_neg hneg, List.dropWhile_cons_of_neg hneg, List.nil_append,
          substituteFrom_cons hne hc]
        rfl

/-- A character that is in no literal begins a text only if it did before. -/
theorem head?_of_substituteFrom (hne : placeholder ≠ []) (hliteralNe : literal ≠ [])
    (hliteral : ∀ c ∈ literal, isLiteralChar c = true) (hc : isLiteralChar c = false)
    (h : (substituteFrom placeholder literal [] cs).head? = some c) : cs.head? = some c := by
  rw [head?_substituteFrom hne hliteralNe] at h
  split at h
  · rw [hliteral c (List.mem_of_head? h)] at hc
    cases hc
  · exact h

/-- A run or the literal in its place has no signs of comments and lines. -/
theorem isLiteralChar_replaceRun (hliteral : ∀ c ∈ literal, isLiteralChar c = true)
    (hrun : ∀ c ∈ run, isWord c = true) :
    ∀ c ∈ replaceRun placeholder literal run, isLiteralChar c = true := by
  unfold replaceRun
  split
  · exact hliteral
  · exact fun c hc => isLiteralChar_of_name (isNameChar_of_isWord (hrun c (List.mem_reverse.1 hc)))

/-! ### Skipping -/

theorem skipGap_line {front : List Char} (hfront : ∀ c ∈ front, c ≠ '\n') (cs : List Char) :
    skipGap .line (front ++ cs) = skipGap .line cs := by
  induction front with
  | nil => rfl
  | cons c front ih =>
    obtain ⟨hc, hfront⟩ := List.forall_mem_cons.1 hfront
    rw [List.cons_append, skipGap, if_neg hc, ih hfront]

/-- Inside a comment a character is skipped, unless it begins the sign that closes the comment. -/
theorem skipGap_block_cons (h : c = '*' → cs.head? ≠ some '/') : skipGap .block (c :: cs) = skipGap .block cs := by
  rw [skipGap]
  rintro more rfl rfl
  exact h rfl rfl

theorem skipGap_block {front : List Char} (hfront : ∀ c ∈ front, c ≠ '*') (cs : List Char) :
    skipGap .block (front ++ cs) = skipGap .block cs := by
  induction front with
  | nil => rfl
  | cons c front ih =>
    obtain ⟨hc, hfront⟩ := List.forall_mem_cons.1 hfront
    rw [List.cons_append, skipGap_block_cons fun h => absurd h hc, ih hfront]

theorem skipGap_blank (h : (isSpace c || c == '\ufeff') = true) : skipGap .blank (c :: cs) = skipGap .blank cs := by
  rw [skipGap, if_pos h]
  · rintro more rfl
    exact absurd h (by decide)
  · rintro d more rfl
    exact absurd h (by decide)

/-- Nothing is skipped before a character that is no blank and begins no comment. -/
theorem skipBlanks_cons (hblank : ¬ (isSpace c || c == '\ufeff') = true) (hline : ∀ more, c = '-' → cs ≠ '-' :: more)
    (hblock : ∀ d more, c = '/' → cs ≠ '*' :: d :: more) : skipBlanks (c :: cs) = c :: cs := by
  rw [skipBlanks, skipGap, if_neg hblank]
  · exact fun more hc hcs => hline more hc hcs
  · exact fun d more hc hcs => hblock d more hc hcs

/-- A byte-order mark, which counts as a blank before a token, is no word character. -/
def MarksApart (cs : List Char) : Prop := ∀ c ∈ cs, c = '\ufeff' → isWord c = false

instance (cs : List Char) : Decidable (MarksApart cs) :=
  inferInstanceAs (Decidable (∀ c ∈ cs, c = '\ufeff' → isWord c = false))

theorem MarksApart.tail (h : MarksApart (c :: cs)) : MarksApart cs := (List.forall_mem_cons.1 h).2

theorem MarksApart.right {front : List Char} (h : MarksApart (front ++ cs)) : MarksApart cs :=
  (List.forall_mem_append.1 h).2

theorem isWord_of_blank (h : (isSpace c || c == '\ufeff') = true) (hmark : c = '\ufeff' → isWord c = false) :
    isWord c = false := by
  simp only [isSpace, Bool.or_eq_true, Bool.and_eq_true, beq_iff_eq, decide_eq_true_eq] at h
  obtain (rfl | ⟨hlow, hhigh⟩) | hbom := h
  · decide
  · have hnone : ∀ n ∈ [9, 10, 11, 12, 13], isWord (Char.ofNat n) = false := by decide
    rw [← Char.ofNat_toNat c]
    exact hnone c.toNat (by simp only [List.mem_cons]; omega)
  · exact hmark hbom

/-- Nothing is skipped before a word. -/
theorem skipBlanks_word (hc : isWord c = true) (hmark : c = '\ufeff' → isWord c = false) (cs : List Char) :
    skipBlanks (c :: cs) = c :: cs := by
  refine skipBlanks_cons ?_ ?_ ?_
  · intro hblank
    rw [isWord_of_blank hblank hmark] at hc
    cases hc
  · rintro more rfl
    exact absurd hc (by decide)
  · rintro d more rfl
    exact absurd hc (by decide)

/-- What is skipped with substitution is what is skipped without, if the text behind it does not begin with two dashes
then. The induction is on the text that is skipped, and `run` is the run that is being read. -/
theorem skipGap_substituteFrom (hplaceholder : placeholder ≠ []) (hne : literal ≠ [])
    (hliteral : ∀ c ∈ literal, isLiteralChar c = true) (hstays : ∀ cs, skipBlanks (literal ++ cs) = literal ++ cs)
    (g : Gap) (cs : List Char) (hmarks : MarksApart cs)
    (hdash : ∀ more, skipGap g cs = '-' :: more → (substituteFrom placeholder literal [] more).head? ≠ some '-')
    (hrun : ∀ c ∈ run, isWord c = true) (hg : g = .blank → run = []) :
    skipGap g (substituteFrom placeholder literal run cs) =
      substituteFrom placeholder literal [] (skipGap g cs) := by
  have hreplaced : ∀ {run : List Char}, (∀ c ∈ run, isWord c = true) →
      ∀ c ∈ replaceRun placeholder literal run, c ≠ '\n' ∧ c ≠ '*' ∧ c ≠ '/' :=
    fun hrun c hc => isLiteralChar_ne (isLiteralChar_replaceRun hliteral hrun c hc)
  have hnone : substituteFrom placeholder literal [] [] = [] := by rw [substituteFrom, replaceRun_nil hplaceholder]
  fun_induction skipGap g cs generalizing run with
  | case1 g =>
    rw [hnone, substituteFrom, ← List.append_nil (replaceRun _ _ _)]
    cases g with
    | blank => rw [hg rfl, replaceRun_nil hplaceholder]; rfl
    | line => exact skipGap_line (fun c hc => (hreplaced hrun c hc).1) []
    | block => exact skipGap_block (fun c hc => (hreplaced hrun c hc).2.1) []
  | case2 c rest ih =>
    have hmarks := hmarks.tail
    rw [substituteFrom]
    split
    · rename_i hc
      have hline : c ≠ '\n' := by rintro rfl; exact absurd hc (by decide)
      rw [if_neg hline] at hdash ih ⊢
      exact ih hmarks hdash (List.forall_mem_cons.2 ⟨hc, hrun⟩) Gap.noConfusion
    · rw [skipGap_line fun c hc => (hreplaced hrun c hc).1, skipGap]
      exact ih hmarks hdash (List.forall_mem_nil _) fun _ => rfl
  | case3 more ih =>
    have hmarks := hmarks.tail.tail
    rw [substituteFrom, if_neg (by decide), substituteFrom_cons hplaceholder (by decide),
      skipGap_block fun c hc => (hreplaced hrun c hc).2.1, skipGap]
    exact ih hmarks hdash (List.forall_mem_nil _) fun _ => rfl
  | case4 c rest hclose ih =>
    -- what is put in has no '/', so a comment that a star goes on with does not end behind it
    have hmarks := hmarks.tail
    rw [substituteFrom]
    split
    · rename_i hc
      exact ih hmarks hdash (List.forall_mem_cons.2 ⟨hc, hrun⟩) Gap.noConfusion
    · rw [skipGap_block fun c hc => (hreplaced hrun c hc).2.1, skipGap_block_cons]
      · exact ih hmarks hdash (List.forall_mem_nil _) fun _ => rfl
      · rintro rfl hhead
        obtain ⟨more, rfl⟩ := List.head?_eq_some_iff.1
          (head?_of_substituteFrom hplaceholder hne hliteral (by decide) hhead)
        exact hclose more rfl rfl
  | case5 more ih =>
    have hmarks := hmarks.tail.tail
    obtain rfl := hg rfl
    rw [substituteFrom_cons hplaceholder (by decide), substituteFrom_cons hplaceholder (by decide), skipGap]
    exact ih hmarks hdash (List.forall_mem_nil _) fun _ => rfl
  | case6 d more ih =>
    have hmarks := hmarks.tail.tail
    obtain rfl := hg rfl
    rw [substituteFrom_cons hplaceholder (by decide), substituteFrom_cons hplaceholder (by decide)]
    have ih := @ih [] hmarks hdash (List.forall_mem_nil _) fun _ => rfl
    -- the comment has a character, also after substitution
    cases hsub : substituteFrom placeholder literal [] (d :: more) with
    | nil =>
      have hhead := head?_substituteFrom hplaceholder hne (d :: more)
      rw [hsub] at hhead
      split at hhead
      · exact absurd (List.head?_eq_none_iff.1 hhead.symm) hne
      · cases hhead
    | cons e rest =>
      rw [hsub] at ih
      exact ih
  | case7 c rest hline hblock hblank ih =>
    obtain rfl := hg rfl
    rw [substituteFrom_cons hplaceholder (isWord_of_blank hblank (hmarks c List.mem_cons_self)), skipGap_blank hblank]
    exact ih hmarks.tail hdash (List.forall_mem_nil _) fun _ => rfl
  | case8 c rest hline hblock hblank =>
    -- a token begins here, and it must not become the beginning of a comment
    obtain rfl := hg rfl
    cases hc : isWord c with
    | true =>
      rw [substituteFrom_takeWhile hplaceholder, List.takeWhile_cons_of_pos hc, replacePiece]
      split
      · exact hstays _
      · exact skipBlanks_word hc (hmarks c List.mem_cons_self) _
    | false =>
      rw [substituteFrom_cons hplaceholder hc]
      refine skipBlanks_cons hblank ?_ ?_
      · rintro more rfl hsub
        refine hdash rest rfl ?_
        rw [hsub]
        rfl
      · rintro d more rfl hsub
        obtain ⟨behind, rfl⟩ := List.head?_eq_some_iff.1
          (head?_of_substituteFrom (c := '*') hplaceholder hne hliteral (by decide) (by rw [hsub]; rfl))
        cases behind with
        | nil => rw [substituteFrom_cons hplaceholder (by decide), hnone] at hsub; cases hsub
        | cons e behind => exact hblock e behind rfl rfl

end Field

end GuardedConfig
