import GuardedConfig.Schema.Naming
import GuardedConfig.Sql.Lexeme
import Mathlib.Tactic.ByContra

/-!
# `Proofs.Lexing` — text that is cut into the tokens it was made of

A text is the tokens with what stands before each of them. It is cut into these tokens again if each of them can be
recognized by itself and is not continued by what follows: after a word or a quoted name there is a blank, a
parenthesis or a comma.

## Contents

* `charsOf` — the text of tokens
* `Lexeme.Neat`, `Neatly`, `lexemesFrom_charsOf` — by induction on the tokens
* `neat_word`, `neat_quotedName`, `neat_sign` — the tokens of definitions
* `NulFree`, `lexemes_eq`, `lexemes_cut` — whole texts, and those that a NUL cuts off
-/

namespace GuardedConfig.Sql

open Schema Text

/-! ## Tokens and their text -/

/-- The characters of tokens, with what stands before them. -/
def charsOf (ls : List Lexeme) : List Char := ls.flatMap fun l => l.gap ++ l.text

@[simp] theorem charsOf_nil : charsOf [] = [] := rfl

@[simp] theorem charsOf_cons (l : Lexeme) (ls : List Lexeme) : charsOf (l :: ls) = l.gap ++ (l.text ++ charsOf ls) :=
  List.append_assoc ..

@[simp] theorem charsOf_append (ls ms : List Lexeme) : charsOf (ls ++ ms) = charsOf ls ++ charsOf ms :=
  List.flatMap_append ..

/-- What holds of the characters of a text is decided one character after the other, not over all characters. -/
instance (priority := high) decidableForallMemText (p : Char → Prop) [DecidablePred p] (cs : List Char) : Decidable (∀ c ∈ cs, p c) :=
  List.decidableBAll p cs

/-- What follows a word or a quoted name and is no part of it. -/
def Separated (cs : List Char) : Prop := ∀ c, cs.head? = some c → c ∈ [' ', '\n', '(', ')', ',']

theorem separated_cons {c : Char} (h : c ∈ [' ', '\n', '(', ')', ',']) (cs : List Char) : Separated (c :: cs) := by
  intro d hd
  cases hd
  exact h

/-- A token that is recognized by itself, with blanks before it. -/
structure Lexeme.Neat (l : Lexeme) : Prop where
  kind : l.kind ≠ .illegal
  gap : ∀ c ∈ l.gap, isSpace c = true
  begins : ∃ c cs, l.text = c :: cs ∧ isSpace c = false ∧ c ≠ '\ufeff' ∧ c ≠ '-' ∧ c ≠ '/'
  next : ∀ rest, l.kind = .sign ∨ Separated rest → nextLexeme (l.text ++ rest) = (l.kind, rest)

/-- Tokens that are recognized by themselves and not continued by what follows, which is `tail` in the end. -/
def Neatly : List Lexeme → List Char → Prop
  | [], _ => True
  | l :: ls, tail => l.Neat ∧ (l.kind = .sign ∨ Separated (charsOf ls ++ tail)) ∧ Neatly ls tail

theorem neatly_append {ls ms : List Lexeme} {tail : List Char} :
    Neatly (ls ++ ms) tail ↔ Neatly ls (charsOf ms ++ tail) ∧ Neatly ms tail := by
  induction ls with
  | nil => exact ⟨fun h => ⟨trivial, h⟩, And.right⟩
  | cons l ls ih =>
    rw [List.cons_append, Neatly, Neatly, ih, charsOf_append, List.append_assoc, and_assoc, and_assoc]

theorem skipGap_spaces {gap : List Char} (hgap : ∀ c ∈ gap, isSpace c = true) {c : Char} (hc : isSpace c = false)
    (hbom : c ≠ '\ufeff') (hdash : c ≠ '-') (hslash : c ≠ '/') (rest : List Char) :
    skipGap .blank (gap ++ c :: rest) = c :: rest := by
  induction gap with
  | nil =>
    rw [List.nil_append, skipGap]
    · simp [hc, hbom]
    · exact fun _ h => absurd h hdash
    · exact fun _ _ h => absurd h hslash
  | cons b gap ih =>
    have hb := hgap b (List.mem_cons_self ..)
    have ih := ih fun d hd => hgap d (List.mem_cons_of_mem _ hd)
    rw [List.cons_append, skipGap]
    · simp only [hb, Bool.true_or, if_true]
      exact ih
    · rintro _ rfl
      exact absurd hb (by decide)
    · rintro _ _ rfl
      exact absurd hb (by decide)

/-- One token is read, and then the text behind it. -/
theorem lexemesFrom_step {kind : LexemeKind} {gap text rest : List Char}
    (hskip : skipBlanks (gap ++ (text ++ rest)) = text ++ rest) (hne : text ≠ [])
    (hnext : nextLexeme (text ++ rest) = (kind, rest)) (hkind : kind ≠ .illegal) (fuel : Nat) :
    lexemesFrom (fuel + 1) (gap ++ (text ++ rest)) = ⟨kind, gap, text⟩ :: lexemesFrom fuel rest := by
  have hgap : (gap ++ (text ++ rest)).take ((gap ++ (text ++ rest)).length - (text ++ rest).length) = gap := by
    rw [List.length_append, Nat.add_sub_cancel, List.take_left]
  have htake : (text ++ rest).take ((text ++ rest).length - rest.length) = text := by
    rw [List.length_append, Nat.add_sub_cancel, List.take_left]
  rw [lexemesFrom]
  dsimp only
  rw [hskip, hgap]
  cases hstart : text ++ rest with
  | nil => exact absurd (List.append_eq_nil_iff.1 hstart).1 hne
  | cons d ds =>
    dsimp only
    rw [← hstart, hnext]
    dsimp only
    rw [htake, if_neg hkind]

/-- The first token of a text. -/
theorem lexemesFrom_cons {l : Lexeme} (h : l.Neat) {rest : List Char} (hrest : l.kind = .sign ∨ Separated rest)
    (fuel : Nat) : lexemesFrom (fuel + 1) (l.gap ++ (l.text ++ rest)) = l :: lexemesFrom fuel rest := by
  obtain ⟨c, cs, htext, hspace, hbom, hdash, hslash⟩ := h.begins
  have hskip : skipBlanks (l.gap ++ (l.text ++ rest)) = l.text ++ rest := by
    rw [htext]
    exact skipGap_spaces h.gap hspace hbom hdash hslash _
  exact lexemesFrom_step hskip (by rw [htext]; exact List.cons_ne_nil c cs) (h.next rest hrest) h.kind fuel

/-- **A text is cut into the tokens it was made of**, and then the rest of it is cut. -/
theorem lexemesFrom_charsOf {ls : List Lexeme} {tail : List Char} (h : Neatly ls tail) (fuel : Nat) :
    lexemesFrom (ls.length + fuel) (charsOf ls ++ tail) = ls ++ lexemesFrom fuel tail := by
  induction ls with
  | nil => rw [List.length_nil, Nat.zero_add, charsOf_nil, List.nil_append, List.nil_append]
  | cons l ls ih =>
    obtain ⟨hl, hsep, hls⟩ := h
    have hfuel : (l :: ls).length + fuel = (ls.length + fuel) + 1 := by
      rw [List.length_cons]
      omega
    rw [hfuel, charsOf_cons, List.append_assoc, List.append_assoc, lexemesFrom_cons hl hsep, ih hls, List.cons_append]

theorem lexemesFrom_nil (fuel : Nat) : lexemesFrom fuel [] = [] := by
  cases fuel <;> rfl

/-! ## Words -/

/-- Whether a text is a bare word: an ASCII letter that does not begin a blob, and then characters of a name. -/
def isBareWord (text : List Char) : Bool :=
  match text with
  | [] => false
  | c :: cs => isAsciiLetter c && c != 'x' && c != 'X' && cs.all isNameChar

theorem isNameChar_of_separator {c : Char} (h : c ∈ [' ', '\n', '(', ')', ',']) : isNameChar c = false := by
  simp only [List.mem_cons, List.not_mem_nil, or_false] at h
  rcases h with rfl | rfl | rfl | rfl | rfl <;> decide

/-- What an ASCII letter is not. -/
theorem isAsciiLetter_ne {c : Char} (h : isAsciiLetter c = true) :
    isSpace c = false ∧ isAsciiDigit c = false ∧
      c ∉ ['\'', '"', Char.ofNat 96, '[', '.', '?', ':', '@', '$', '#', '-', '/', '\ufeff'] := by
  have hn := toNat_of_isAsciiLetter h
  refine ⟨?_, ?_, fun hmem => ?_⟩
  · rw [Bool.eq_false_iff]
    intro hs
    simp only [isSpace, Bool.or_eq_true, Bool.and_eq_true, decide_eq_true_eq, beq_iff_eq] at hs
    rcases hs with rfl | hs
    · exact absurd h (by decide)
    · omega
  · rw [Bool.eq_false_iff]
    intro hd
    simp only [isAsciiDigit, Bool.and_eq_true, decide_eq_true_eq, Char.le_def, UInt32.le_iff_toNat_le] at hd
    have hd' : c.toNat ≤ 57 := hd.2
    omega
  · have hnone : ∀ d ∈ ['\'', '"', Char.ofNat 96, '[', '.', '?', ':', '@', '$', '#', '-', '/', '\ufeff'],
        isAsciiLetter d = false := by decide
    rw [hnone c hmem] at h
    cases h

theorem dropWhile_append_separated {cs rest : List Char} (h : cs.all isNameChar = true) (hr : Separated rest) :
    (cs ++ rest).dropWhile isNameChar = rest := by
  induction cs with
  | nil =>
    cases rest with
    | nil => rfl
    | cons c rest => exact List.dropWhile_cons_of_neg (by simp [isNameChar_of_separator (hr c rfl)])
  | cons c cs ih =>
    rw [List.all_cons, Bool.and_eq_true] at h
    rw [List.cons_append, List.dropWhile_cons_of_pos h.1]
    exact ih h.2

theorem isNameChar_of_isBareWord {cs : List Char} (h : isBareWord cs = true) : ∀ c ∈ cs, isNameChar c = true := by
  cases cs with
  | nil => cases h
  | cons c cs =>
    simp only [isBareWord, Bool.and_eq_true, List.all_eq_true] at h
    exact List.forall_mem_cons.2 ⟨by simp [isNameChar, h.1.1.1], h.2⟩

/-- A bare word between blanks is a token. -/
theorem neat_word {gap text : List Char} (hgap : ∀ c ∈ gap, isSpace c = true) (h : isBareWord text = true) :
    (Lexeme.mk .word gap text).Neat := by
  cases text with
  | nil => cases h
  | cons c cs =>
    simp only [isBareWord, Bool.and_eq_true, bne_iff_ne] at h
    obtain ⟨⟨⟨hc, hx⟩, hX⟩, hcs⟩ := h
    obtain ⟨hspace, hdigit, hnot⟩ := isAsciiLetter_ne hc
    simp only [List.mem_cons, List.not_mem_nil, or_false, not_or] at hnot
    obtain ⟨h1, h2, h3, h4, h5, h6, h7, h8, h9, h10, h11, h12, h13⟩ := hnot
    have hstart : isNameStart c = true := by simp [isNameStart, hc]
    refine ⟨LexemeKind.noConfusion, hgap, ⟨c, cs, rfl, hspace, h13, h11, h12⟩, fun rest hrest => ?_⟩
    have hsep : Separated rest := hrest.resolve_left LexemeKind.noConfusion
    show nextLexeme (c :: (cs ++ rest)) = _
    unfold nextLexeme
    simp [h1, h2, h3, h4, h5, h6, h7, h8, h9, h10, hx, hX, hdigit, hstart, dropWhile_append_separated hcs hsep]

/-! ## Quoted names and signs -/

theorem takeQuoted_of_ne {quote c : Char} (h : c ≠ quote) (rest : List Char) :
    takeQuoted quote (c :: rest) = (takeQuoted quote rest).map fun (s, r) => (c :: s, r) := by
  rw [takeQuoted.eq_def]
  dsimp only
  rw [if_neg h]

theorem takeQuoted_doubled (quote : Char) (rest : List Char) :
    takeQuoted quote (quote :: quote :: rest) = (takeQuoted quote rest).map fun (s, r) => (quote :: s, r) := by
  rw [takeQuoted.eq_def]
  dsimp only
  rw [if_pos rfl, if_pos rfl]

theorem takeQuoted_closed {quote : Char} {rest : List Char} (h : rest.head? ≠ some quote) :
    takeQuoted quote (quote :: rest) = some ([], rest) := by
  rw [takeQuoted.eq_def]
  dsimp only
  rw [if_pos rfl]
  cases rest with
  | nil => rfl
  | cons c rest =>
    dsimp only
    rw [if_neg fun hc => h (congrArg some hc)]

/-- A name in quotes ends at its closing quote. -/
theorem takeQuoted_doubleQuotes (cs : List Char) {rest : List Char} (h : Separated rest) :
    takeQuoted '"' (doubleQuotes cs ++ '"' :: rest) = some (cs, rest) := by
  induction cs with
  | nil =>
    have hhead : rest.head? ≠ some '"' := fun hc => absurd (h _ hc) (by decide)
    exact takeQuoted_closed hhead
  | cons c cs ih =>
    rw [doubleQuotes]
    split
    · rename_i hc
      rw [List.cons_append, List.cons_append, takeQuoted_doubled, ih, hc]
      rfl
    · rename_i hc
      rw [List.cons_append, takeQuoted_of_ne hc, ih]
      rfl

/-- A name whose quotes are not closed is no token. -/
theorem takeQuoted_unclosed (cs : List Char) : takeQuoted '"' (doubleQuotes cs) = none := by
  induction cs with
  | nil => rfl
  | cons c cs ih =>
    rw [doubleQuotes]
    split
    · rw [takeQuoted_doubled, ih]
      rfl
    · rename_i hc
      rw [takeQuoted_of_ne hc, ih]
      rfl

theorem toList_quoteName (name : String) : (quoteName name).toList = '"' :: (doubleQuotes name.toList ++ ['"']) :=
  String.toList_ofList

theorem neat_quotedName {gap : List Char} (hgap : ∀ c ∈ gap, isSpace c = true) (name : String) :
    (Lexeme.mk (.quotedName name true) gap (quoteName name).toList).Neat := by
  refine ⟨nofun, hgap, ⟨'"', _, toList_quoteName name, by decide, by decide, by decide, by decide⟩,
    fun rest hrest => ?_⟩
  have hsep : Separated rest := hrest.resolve_left nofun
  show nextLexeme ((quoteName name).toList ++ rest) = _
  rw [toList_quoteName, List.cons_append, List.append_assoc, List.singleton_append]
  unfold nextLexeme
  simp [takeQuoted_doubleQuotes _ hsep]

theorem neat_sign {gap : List Char} (hgap : ∀ c ∈ gap, isSpace c = true) {c : Char} (hc : c ∈ ['(', ')', ',']) :
    (Lexeme.mk .sign gap [c]).Neat := by
  simp only [List.mem_cons, List.not_mem_nil, or_false] at hc
  rcases hc with rfl | rfl | rfl
  all_goals
    refine ⟨nofun, hgap, ⟨_, [], rfl, by decide, by decide, by decide, by decide⟩, fun rest _ => ?_⟩
    rw [List.singleton_append]
    cases rest <;> rfl

/-! ## NUL -/

/-- Text without NUL, which would end it. -/
def NulFree (cs : List Char) : Prop := ∀ c ∈ cs, c.toNat ≠ 0

instance (cs : List Char) : Decidable (NulFree cs) := inferInstanceAs (Decidable (∀ c ∈ cs, c.toNat ≠ 0))

theorem nulFree_nil : NulFree [] := fun _ hc => absurd hc List.not_mem_nil

theorem nulFree_append {as bs : List Char} : NulFree (as ++ bs) ↔ NulFree as ∧ NulFree bs :=
  List.forall_mem_append

theorem mem_doubleQuotes {c : Char} {cs : List Char} (h : c ∈ doubleQuotes cs) : c ∈ cs := by
  induction cs with
  | nil => exact h
  | cons d cs ih =>
    rw [doubleQuotes] at h
    split at h
    · rename_i hd
      rcases List.mem_cons.1 h with rfl | h
      · exact List.mem_cons.2 (.inl hd.symm)
      · rcases List.mem_cons.1 h with rfl | h
        · exact List.mem_cons.2 (.inl hd.symm)
        · exact List.mem_cons_of_mem _ (ih h)
    · rcases List.mem_cons.1 h with rfl | h
      · exact List.mem_cons_self ..
      · exact List.mem_cons_of_mem _ (ih h)

theorem nulFree_quoteName {name : String} (h : NulFree name.toList) : NulFree (quoteName name).toList := by
  rw [toList_quoteName]
  intro c hc
  rcases List.mem_cons.1 hc with rfl | hc
  · decide
  · rcases List.mem_append.1 hc with hc | hc
    · exact h c (mem_doubleQuotes hc)
    · rw [List.mem_singleton.1 hc]
      decide

theorem nulFree_of_isBareWord {cs : List Char} (h : isBareWord cs = true) : NulFree cs := by
  intro c hc hzero
  have hname := isNameChar_of_isBareWord h c hc
  rw [← Char.ofNat_toNat c, hzero] at hname
  exact absurd hname (by decide)

theorem nulFree_charsOf {ls : List Lexeme} : NulFree (charsOf ls) ↔ ∀ l ∈ ls, NulFree l.gap ∧ NulFree l.text := by
  unfold charsOf NulFree
  rw [List.forall_mem_flatMap]
  exact forall₂_congr fun l _ => List.forall_mem_append

/-- The first NUL of a text. -/
theorem exists_first_nul {cs : List Char} (h : ¬ NulFree cs) :
    ∃ front nul back, cs = front ++ nul :: back ∧ NulFree front ∧ nul.toNat = 0 := by
  induction cs with
  | nil => exact absurd nulFree_nil h
  | cons c cs ih =>
    by_cases hc : c.toNat = 0
    · exact ⟨[], c, cs, rfl, nulFree_nil, hc⟩
    · have hcs : ¬ NulFree cs := fun hcs => h fun d hd => by
        rcases List.mem_cons.1 hd with rfl | hd
        · exact hc
        · exact hcs d hd
      obtain ⟨front, nul, back, rfl, hfront, hzero⟩ := ih hcs
      refine ⟨c :: front, nul, back, rfl, fun d hd => ?_, hzero⟩
      rcases List.mem_cons.1 hd with rfl | hd
      · exact hc
      · exact hfront d hd

theorem doubleQuotes_append (as bs : List Char) : doubleQuotes (as ++ bs) = doubleQuotes as ++ doubleQuotes bs := by
  induction as with
  | nil => rfl
  | cons c as ih =>
    rw [List.cons_append, doubleQuotes, doubleQuotes, ih]
    split <;> rfl

theorem length_le_charsOf {ls : List Lexeme} {tail : List Char} (h : Neatly ls tail) : ls.length ≤ (charsOf ls).length := by
  induction ls with
  | nil => exact Nat.le_refl _
  | cons l ls ih =>
    obtain ⟨hl, -, hls⟩ := h
    obtain ⟨c, cs, htext, -⟩ := hl.begins
    have := ih hls
    rw [charsOf_cons, htext]
    simp only [List.length_append, List.length_cons]
    omega

/-- A text without NUL is cut into the tokens it was made of. -/
theorem lexemes_eq {text : String} {ls : List Lexeme} (htext : text.toList = charsOf ls) (hnul : NulFree (charsOf ls))
    (h : Neatly ls []) : lexemes text = ls := by
  have hcs : text.toList.takeWhile (·.toNat != 0) = charsOf ls := by
    rw [htext, ← List.append_nil (charsOf ls), List.takeWhile_append_of_pos fun c hc => by simpa using hnul c hc]
    rfl
  obtain ⟨k, hk⟩ := Nat.exists_eq_add_of_le (length_le_charsOf h)
  have hcut := lexemesFrom_charsOf h (k + 1)
  rw [List.append_nil, lexemesFrom_nil, List.append_nil] at hcut
  unfold lexemes
  dsimp only
  rw [hcs, hk]
  exact hcut

/-- Tokens of which the last one is a quoted name that a NUL cuts off. -/
theorem lexemes_cut {text : String} {ls : List Lexeme} (hnul : NulFree (charsOf ls)) {gap front : List Char}
    (hgap : NulFree gap) (hspace : ∀ c ∈ gap, isSpace c = true) (hfront : NulFree front) {nul : Char}
    (hzero : nul.toNat = 0) {back : List Char}
    (htext : text.toList = charsOf ls ++ (gap ++ '"' :: (doubleQuotes front ++ nul :: back)))
    (h : Neatly ls (gap ++ '"' :: doubleQuotes front)) :
    lexemes text = ls ++ [⟨.illegal, gap, '"' :: doubleQuotes front⟩] := by
  have hcut : text.toList.takeWhile (·.toNat != 0) = charsOf ls ++ (gap ++ '"' :: doubleQuotes front) := by
    have hfree : NulFree (charsOf ls ++ (gap ++ '"' :: doubleQuotes front)) := by
      refine nulFree_append.2 ⟨hnul, nulFree_append.2 ⟨hgap, fun c hc => ?_⟩⟩
      rcases List.mem_cons.1 hc with rfl | hc
      · decide
      · exact hfront c (mem_doubleQuotes hc)
    have hsplit : text.toList = (charsOf ls ++ (gap ++ '"' :: doubleQuotes front)) ++ nul :: back := by
      rw [htext]
      simp only [List.append_assoc, List.cons_append]
    rw [hsplit, List.takeWhile_append_of_pos fun c hc => by simpa using hfree c hc,
      List.takeWhile_cons_of_neg (by simp [hzero]), List.append_nil]
  -- behind the gap the name is not closed, which ends the tokens
  have hskip : skipBlanks (gap ++ '"' :: doubleQuotes front) = '"' :: doubleQuotes front :=
    skipGap_spaces hspace (by decide) (by decide) (by decide) (by decide) _
  have hlast : ∀ fuel, lexemesFrom (fuel + 1) (gap ++ '"' :: doubleQuotes front) =
      [⟨.illegal, gap, '"' :: doubleQuotes front⟩] := by
    intro fuel
    have hnext : nextLexeme ('"' :: doubleQuotes front) = (.illegal, []) := by
      unfold nextLexeme
      simp [takeQuoted_unclosed]
    rw [lexemesFrom]
    dsimp only
    rw [hskip]
    dsimp only
    rw [hnext]
    simp
  obtain ⟨k, hk⟩ := Nat.exists_eq_add_of_le (length_le_charsOf h)
  unfold lexemes
  dsimp only
  rw [hcut, show (charsOf ls ++ (gap ++ '"' :: doubleQuotes front)).length + 1 =
      ls.length + ((k + (gap ++ '"' :: doubleQuotes front).length) + 1) by
    rw [List.length_append, hk]
    omega, lexemesFrom_charsOf h, hlast]

end GuardedConfig.Sql
