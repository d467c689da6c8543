import GuardedConfig.Pattern.Read
import GuardedConfig.Schema.Catalog
import Mathlib.Data.List.SplitBy

/-!
# `Proofs.WholeWords` — what substitution replaces

A text falls in one way into maximal runs of word characters and the stretches between them. Substitution replaces the
runs that are the placeholder, and leaves everything else as it stands. This is what a search for the pattern with the
placeholder between two word boundaries finds, from left to right: such a match is a whole run, so matches neither
overlap nor touch.

## Contents

* `substituteFrom_break`, `substituteFrom_append` — substitution in parts of a text
* `IsCut`, `isCut_iff` — the runs of a text
* `substituteFrom_flatten`, `substituteFrom_unchanged` — substitution, run by run
* `Pattern.replaceFrom`, `Pattern.wholeWord`, `ends_wholeWord` — replacing the matches of a pattern
* `instantiate_words`
-/

namespace GuardedConfig

open Text

namespace Field

variable {placeholder literal run cs front back piece : List Char} {pieces : List (List Char)}

/-! ## Parts of a text -/

theorem replaceRun_nil (hne : placeholder ≠ []) : replaceRun placeholder literal [] = [] :=
  if_neg (Ne.symm hne)

/-- Characters of a word are added to the run. -/
theorem substituteFrom_word (hfront : ∀ c ∈ front, isWord c = true) :
    substituteFrom placeholder literal run (front ++ cs) =
      substituteFrom placeholder literal (front.reverse ++ run) cs := by
  induction front generalizing run with
  | nil => rfl
  | cons c front ih =>
    obtain ⟨hc, hfront⟩ := List.forall_mem_cons.1 hfront
    rw [List.cons_append, substituteFrom, if_pos hc, ih hfront, List.reverse_cons, List.append_assoc]
    rfl

/-- A run ends where no word character follows. -/
theorem substituteFrom_break (hne : placeholder ≠ []) (hhead : ∀ c ∈ cs.head?, isWord c = false) :
    substituteFrom placeholder literal run cs =
      replaceRun placeholder literal run ++ substituteFrom placeholder literal [] cs := by
  cases cs with
  | nil => rw [substituteFrom, substituteFrom, replaceRun_nil hne, List.append_nil]
  | cons c cs =>
    have hc : ¬ isWord c = true := by simp [hhead c rfl]
    rw [substituteFrom, substituteFrom, if_neg hc, if_neg hc, replaceRun_nil hne, List.nil_append]

/-- Two parts of a text are substituted on their own if no run goes from one to the other. -/
theorem substituteFrom_append (hne : placeholder ≠ [])
    (h : (∀ c ∈ front.getLast?, isWord c = false) ∨ ∀ c ∈ back.head?, isWord c = false) :
    substituteFrom placeholder literal [] (front ++ back) =
      substituteFrom placeholder literal [] front ++ substituteFrom placeholder literal [] back := by
  -- the run that is being read stands before the front part, and what ends it stands in one of the two
  suffices hgen : ∀ run, (∀ c ∈ run, isWord c = true) →
      ((∀ c ∈ (run.reverse ++ front).getLast?, isWord c = false) ∨ ∀ c ∈ back.head?, isWord c = false) →
      substituteFrom placeholder literal run (front ++ back) =
        substituteFrom placeholder literal run front ++ substituteFrom placeholder literal [] back from
    hgen [] (fun _ hc => nomatch hc) h
  clear h
  induction front with
  | nil =>
    rintro run hrun (hlast | hhead)
    · cases run with
      | nil => rw [List.nil_append, substituteFrom, replaceRun_nil hne, List.nil_append]
      | cons c run =>
        have hc := hlast c (by simp)
        rw [hrun c (List.mem_cons_self ..)] at hc
        cases hc
    · rw [List.nil_append, substituteFrom_break hne hhead, substituteFrom]
  | cons c front ih =>
    intro run hrun h
    rw [List.cons_append, substituteFrom, substituteFrom]
    split
    · rename_i hc
      refine ih (c :: run) (List.forall_mem_cons.2 ⟨hc, hrun⟩) (h.imp_left fun hlast => ?_)
      rwa [List.reverse_cons, List.append_assoc]
    · rw [ih [] (fun _ hc => nomatch hc) (h.imp_left fun hlast d hd => hlast d ?_), List.append_assoc,
        List.cons_append]
      have hd : front.getLast? = some d := hd
      simp [List.getLast?_append, List.getLast?_cons, hd]

/-! ## Runs -/

/-- The pieces of a text that are runs of word characters or stretches without any, each as long as it can be. -/
structure IsCut (cs : List Char) (pieces : List (List Char)) : Prop where
  joined : pieces.flatten = cs
  nonempty : ∀ piece ∈ pieces, piece ≠ []
  alike : ∀ piece ∈ pieces, ∀ c ∈ piece, ∀ d ∈ piece, isWord c = isWord d
  apart : pieces.IsChain fun a b => ∀ c ∈ a, ∀ d ∈ b, isWord c ≠ isWord d

/-- Whether two characters can stand next to each other in a piece. -/
def sameClass (c d : Char) : Bool := isWord c == isWord d

/-- Neighbours of one class make a piece of one class. -/
theorem isChain_sameClass : piece.IsChain (fun c d => sameClass c d = true) ↔
    ∀ c ∈ piece, ∀ d ∈ piece, isWord c = isWord d := by
  have : IsTrans Char fun c d => sameClass c d = true := ⟨fun _ _ _ => by simpa [sameClass] using Eq.trans⟩
  have : Std.Symm fun c d => sameClass c d = true := ⟨fun _ _ => by simpa [sameClass] using Eq.symm⟩
  rw [List.isChain_iff_pairwise]
  constructor
  · intro h c hc d hd
    by_cases hcd : c = d
    · rw [hcd]
    · exact eq_of_beq (h.forall hc hd hcd)
  · exact fun h => List.pairwise_of_forall_mem_list fun c hc d hd => beq_iff_eq.2 (h c hc d hd)

/-- A text is cut in one way. -/
theorem isCut_iff : IsCut cs pieces ↔ cs.splitBy sameClass = pieces := by
  rw [List.splitBy_eq_iff]
  constructor
  · intro h
    refine ⟨h.joined.symm, fun hnil => h.nonempty [] hnil rfl,
      fun piece hp => isChain_sameClass.2 (h.alike piece hp), ?_⟩
    refine h.apart.imp_of_mem_imp fun a b ha hb hab => ⟨h.nonempty a ha, h.nonempty b hb, ?_⟩
    exact beq_eq_false_iff_ne.2 (hab _ (List.getLast_mem _) _ (List.head_mem _))
  · rintro ⟨hjoined, hnil, hchain, hlast⟩
    have halike : ∀ piece ∈ pieces, ∀ c ∈ piece, ∀ d ∈ piece, isWord c = isWord d :=
      fun piece hp => isChain_sameClass.1 (hchain piece hp)
    refine ⟨hjoined.symm, fun piece hp hempty => hnil (hempty ▸ hp), halike, ?_⟩
    refine hlast.imp_of_mem_imp fun a b ha hb ⟨hane, hbne, hab⟩ c hc d hd => ?_
    rw [halike a ha c hc _ (List.getLast_mem hane), halike b hb d hd _ (List.head_mem hbne)]
    exact beq_eq_false_iff_ne.1 hab

/-! ## Substitution, run by run -/

/-- A piece of a text, or the literal in its place. -/
def replacePiece (placeholder literal piece : List Char) : List Char :=
  if piece = placeholder then literal else piece

/-- A stretch without word characters stays as it is. -/
theorem substituteFrom_gap (hne : placeholder ≠ []) (hpiece : ∀ c ∈ piece, isWord c = false) :
    substituteFrom placeholder literal [] piece = piece := by
  induction piece with
  | nil => rw [substituteFrom, replaceRun_nil hne]
  | cons c piece ih =>
    obtain ⟨hc, hpiece⟩ := List.forall_mem_cons.1 hpiece
    rw [substituteFrom, if_neg (by simp [hc]), replaceRun_nil hne, List.nil_append, ih hpiece]

/-- A run is replaced if it is the placeholder. -/
theorem substituteFrom_run (hpiece : ∀ c ∈ piece, isWord c = true) :
    substituteFrom placeholder literal [] piece = replacePiece placeholder literal piece := by
  have h : substituteFrom placeholder literal [] (piece ++ []) = _ := substituteFrom_word hpiece
  rw [List.append_nil, List.append_nil, substituteFrom, replaceRun, List.reverse_reverse] at h
  exact h

theorem substituteFrom_piece (hword : ∀ c ∈ placeholder, isWord c = true) (hne : placeholder ≠ [])
    (halike : ∀ c ∈ piece, ∀ d ∈ piece, isWord c = isWord d) :
    substituteFrom placeholder literal [] piece = replacePiece placeholder literal piece := by
  by_cases hpiece : ∀ c ∈ piece, isWord c = true
  · exact substituteFrom_run hpiece
  · obtain ⟨c, hc, hcword⟩ := by simpa using hpiece
    have hgap : ∀ d ∈ piece, isWord d = false := fun d hd => (halike d hd c hc).trans hcword
    have hother : piece ≠ placeholder := by
      rintro rfl
      exact absurd (hword c hc) (by simp [hcword])
    rw [substituteFrom_gap hne hgap, replacePiece, if_neg hother]

/-- **Substitution, run by run.** -/
theorem substituteFrom_flatten (hword : ∀ c ∈ placeholder, isWord c = true) (hne : placeholder ≠ [])
    (halike : ∀ piece ∈ pieces, ∀ c ∈ piece, ∀ d ∈ piece, isWord c = isWord d)
    (hnonempty : ∀ piece ∈ pieces, piece ≠ [])
    (hapart : pieces.IsChain fun a b => ∀ c ∈ a, ∀ d ∈ b, isWord c ≠ isWord d) :
    substituteFrom placeholder literal [] pieces.flatten = (pieces.map (replacePiece placeholder literal)).flatten := by
  induction pieces with
  | nil => exact substituteFrom_gap hne fun _ hc => nomatch hc
  | cons piece pieces ih =>
    obtain ⟨hpiece, halike⟩ := List.forall_mem_cons.1 halike
    have hnonempty' := (List.forall_mem_cons.1 hnonempty).2
    rw [List.flatten_cons, substituteFrom_append hne, substituteFrom_piece hword hne hpiece,
      ih halike hnonempty' hapart.tail]
    · rfl
    · cases pieces with
      | nil => exact .inr fun _ hc => nomatch hc
      | cons next pieces =>
        obtain ⟨hfirst, -⟩ := List.isChain_cons_cons.1 hapart
        obtain ⟨d, next', rfl⟩ := List.exists_cons_of_ne_nil (hnonempty next (by simp))
        cases hd : isWord d with
        | false =>
          refine .inr fun c hc => ?_
          obtain rfl : d = c := by simpa using hc
          exact hd
        | true =>
          refine .inl fun c hc => ?_
          have hcd := hfirst c (List.mem_of_getLast? hc) d (List.mem_cons_self ..)
          simpa [hd] using hcd

/-- A text stays as it is if none of its runs is the placeholder. -/
theorem substituteFrom_unchanged (hword : ∀ c ∈ placeholder, isWord c = true) (hne : placeholder ≠ [])
    (hcut : IsCut cs pieces) (h : placeholder ∉ pieces) : substituteFrom placeholder literal [] cs = cs := by
  have hsame : pieces.map (replacePiece placeholder literal) = pieces := by
    refine (List.map_congr_left fun piece hpiece => ?_).trans (List.map_id _)
    refine if_neg ?_
    rintro rfl
    exact h hpiece
  rw [← hcut.joined, substituteFrom_flatten hword hne hcut.alike hcut.nonempty hcut.apart, hsame]

end Field

/-! ## Matches of a pattern -/

namespace Pattern

/-- The text from a position on, with the matches of a pattern replaced. They are found from left to right; each takes
some characters, and the search goes on behind it. -/
def replaceFrom (p : Pattern) (literal : List Char) (text : Array Char) (i : Nat) : List Char :=
  if _hi : i < text.size then
    match _hj : (p.ends text [i]).find? (i < ·) with
    | some j => literal ++ replaceFrom p literal text j
    | none => text[i] :: replaceFrom p literal text (i + 1)
  else []
termination_by text.size - i
decreasing_by
  · have := List.find?_some _hj
    simp only [decide_eq_true_eq] at this
    omega
  · omega

/-- A place where a word begins or ends. -/
def wordBoundary : Pattern := .look (.words false Look.boundary)

/-- A word between two boundaries. -/
def wholeWord (word : List Char) : Pattern :=
  .seq wordBoundary (word.foldr (fun c p => .seq (.one (.char c)) p) wordBoundary)

/-- This is what a text such as `\bsize\b` denotes. -/
example : ofText? "\\bsize\\b" = some (wholeWord "size".toList) := by decide +kernel

/-- Whether a word begins or ends between two characters. -/
def Divides (before after : Option Char) : Prop := before.any isWord ≠ after.any isWord

instance (before after : Option Char) : Decidable (Divides before after) :=
  inferInstanceAs (Decidable (before.any isWord ≠ after.any isWord))

variable {word front back : List Char}

theorem holds_boundary :
    Look.holds (.words false Look.boundary) (front ++ back).toArray front.length =
      decide (Divides front.getLast? back.head?) := by
  have hbefore : (if front.length = 0 then none else (front ++ back).toArray[front.length - 1]?) = front.getLast? := by
    rcases List.eq_nil_or_concat front with rfl | ⟨init, c, rfl⟩ <;> simp
  have hafter : (front ++ back).toArray[front.length]? = back.head? := by
    cases back <;> simp
  rw [Look.holds, hbefore, hafter, Look.holdsBetween, Bool.eq_iff_iff, decide_eq_true_iff]
  unfold Divides
  simp only [Bool.not_false, Bool.true_or, Bool.and_true]
  cases front.getLast?.any isWord <;> cases back.head?.any isWord <;> decide

theorem ends_wordBoundary : ends (front ++ back).toArray wordBoundary [front.length] =
    if Divides front.getLast? back.head? then [front.length] else [] := by
  rw [wordBoundary, ends, List.filter_singleton, holds_boundary, cond_eq_ite]
  simp only [decide_eq_true_eq]

theorem ends_nil (word : List Char) (text : Array Char) :
    ends text (word.foldr (fun c p => .seq (.one (.char c)) p) wordBoundary) [] = [] := by
  induction word with
  | nil => rfl
  | cons c word ih => exact ih

/-- Where the characters of a word match that stand before a boundary. -/
theorem ends_characters : ends (front ++ back).toArray (word.foldr (fun c p => .seq (.one (.char c)) p) wordBoundary)
      [front.length] =
    if word <+: back ∧ Divides (front ++ word).getLast? (back.drop word.length).head? then [front.length + word.length]
    else [] := by
  induction word generalizing front back with
  | nil => simp [ends_wordBoundary]
  | cons c word ih =>
    rw [List.foldr_cons, ends, ends]
    cases back with
    | nil => simp [ends_nil]
    | cons d back =>
      have hd : (front ++ d :: back).toArray[front.length]? = some d := by simp
      rw [List.filter_singleton, hd]
      by_cases hcd : d = c
      · subst hcd
        have hself : (some d).any (CharSet.char d).contains = true := by simp [CharSet.char, CharSet.contains]
        have ih := @ih (front ++ [d]) back
        rw [List.append_assoc, List.singleton_append, List.length_append, List.length_singleton] at ih
        rw [hself, cond_true, List.map_singleton, ih]
        simp [List.cons_prefix_cons, Nat.add_assoc, Nat.add_comm 1]
      · have hother : (some d).any (CharSet.char c).contains = false := by
          rw [← Bool.not_eq_true]
          simp only [Option.any_some, CharSet.char, CharSet.contains, Bool.and_eq_true, decide_eq_true_eq]
          exact fun h => hcd (Char.le_antisymm h.2 h.1)
        rw [hother, cond_false, List.map_nil, ends_nil, if_neg]
        exact fun h => hcd (List.cons_prefix_cons.1 h.1).1.symm

theorem ends_wholeWord : ends (front ++ back).toArray (wholeWord word) [front.length] =
    if Divides front.getLast? back.head? ∧ word <+: back ∧
        Divides (front ++ word).getLast? (back.drop word.length).head? then [front.length + word.length]
    else [] := by
  rw [wholeWord, ends, ends_wordBoundary]
  by_cases h : Divides front.getLast? back.head?
  · rw [if_pos h, ends_characters]
    simp [h]
  · rw [if_neg h, ends_nil]
    simp [h]

/-! ### Replacing them, run by run -/

variable {literal piece : List Char} {pieces : List (List Char)} {p : Pattern}

theorem replaceFrom_end (text : List Char) : replaceFrom p literal text.toArray text.length = [] := by
  rw [replaceFrom, dif_neg (by simp)]

/-- A character at which no match begins stays. -/
theorem replaceFrom_cons {c : Char} (h : ends (front ++ c :: back).toArray p [front.length] = []) :
    replaceFrom p literal (front ++ c :: back).toArray front.length =
      c :: replaceFrom p literal ((front ++ [c]) ++ back).toArray (front ++ [c]).length := by
  rw [replaceFrom, dif_pos (by simp)]
  split
  · rename_i j hj
    rw [h] at hj
    cases hj
  · simp

/-- A stretch at whose characters no match begins stays. -/
theorem replaceFrom_skip (h : ∀ a b, piece = a ++ b → b ≠ [] →
      ends ((front ++ a) ++ (b ++ back)).toArray p [(front ++ a).length] = []) :
    replaceFrom p literal (front ++ (piece ++ back)).toArray front.length =
      piece ++ replaceFrom p literal ((front ++ piece) ++ back).toArray (front ++ piece).length := by
  induction piece generalizing front with
  | nil => simp
  | cons c piece ih =>
    have hfirst := h [] (c :: piece) rfl (List.cons_ne_nil c piece)
    rw [List.append_nil] at hfirst
    have hlater : ∀ a b, piece = a ++ b → b ≠ [] →
        ends (((front ++ [c]) ++ a) ++ (b ++ back)).toArray p [((front ++ [c]) ++ a).length] = [] := by
      intro a b hpiece hb
      have hlater := h (c :: a) b (by rw [hpiece, List.cons_append]) hb
      rwa [List.append_cons] at hlater
    have hc : replaceFrom p literal (front ++ c :: (piece ++ back)).toArray front.length = _ := replaceFrom_cons hfirst
    rw [List.cons_append, hc, ih hlater, List.append_assoc front [c], List.singleton_append, List.cons_append]

/-- A match is replaced. -/
theorem replaceFrom_match (hne : word ≠ [])
    (h : ends (front ++ (word ++ back)).toArray p [front.length] = [front.length + word.length]) :
    replaceFrom p literal (front ++ (word ++ back)).toArray front.length =
      literal ++ replaceFrom p literal ((front ++ word) ++ back).toArray (front ++ word).length := by
  have hpos := List.length_pos_iff.2 hne
  rw [replaceFrom, dif_pos (by simp; omega)]
  split
  · rename_i j hj
    rw [h, List.find?_singleton] at hj
    split at hj
    · cases hj
      rw [List.append_assoc, List.length_append]
    · cases hj
  · rename_i hj
    rw [h, List.find?_singleton, if_pos (by simpa using hpos)] at hj
    cases hj

/-- No match begins inside a piece of one class, unless the piece is the word. -/
theorem ends_of_alike (hword : ∀ c ∈ word, isWord c = true) (hne : word ≠ []) (hother : piece ≠ word)
    (halike : ∀ c ∈ piece, ∀ d ∈ piece, isWord c = isWord d)
    (hbehind : ∀ c ∈ piece, ∀ d ∈ back.head?, isWord c ≠ isWord d) :
    ∀ a b, piece = a ++ b → b ≠ [] →
      ends ((front ++ a) ++ (b ++ back)).toArray (wholeWord word) [(front ++ a).length] = [] := by
  rintro a b rfl hb
  obtain ⟨d, b, rfl⟩ := List.exists_cons_of_ne_nil hb
  rw [ends_wholeWord, if_neg]
  rintro ⟨hbegins, ⟨rest, hrest⟩, hends⟩
  rcases List.eq_nil_or_concat a with rfl | ⟨a, c, rfl⟩
  · rw [List.nil_append] at hother halike hbehind
    obtain ⟨w, word, rfl⟩ := List.exists_cons_of_ne_nil hne
    obtain rfl : w = d := (List.cons.inj hrest).1
    have hw : isWord w = true := hword w (List.mem_cons_self ..)
    rcases List.append_eq_append_iff.1 hrest with ⟨more, hmore, -⟩ | ⟨more, hmore, hback⟩
    · -- the piece goes on behind the word
      cases more with
      | nil => exact hother (by rw [hmore, List.append_nil])
      | cons e more =>
        have he : isWord e = true := (halike e (by rw [hmore]; simp) w (List.mem_cons_self ..)).trans hw
        have hlast : ((front ++ []) ++ w :: word).getLast?.any isWord = true := by
          rw [List.getLast?_append_of_ne_nil _ hne, List.getLast?_eq_getLast_of_ne_nil hne]
          exact hword _ (List.getLast_mem hne)
        refine hends ?_
        rw [hlast, hmore, List.append_assoc, List.drop_left]
        simp [he]
    · -- the word goes on behind the piece
      cases more with
      | nil => exact hother (by rw [hmore, List.append_nil])
      | cons e more =>
        have he : isWord e = true := hword e (by rw [hmore]; simp)
        exact hbehind w (List.mem_cons_self ..) e (by rw [hback]; rfl) (hw.trans he.symm)
  · refine hbegins ?_
    have hlast : (front ++ (a ++ [c])).getLast? = some c := by simp
    rw [List.concat_eq_append] at halike
    rw [List.concat_eq_append, hlast]
    exact halike c (by simp) d (by simp)

/-- Neighbours of different classes, one of them in a word, are divided. -/
theorem divides_of_apart {before after : Option Char} (hapart : ∀ c ∈ before, ∀ d ∈ after, isWord c ≠ isWord d)
    (hword : before.any isWord = true ∨ after.any isWord = true) : Divides before after := by
  unfold Divides
  cases before <;> cases after <;> simp_all

/-- **Replacing the matches of a whole word, run by run.** -/
theorem replaceFrom_flatten (hword : ∀ c ∈ word, isWord c = true) (hne : word ≠ [])
    (halike : ∀ piece ∈ pieces, ∀ c ∈ piece, ∀ d ∈ piece, isWord c = isWord d)
    (hnonempty : ∀ piece ∈ pieces, piece ≠ [])
    (hapart : pieces.IsChain fun a b => ∀ c ∈ a, ∀ d ∈ b, isWord c ≠ isWord d)
    (hfront : ∀ c ∈ front.getLast?, ∀ d ∈ pieces.flatten.head?, isWord c ≠ isWord d) :
    replaceFrom (wholeWord word) literal (front ++ pieces.flatten).toArray front.length =
      (pieces.map (Field.replacePiece word literal)).flatten := by
  induction pieces generalizing front with
  | nil => rw [List.flatten_nil, List.append_nil, replaceFrom_end]; rfl
  | cons piece pieces ih =>
    obtain ⟨hpiece, halike⟩ := List.forall_mem_cons.1 halike
    obtain ⟨hpne, hnonempty⟩ := List.forall_mem_cons.1 hnonempty
    have hbehind : ∀ c ∈ piece, ∀ d ∈ pieces.flatten.head?, isWord c ≠ isWord d := by
      cases pieces with
      | nil => exact fun _ _ _ hd => nomatch hd
      | cons next pieces =>
        obtain ⟨e, next, rfl⟩ := List.exists_cons_of_ne_nil (hnonempty next (List.mem_cons_self ..))
        intro c hc d hd
        obtain rfl : e = d := by simpa using hd
        exact (List.isChain_cons_cons.1 hapart).1 c hc e (List.mem_cons_self ..)
    have ih := @ih (front ++ piece) halike hnonempty hapart.tail (by
      rw [List.getLast?_append_of_ne_nil _ hpne]
      exact fun c hc => hbehind c (List.mem_of_getLast? hc))
    rw [List.flatten_cons, List.map_cons, List.flatten_cons, Field.replacePiece]
    by_cases hpw : piece = word
    · subst hpw
      obtain ⟨w, rest, hw⟩ := List.exists_cons_of_ne_nil hpne
      rw [if_pos rfl, replaceFrom_match hpne, ih]
      rw [ends_wholeWord, if_pos]
      refine ⟨divides_of_apart (fun c hc d hd => hfront c hc d ?_) (.inr ?_), List.prefix_append .., ?_⟩
      · rwa [List.flatten_cons]
      · simp [hw, hword w (by rw [hw]; simp)]
      · rw [List.getLast?_append_of_ne_nil _ hpne, List.drop_left]
        refine divides_of_apart (fun c hc => hbehind c (List.mem_of_getLast? hc)) (.inl ?_)
        rw [List.getLast?_eq_getLast_of_ne_nil hpne]
        exact hword _ (List.getLast_mem hpne)
    · rw [if_neg hpw, replaceFrom_skip (ends_of_alike hword hne hpw hpiece hbehind), ih]

end Pattern

/-! ## Templates -/

namespace Schema

open GuardedConfig.Field

/-- **Substitution replaces whole words and nothing else.** The body of a template is cut in one way into maximal runs
of word characters and the stretches between them. Instantiated, it is the same sequence with the literal in the place
of each run that is the placeholder; so a body without such a run stays as it is. These are also the matches of the
placeholder between two word boundaries, replaced from left to right. -/
theorem instantiate_words (t : Template) (hword : ∀ c ∈ t.rule.placeholder.toList, isWord c = true)
    (hne : t.rule.placeholder ≠ "") (a : Argument) :
    ∃ pieces, IsCut t.body.toList pieces ∧ (∀ other, IsCut t.body.toList other → other = pieces) ∧
      (t.instantiate a).toList = (pieces.map fun piece =>
        if piece = t.rule.placeholder.toList then a.literal.toList else piece).flatten ∧
      (t.rule.placeholder.toList ∉ pieces → t.instantiate a = t.body) ∧
      (t.instantiate a).toList =
        (Pattern.wholeWord t.rule.placeholder.toList).replaceFrom a.literal.toList t.body.toList.toArray 0 := by
  have hne' : t.rule.placeholder.toList ≠ [] := fun h => hne (String.toList_injective h)
  have hcut : IsCut t.body.toList (t.body.toList.splitBy sameClass) := isCut_iff.2 rfl
  generalize t.body.toList.splitBy sameClass = pieces at hcut
  have hruns : (t.instantiate a).toList =
      (pieces.map (replacePiece t.rule.placeholder.toList a.literal.toList)).flatten := by
    rw [Template.instantiate, substitute, String.toList_ofList, ← hcut.joined,
      substituteFrom_flatten hword hne' hcut.alike hcut.nonempty hcut.apart]
  refine ⟨pieces, hcut, fun other hother => ?unique, hruns, fun hnone => ?unchanged, ?pattern⟩
  case unique => rw [← isCut_iff.1 hother, isCut_iff.1 hcut]
  case unchanged =>
    apply String.toList_injective
    rw [Template.instantiate, substitute, String.toList_ofList, substituteFrom_unchanged hword hne' hcut hnone]
  case pattern =>
    have hmatches : (Pattern.wholeWord t.rule.placeholder.toList).replaceFrom a.literal.toList
        ([] ++ pieces.flatten).toArray ([] : List Char).length = _ :=
      Pattern.replaceFrom_flatten hword hne' hcut.alike hcut.nonempty hcut.apart nofun
    rw [hcut.joined] at hmatches
    exact hruns.trans hmatches.symm

/-- Words that have the placeholder in them, beside it and around it. -/
def sizes : Template :=
  ⟨"Window", "sizes INTEGER DEFAULT size, size_1 TEXT CHECK(-size <> 'size' OR 1size = size-size)",
    ⟨"size", "INTEGER", ⟨"5", "5"⟩⟩⟩

theorem instantiate_words_sizes : (∀ c ∈ sizes.rule.placeholder.toList, isWord c = true) ∧ sizes.rule.placeholder ≠ "" ∧
    sizes.instantiate ⟨"$size", "s"⟩ =
      "sizes INTEGER DEFAULT $size, size_1 TEXT CHECK(-$size <> '$size' OR 1size = $size-$size)" ∧
    ∃ pieces, IsCut sizes.body.toList pieces ∧ (sizes.instantiate ⟨"$size", "s"⟩).toList =
      (pieces.map fun piece => if piece = sizes.rule.placeholder.toList then "$size".toList else piece).flatten := by
  have hword : ∀ c ∈ sizes.rule.placeholder.toList, isWord c = true := by decide +kernel
  have hne : sizes.rule.placeholder ≠ "" := by decide +kernel
  obtain ⟨pieces, hcut, -, hruns, -⟩ := instantiate_words sizes hword hne ⟨"$size", "s"⟩
  exact ⟨hword, hne, by decide +kernel, pieces, hcut, hruns⟩

end Schema

end GuardedConfig
