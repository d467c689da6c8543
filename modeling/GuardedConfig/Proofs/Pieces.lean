import GuardedConfig.Decimal.Numeral
import Mathlib.Data.List.DropRight
import Mathlib.Data.List.Infix
import Mathlib.Data.List.TakeWhile

/-!
# `Proofs.Pieces` — what cutting and trimming leave

A text is cut at the first occurrence of a mark, again and again. A mark that no part of its own begins and ends, as a
character alone or the delimiter of tokens, cannot overlap another occurrence of it. So pieces with such a mark between
them are cut where they have been joined, and further where they have the mark themselves.

## Contents

* `dropMark?_eq_some_iff`, `cutAt?_eq_none_iff`, `not_infix_of_cutAt?` — the first occurrence
* `Unbordered`, `cutAt?_append`, `cutAt?_singleton` — marks that do not overlap
* `splitText_append`, `splitText_intercalate`, `not_infix_of_mem_splitText`, `exists_mem_splitText` — all pieces
* `isInfix_trimWith`, `trimWith_eq_self`, `trimWith_append`, `getLast?_trimWith` — trimming
* `takeWhile_of_stop`, `head?_dropWhile`, `takeDigits_append` — runs at the front
-/

namespace GuardedConfig.Text

variable {mark front back cs piece : List Char} {c : Char} {p : Char → Bool}

/-! ## The first occurrence -/

theorem dropMark?_eq_some_iff : dropMark? mark cs = some back ↔ cs = mark ++ back := by
  refine ⟨eq_of_dropMark?, ?_⟩
  rintro rfl
  induction mark with
  | nil => simp [dropMark?]
  | cons m mark ih => simpa [dropMark?] using ih

theorem cutAt?_eq_none_iff : cutAt? mark cs = none ↔ ¬ mark <:+: cs := by
  induction cs with
  | nil =>
    rw [cutAt?, Option.map_eq_none_iff, Option.eq_none_iff_forall_ne_some]
    simp [dropMark?_eq_some_iff]
  | cons c cs ih =>
    rw [cutAt?, List.infix_cons_iff, not_or, ← ih]
    cases hdrop : dropMark? mark (c :: cs) with
    | some rest => simp [dropMark?_eq_some_iff.1 hdrop]
    | none =>
      have hfront : ¬ mark <+: c :: cs := by
        rintro ⟨rest, hrest⟩
        rw [dropMark?_eq_some_iff.2 hrest.symm] at hdrop
        cases hdrop
      simp [hfront]

/-- Before the first occurrence there is none. -/
theorem not_infix_of_cutAt? (hmark : mark ≠ []) (h : cutAt? mark cs = some (front, back)) : ¬ mark <:+: front := by
  induction cs generalizing front back with
  | nil =>
    obtain ⟨rest, -, he⟩ := Option.map_eq_some_iff.1 h
    cases he
    exact fun hpart => hmark (List.infix_nil.1 hpart)
  | cons c cs ih =>
    rw [cutAt?] at h
    cases hdrop : dropMark? mark (c :: cs) with
    | some rest =>
      rw [hdrop] at h
      cases h
      exact fun hpart => hmark (List.infix_nil.1 hpart)
    | none =>
      rw [hdrop] at h
      obtain ⟨⟨before, after⟩, hcut, he⟩ := Option.map_eq_some_iff.1 h
      cases he
      rw [List.infix_cons_iff, not_or]
      refine ⟨?_, ih hcut⟩
      rintro ⟨rest, hrest⟩
      have hcs : c :: cs = mark ++ (rest ++ (mark ++ back)) := by
        rw [eq_of_cutAt? hcut, ← List.append_assoc mark, hrest]
        simp
      rw [dropMark?_eq_some_iff.2 hcs] at hdrop
      cases hdrop

/-! ## Marks that do not overlap -/

/-- No end of a mark is also its beginning, the whole mark apart. -/
def Unbordered (mark : List Char) : Prop := ∀ k < mark.length, 0 < k → ¬ mark.drop k <+: mark

instance (mark : List Char) : Decidable (Unbordered mark) :=
  inferInstanceAs (Decidable (∀ k < mark.length, 0 < k → ¬ mark.drop k <+: mark))

theorem unbordered_singleton (c : Char) : Unbordered [c] := by
  intro k hk hpos
  simp only [List.length_singleton] at hk
  omega

/-- A text is cut at the mark behind a part without the mark. -/
theorem cutAt?_append (hmark : Unbordered mark) (h : ¬ mark <:+: front) :
    cutAt? mark (front ++ mark ++ back) = some (front, back) := by
  induction front with
  | nil =>
    cases mark with
    | nil => exact absurd List.infix_rfl h
    | cons m mark =>
      rw [List.nil_append, List.cons_append, cutAt?,
        dropMark?_eq_some_iff.2 (show m :: (mark ++ back) = (m :: mark) ++ back from rfl)]
  | cons c front ih =>
    have hdrop : dropMark? mark (c :: (front ++ mark ++ back)) = none := by
      rw [Option.eq_none_iff_forall_ne_some]
      intro rest hrest
      have heq : (c :: front) ++ (mark ++ back) = mark ++ rest := by
        rw [← dropMark?_eq_some_iff.1 hrest]
        simp
      -- an occurrence at the front is inside the part, or its end is the beginning of the one behind the part
      rcases List.append_eq_append_iff.1 heq with ⟨behind, hbehind, hrest⟩ | ⟨inner, hinner, -⟩
      · have hbegin : behind <+: mark :=
          List.prefix_of_prefix_length_le (hrest ▸ List.prefix_append behind rest) (List.prefix_append mark back)
            (by rw [hbehind]; exact (List.suffix_append _ behind).length_le)
        cases behind with
        | nil => exact h (by rw [hbehind, List.append_nil])
        | cons o behind =>
          refine hmark (c :: front).length (by rw [hbehind]; simp) (by simp) ?_
          rw [hbehind, List.drop_left]
          exact hbehind ▸ hbegin
      · exact h (hinner ▸ (List.prefix_append mark inner).isInfix)
    have hfront : ¬ mark <:+: front := fun hpart => h (hpart.trans (List.suffix_cons c front).isInfix)
    rw [List.cons_append, List.cons_append, cutAt?, hdrop, ih hfront]
    rfl

theorem cutAt?_singleton (h : c ∉ front) : cutAt? [c] (front ++ c :: back) = some (front, back) := by
  rw [List.append_cons]
  exact cutAt?_append (unbordered_singleton c) (mt (List.singleton_infix_iff c front).1 h)

theorem cutAt?_singleton_eq_none : cutAt? [c] cs = none ↔ c ∉ cs := by
  rw [cutAt?_eq_none_iff, List.singleton_infix_iff]

/-! ## All pieces -/

theorem splitText_uncut (h : ¬ mark <:+: cs) : splitText mark cs = [cs] := by
  rw [splitText]
  split
  · rfl
  · split
    · rename_i hcut
      rw [cutAt?_eq_none_iff.2 h] at hcut
      cases hcut
    · rfl

theorem splitText_of_cutAt? (hmark : mark ≠ []) (h : cutAt? mark cs = some (front, back)) :
    splitText mark cs = front :: splitText mark back := by
  rw [splitText, dif_neg hmark]
  split
  · rename_i hcut
    cases h.symm.trans hcut
    rfl
  · rename_i hcut
    cases h.symm.trans hcut

/-- Two texts with the mark between them are cut there, and each of them on its own. -/
theorem splitText_append (hmark : mark ≠ []) (hborder : Unbordered mark) (front back : List Char) :
    splitText mark (front ++ mark ++ back) = splitText mark front ++ splitText mark back := by
  cases hcut : cutAt? mark front with
  | none =>
    have hfront := cutAt?_eq_none_iff.1 hcut
    rw [splitText_of_cutAt? hmark (cutAt?_append hborder hfront), splitText_uncut hfront]
    rfl
  | some pair =>
    obtain ⟨before, after⟩ := pair
    have hbefore := not_infix_of_cutAt? hmark hcut
    have hfront : front ++ mark ++ back = before ++ mark ++ (after ++ mark ++ back) := by
      rw [eq_of_cutAt? hcut]
      simp
    have hlength : after.length < front.length := by
      have hpos := List.length_pos_iff.2 hmark
      rw [eq_of_cutAt? hcut]
      simp only [List.length_append]
      omega
    rw [hfront, splitText_of_cutAt? hmark (cutAt?_append hborder hbefore), splitText_of_cutAt? hmark hcut,
      splitText_append hmark hborder after back]
    rfl
termination_by front.length

/-- Texts with the mark between them are cut there, and each of them on its own. -/
theorem splitText_intercalate (hmark : mark ≠ []) (hborder : Unbordered mark) {texts : List (List Char)}
    (htexts : texts ≠ []) : splitText mark (mark.intercalate texts) = texts.flatMap (splitText mark) := by
  induction texts with
  | nil => exact absurd rfl htexts
  | cons text texts ih =>
    cases texts with
    | nil => simp
    | cons next texts =>
      rw [List.intercalate_cons_cons, splitText_append hmark hborder, ih (List.cons_ne_nil _ _)]
      rfl

/-- No piece has the mark. -/
theorem not_infix_of_mem_splitText (hmark : mark ≠ []) (h : piece ∈ splitText mark cs) : ¬ mark <:+: piece := by
  fun_induction splitText mark cs with
  | case1 cs he => exact absurd he hmark
  | case2 cs _ front back hcut ih =>
    rcases List.mem_cons.1 h with rfl | h
    · exact not_infix_of_cutAt? hmark hcut
    · exact ih h
  | case3 cs _ hcut => exact List.mem_singleton.1 h ▸ cutAt?_eq_none_iff.1 hcut

/-- A character that the mark has not is in some piece. -/
theorem exists_mem_splitText (hc : c ∈ cs) (hmark : c ∉ mark) : ∃ piece ∈ splitText mark cs, c ∈ piece := by
  fun_induction splitText mark cs with
  | case1 cs _ => exact ⟨cs, List.mem_singleton_self cs, hc⟩
  | case2 cs _ front back hcut ih =>
    rw [eq_of_cutAt? hcut, List.mem_append, List.mem_append] at hc
    obtain (hc | hc) | hc := hc
    · exact ⟨front, List.mem_cons_self .., hc⟩
    · exact absurd hc hmark
    · obtain ⟨piece, hpiece, hc⟩ := ih hc
      exact ⟨piece, List.mem_cons_of_mem _ hpiece, hc⟩
  | case3 cs _ _ => exact ⟨cs, List.mem_singleton_self cs, hc⟩

/-- A mark without some character is before the character or behind it. -/
theorem infix_append_cons (hc : c ∉ mark) (h : mark <:+: front ++ c :: back) : mark <:+: front ∨ mark <:+: back := by
  induction front with
  | nil =>
    rcases List.infix_cons_iff.1 h with hbegin | hback
    · cases mark with
      | nil => exact .inl List.infix_rfl
      | cons m mark => exact absurd (List.cons_prefix_cons.1 hbegin).1 fun hm => hc (hm ▸ List.mem_cons_self ..)
    · exact .inr hback
  | cons d front ih =>
    rcases List.infix_cons_iff.1 h with hbegin | hrest
    · have hfront : (d :: front) ++ [c] <+: d :: (front ++ c :: back) := ⟨back, by simp⟩
      rcases List.prefix_or_prefix_of_prefix hbegin hfront with hmark | hmark
      · rcases List.prefix_concat_iff.1 hmark with rfl | hmark
        · exact absurd (List.mem_append_right _ (List.mem_singleton_self c)) hc
        · exact .inl hmark.isInfix
      · exact absurd (hmark.subset (List.mem_append_right _ (List.mem_singleton_self c))) hc
    · exact (ih hrest).imp_left fun hfront => hfront.trans (List.suffix_cons d front).isInfix

/-! ## Trimming -/

theorem dropEndWhile_eq_rdropWhile (p : Char → Bool) (cs : List Char) : dropEndWhile p cs = cs.rdropWhile p := by
  induction cs with
  | nil => rfl
  | cons c cs ih =>
    rw [dropEndWhile, ih]
    unfold List.rdropWhile
    rw [List.reverse_cons, List.dropWhile_append]
    cases cs.reverse.dropWhile p with
    | nil => cases hc : p c <;> simp [List.dropWhile, hc]
    | cons d rest =>
      have hne : (d :: rest).reverse ≠ [] := by simp
      split
      · contradiction
      · simp

theorem isInfix_trimWith (p : Char → Bool) (cs : List Char) : trimWith p cs <:+: cs := by
  rw [trimWith, dropEndWhile_eq_rdropWhile]
  exact (List.rdropWhile_prefix p _).isInfix.trans (List.dropWhile_suffix p).isInfix

/-- Nothing is trimmed where both ends stay. -/
theorem trimWith_eq_self (hfirst : ∀ c ∈ cs.head?, p c = false) (hlast : ∀ c ∈ cs.getLast?, p c = false) :
    trimWith p cs = cs := by
  have hdrop : cs.dropWhile p = cs := by
    cases cs with
    | nil => rfl
    | cons c cs => simp [List.dropWhile, hfirst c rfl]
  rw [trimWith, hdrop, dropEndWhile_eq_rdropWhile, List.rdropWhile_eq_self_iff]
  intro hne
  rw [hlast _ (List.getLast?_eq_getLast_of_ne_nil hne)]
  decide

/-- A text with a character that stays is not trimmed to nothing. -/
theorem trimWith_ne_nil (hc : c ∈ cs) (hp : p c = false) : trimWith p cs ≠ [] := by
  rw [trimWith, dropEndWhile_eq_rdropWhile, Ne, List.rdropWhile_eq_nil_iff]
  intro hall
  have hmem : c ∈ cs.dropWhile p := by
    rw [← List.takeWhile_append_dropWhile (p := p) (l := cs), List.mem_append] at hc
    refine hc.resolve_left fun htake => ?_
    rw [List.mem_takeWhile_imp htake] at hp
    cases hp
  rw [hall c hmem] at hp
  cases hp

/-- What is trimmed anyway may stand around a text. -/
theorem trimWith_append (hfront : ∀ c ∈ front, p c = true) (hback : ∀ c ∈ back, p c = true) :
    trimWith p (front ++ (cs ++ back)) = trimWith p cs := by
  have hend : ∀ kept, dropEndWhile p (kept ++ back) = dropEndWhile p kept := by
    intro kept
    rw [dropEndWhile_eq_rdropWhile, dropEndWhile_eq_rdropWhile, List.rdropWhile, List.rdropWhile, List.reverse_append,
      List.dropWhile_append_of_pos fun c hc => hback c (List.mem_reverse.1 hc)]
  rw [trimWith, trimWith, List.dropWhile_append_of_pos hfront, List.dropWhile_append]
  split
  · -- nothing of the text is kept, so neither is anything behind it
    rename_i hnone
    rw [List.isEmpty_iff.1 hnone, List.dropWhile_eq_nil_iff.2 hback]
  · exact hend _

theorem getLast?_trimWith (p : Char → Bool) (cs : List Char) : ∀ c ∈ (trimWith p cs).getLast?, p c = false := by
  intro c hc
  rw [trimWith, dropEndWhile_eq_rdropWhile] at hc
  have hne : (cs.dropWhile p).rdropWhile p ≠ [] := by
    intro hnil
    rw [hnil] at hc
    cases hc
  rw [List.getLast?_eq_getLast_of_ne_nil hne] at hc
  cases hc
  exact Bool.eq_false_iff.2 (List.rdropWhile_last_not p _ hne)

/-! ## Runs at the front -/

/-- A run ends where the text goes on with another character. -/
theorem takeWhile_of_stop (hfront : ∀ c ∈ front, p c = true) (hback : ∀ c ∈ back.head?, p c = false) :
    (front ++ back).takeWhile p = front ∧ (front ++ back).dropWhile p = back := by
  rw [List.takeWhile_append_of_pos hfront, List.dropWhile_append_of_pos hfront]
  cases back with
  | nil => simp
  | cons c back => simp [hback c rfl]

theorem head?_dropWhile (p : Char → Bool) (cs : List Char) : ∀ c ∈ (cs.dropWhile p).head?, p c = false := by
  intro c hc
  have hnot := List.head?_dropWhile_not p cs
  rwa [Option.mem_def.1 hc] at hnot

theorem takeDigits_append (hfront : ∀ c ∈ front, isAsciiDigit c = true)
    (hback : ∀ c ∈ back.head?, isAsciiDigit c = false) : Decimal.takeDigits (front ++ back) = (front, back) :=
  Prod.ext (takeWhile_of_stop hfront hback).1 (takeWhile_of_stop hfront hback).2

end GuardedConfig.Text
