/-!
# `Text.Split` — cutting and trimming character lists

Texts are scanned as lists of characters. This module has the few cuts that all readers share, each with the
law that says what the pieces are.

## Contents

* `splitChar` — the pieces between occurrences of one character
* `dropEndWhile`, `trimWith` — removing characters at the end, or at both ends
* `wordsWith` — the maximal pieces without separators
* `cutAt?` — the text before and after the first occurrence of a delimiter
* `splitText` — the pieces between occurrences of a delimiter text
-/

namespace GuardedConfig.Text

/-- The pieces between occurrences of `sep`; `n` occurrences give `n + 1` pieces. -/
def splitChar (sep : Char) : List Char → List (List Char)
  | [] => [[]]
  | c :: cs =>
    if c = sep then [] :: splitChar sep cs
    else
      match splitChar sep cs with
      | [] => [[c]]
      | piece :: pieces => (c :: piece) :: pieces

/-- Removes the longest stretch of characters in `p` at the end. -/
def dropEndWhile (p : Char → Bool) : List Char → List Char
  | [] => []
  | c :: cs =>
    match dropEndWhile p cs with
    | [] => if p c then [] else [c]
    | kept => c :: kept

/-- Removes the characters in `p` at both ends. -/
def trimWith (p : Char → Bool) (cs : List Char) : List Char := dropEndWhile p (cs.dropWhile p)

/-- The maximal non-empty pieces without characters in `p`, in order. -/
def wordsWith (p : Char → Bool) (cs : List Char) : List (List Char) :=
  let rec go (current : List Char) : List Char → List (List Char)
    | [] => if current.isEmpty then [] else [current.reverse]
    | c :: cs =>
      if p c then
        if current.isEmpty then go [] cs else current.reverse :: go [] cs
      else go (c :: current) cs
  go [] cs

/-- What follows `mark` at the front of a text. -/
def dropMark? (mark : List Char) (cs : List Char) : Option (List Char) :=
  match mark, cs with
  | [], rest => some rest
  | m :: ms, c :: rest => if m = c then dropMark? ms rest else none
  | _ :: _, [] => none

/-- The text before and after the first occurrence of `mark`. -/
def cutAt? (mark : List Char) : List Char → Option (List Char × List Char)
  | [] => (dropMark? mark []).map fun rest => ([], rest)
  | c :: cs =>
    match dropMark? mark (c :: cs) with
    | some rest => some ([], rest)
    | none => (cutAt? mark cs).map fun (before, after) => (c :: before, after)

theorem eq_of_dropMark? {mark cs rest : List Char} (h : dropMark? mark cs = some rest) :
    cs = mark ++ rest := by
  induction mark generalizing cs with
  | nil => cases cs <;> simp_all [dropMark?]
  | cons m ms ih =>
    cases cs with
    | nil => simp [dropMark?] at h
    | cons c cs =>
      simp only [dropMark?] at h
      split at h
      · rename_i hm
        simp [hm, ih h]
      · simp at h

theorem eq_of_cutAt? {mark cs before after : List Char} (h : cutAt? mark cs = some (before, after)) :
    cs = before ++ mark ++ after := by
  induction cs generalizing before after with
  | nil =>
    simp only [cutAt?, Option.map_eq_some_iff] at h
    obtain ⟨rest, hr, he⟩ := h
    simp only [Prod.mk.injEq] at he
    rw [eq_of_dropMark? hr, ← he.1, ← he.2]
    simp
  | cons c cs ih =>
    simp only [cutAt?] at h
    split at h
    · rename_i rest hr
      simp only [Option.some.injEq, Prod.mk.injEq] at h
      rw [eq_of_dropMark? hr, ← h.1, ← h.2]
      simp
    · simp only [Option.map_eq_some_iff] at h
      obtain ⟨⟨b, a⟩, hc, he⟩ := h
      simp only [Prod.mk.injEq] at he
      rw [ih hc, ← he.1, ← he.2]
      simp

/-- The pieces between occurrences of the delimiter `mark`, found from the left; an empty delimiter does not
cut. -/
def splitText (mark cs : List Char) : List (List Char) :=
  if _hm : mark = [] then [cs]
  else
    match _h : cutAt? mark cs with
    | some (before, after) => before :: splitText mark after
    | none => [cs]
termination_by cs.length
decreasing_by
  have := eq_of_cutAt? _h
  have hpos : 0 < mark.length := List.length_pos_iff.mpr _hm
  rw [this]
  simp only [List.length_append]
  omega

end GuardedConfig.Text
