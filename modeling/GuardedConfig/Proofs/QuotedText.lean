import GuardedConfig.Proofs.Agreement
import GuardedConfig.Proofs.Bodies
import GuardedConfig.Proofs.Instances
import GuardedConfig.Proofs.TokenForms

/-!
# `Proofs.QuotedText` — quoted text in bodies

Separators inside quotes do not cut a body, so a text between quotes stays in one entry. But the blanks of an entry
are collapsed after the body is cut, and by then nothing tells a blank inside quotes from any other. So a quoted text
comes through with each stretch of blanks as one space, and is kept as it is exactly if it has only single spaces.
This goes for the parts of the body and for the statements that create tables.

## Contents

* `Text.collapseBlanks_append`, `Text.collapseBlanks_eq_self_iff` — what collapsing blanks keeps
* `IsQuoted`, `Quotes` — quoted texts, and where they stand in a body
* `exists_cutEntries`, `Quotes.exists_splitEntries` — a quoted text is in one entry
* `Body.texts`, `textOf`, `foldlM_addEntry_texts` — the texts of a body are those of its entries
* `quoted_in_texts`, `singleSpaced_of_texts` — what the texts of a body have of a quoted text
* `Table.infix_createText`, `Table.HasBody.infix_createText`, `Table.Follows.infix_createText` — statements have
  the texts of their bodies
* `quoted_text_kept` — quoted text is kept up to its blanks
-/

namespace GuardedConfig

open Text

/-! ## Collapsing blanks -/

namespace Text

section Ends

variable {a b cs front back : List Char} {c : Char} {p : Char → Bool}

/-- A text that no blank begins or ends, and that is not empty. -/
structure Solid (cs : List Char) : Prop where
  head : ∃ c ∈ cs.head?, isBlank c = false
  last : ∃ c ∈ cs.getLast?, isBlank c = false

/-- A part whose first character is not in front begins behind the front. -/
theorem infix_of_notMem_front (hc : c ∉ front) (h : c :: cs <:+: front ++ back) : c :: cs <:+: back := by
  obtain ⟨x, y, hxy⟩ := h
  rw [List.append_assoc] at hxy
  rcases List.append_eq_append_iff.1 hxy with ⟨l, hfront, hback⟩ | ⟨l, -, hback⟩
  · cases l with
    | nil => exact ⟨[], y, by simpa using hback⟩
    | cons d l =>
      obtain ⟨rfl, -⟩ := List.cons.inj hback
      exact absurd (by simp [hfront]) hc
  · exact ⟨l, y, by rw [hback, List.append_assoc]⟩

/-- What begins behind a blank front is not dropped with it. -/
theorem infix_dropWhile (hc : p c = false) (h : c :: cs <:+: a) : c :: cs <:+: a.dropWhile p := by
  rw [← List.takeWhile_append_dropWhile (p := p) (l := a)] at h
  refine infix_of_notMem_front (fun hmem => ?_) h
  rw [List.mem_takeWhile_imp hmem] at hc
  cases hc

/-- Trimming keeps what no blank begins or ends. -/
theorem Solid.infix_trimWith (hcs : Solid cs) (h : cs <:+: a) : cs <:+: trimWith isBlank a := by
  obtain ⟨⟨c, hhead, hc⟩, ⟨d, hlast, hd⟩⟩ := hcs
  obtain ⟨rest, rfl⟩ := List.head?_eq_some_iff.1 hhead
  have hfront := infix_dropWhile hc h
  obtain ⟨init, hinit⟩ := List.getLast?_eq_some_iff.1 hlast
  have hback : (c :: rest).reverse <:+: (a.dropWhile isBlank).reverse.dropWhile isBlank := by
    rw [hinit, List.reverse_concat]
    refine infix_dropWhile hd ?_
    rw [← List.reverse_concat, ← hinit]
    exact List.reverse_infix.2 hfront
  rw [trimWith, dropEndWhile_eq_rdropWhile, List.rdropWhile]
  exact List.reverse_infix.1 (by rwa [List.reverse_reverse])

end Ends

/-! ### Words around a text -/

section Words

variable {a cs current : List Char} {c : Char}

/-- Words with single spaces between them. -/
def spaced (words : List (List Char)) : List Char := [' '].intercalate words

theorem spaced_cons {word : List Char} {words : List (List Char)} (h : words ≠ []) :
    spaced (word :: words) = word ++ ' ' :: spaced words := by
  cases words with
  | nil => exact absurd rfl h
  | cons next words => simp [spaced, List.intercalate_cons_cons]

theorem prefix_spaced_cons (word : List Char) (words : List (List Char)) : word <+: spaced (word :: words) := by
  cases words with
  | nil => simp [spaced]
  | cons next words =>
    rw [spaced_cons (List.cons_ne_nil next words)]
    exact List.prefix_append word _

/-- There is a word if one has been begun, or one is still to begin. -/
theorem go_ne_nil (h : current ≠ [] ∨ ∃ c ∈ cs, isBlank c = false) : wordsWith.go isBlank current cs ≠ [] := by
  induction cs generalizing current with
  | nil =>
    obtain h | ⟨c, hc, -⟩ := h
    · simp [wordsWith.go, h]
    · cases hc
  | cons c cs ih =>
    rw [wordsWith.go]
    split
    · split
      · rename_i hc hcurrent
        obtain ⟨d, hd, hblank⟩ := h.resolve_left (by simpa using hcurrent)
        refine ih (.inr ⟨d, (List.mem_cons.1 hd).resolve_left ?_, hblank⟩)
        rintro rfl
        rw [hc] at hblank
        cases hblank
      · exact List.cons_ne_nil _ _
    · exact ih (.inl (List.cons_ne_nil _ _))

/-- What has been read of a word stands at the front. -/
theorem spaced_go_current (hcurrent : current ≠ []) (cs : List Char) :
    spaced (wordsWith.go isBlank (current ++ a) cs) = a.reverse ++ spaced (wordsWith.go isBlank current cs) := by
  induction cs generalizing current with
  | nil => simp [wordsWith.go, hcurrent, spaced]
  | cons c cs ih =>
    by_cases hc : isBlank c = true
    · simp only [wordsWith.go, hc, if_true, List.isEmpty_iff, hcurrent, List.append_eq_nil_iff, false_and, if_false]
      cases hwords : wordsWith.go isBlank [] cs with
      | nil => simp [spaced]
      | cons word words => simp [spaced_cons]
    · simp only [wordsWith.go, hc, if_false, Bool.false_eq_true]
      exact ih (List.cons_ne_nil c current)

/-- A word that has been begun comes first. -/
theorem prefix_spaced_go (hcurrent : current ≠ []) (cs : List Char) :
    current.reverse <+: spaced (wordsWith.go isBlank current cs) := by
  induction cs generalizing current with
  | nil => simp [wordsWith.go, hcurrent, spaced]
  | cons c cs ih =>
    rw [wordsWith.go]
    split
    · rw [if_neg (by simpa using hcurrent)]
      exact prefix_spaced_cons _ _
    · have hlonger := ih (List.cons_ne_nil c current)
      rw [List.reverse_cons] at hlonger
      exact (List.prefix_append _ _).trans hlonger

/-- What stands in front of a word does not change the rest. -/
theorem spaced_go_front (hc : isBlank c = false) (current front cs : List Char) :
    spaced (wordsWith isBlank (c :: cs)) <:+ spaced (wordsWith.go isBlank current (front ++ c :: cs)) := by
  induction front generalizing current with
  | nil =>
    rw [List.nil_append, wordsWith, wordsWith.go, wordsWith.go, if_neg (by simp [hc]), if_neg (by simp [hc])]
    have hword := spaced_go_current (a := current) (List.cons_ne_nil c []) cs
    exact hword ▸ List.suffix_append _ _
  | cons d front ih =>
    rw [List.cons_append, wordsWith.go]
    split
    · split
      · exact ih []
      · rw [spaced_cons (go_ne_nil (.inr ⟨c, by simp, hc⟩)), List.append_cons]
        exact (ih []).trans (List.suffix_append _ _)
    · exact ih (d :: current)

/-- What stands behind a word does not change what is before it. -/
theorem spaced_go_back (hc : isBlank c = false) (current cs back : List Char) :
    spaced (wordsWith.go isBlank current (cs ++ [c])) <+: spaced (wordsWith.go isBlank current (cs ++ c :: back)) := by
  induction cs generalizing current with
  | nil =>
    have hword := prefix_spaced_go (List.cons_ne_nil c current) back
    simpa [wordsWith.go, hc, spaced] using hword
  | cons d cs ih =>
    rw [List.cons_append, List.cons_append, wordsWith.go, wordsWith.go]
    split
    · split
      · exact ih []
      · rw [spaced_cons (go_ne_nil (.inr ⟨c, by simp, hc⟩)), spaced_cons (go_ne_nil (.inr ⟨c, by simp, hc⟩))]
        exact List.prefix_append_right_inj _ |>.2 (List.cons_prefix_cons.2 ⟨rfl, ih []⟩)
    · exact ih (d :: current)

end Words

/-- Blanks in a text and around it are collapsed alike. -/
theorem Solid.infix_collapseBlanks {cs : List Char} (h : Solid cs) (a b : List Char) :
    (collapseBlanks (String.ofList cs)).toList <:+: (collapseBlanks (String.ofList (a ++ (cs ++ b)))).toList := by
  obtain ⟨⟨c, hhead, hc⟩, ⟨d, hlast, hd⟩⟩ := h
  simp only [toList_collapseBlanks, String.toList_ofList]
  have hback : spaced (wordsWith isBlank cs) <+: spaced (wordsWith isBlank (cs ++ b)) := by
    obtain ⟨init, rfl⟩ := List.getLast?_eq_some_iff.1 hlast
    rw [← List.append_cons]
    exact spaced_go_back hd [] init b
  have hfront : spaced (wordsWith isBlank (cs ++ b)) <:+ spaced (wordsWith isBlank (a ++ (cs ++ b))) := by
    obtain ⟨rest, rfl⟩ := List.head?_eq_some_iff.1 hhead
    exact spaced_go_front hc [] a (rest ++ b)
  exact hback.isInfix.trans hfront.isInfix

/-- Collapsing leaves the ends of a text. -/
theorem ends_collapseBlanks {s : String} {c d : Char} (hhead : s.toList.head? = some c) (hc : isBlank c = false)
    (hlast : s.toList.getLast? = some d) (hd : isBlank d = false) :
    (collapseBlanks s).toList.head? = some c ∧ (collapseBlanks s).toList.getLast? = some d := by
  rw [toList_collapseBlanks]
  constructor
  · obtain ⟨rest, hchars⟩ := List.head?_eq_some_iff.1 hhead
    obtain ⟨back, hback⟩ := prefix_spaced_go (List.cons_ne_nil c []) rest
    have hwords : wordsWith isBlank s.toList = wordsWith.go isBlank [c] rest := by
      rw [hchars, wordsWith, wordsWith.go, if_neg (by simp [hc])]
    rw [hwords]
    exact List.head?_eq_some_iff.2 ⟨back, hback.symm⟩
  · obtain ⟨init, hchars⟩ := List.getLast?_eq_some_iff.1 hlast
    obtain ⟨front, hfront⟩ := spaced_go_front hd [] init []
    have hword : spaced (wordsWith isBlank [d]) = [d] := by simp [wordsWith, wordsWith.go, hd, spaced]
    rw [hword] at hfront
    rw [hchars]
    exact List.getLast?_eq_some_iff.2 ⟨front, hfront.symm⟩

/-! ### Single spaces -/

/-- Words have no blanks, and are not empty. -/
theorem mem_wordsWith_go {cs current word : List Char} (hcurrent : ∀ c ∈ current, isBlank c = false)
    (h : word ∈ wordsWith.go isBlank current cs) : word ≠ [] ∧ ∀ c ∈ word, isBlank c = false := by
  have hread : current.isEmpty = false → current.reverse ≠ [] ∧ ∀ c ∈ current.reverse, isBlank c = false :=
    fun hne => ⟨by simpa using hne, fun c hc => hcurrent c (List.mem_reverse.1 hc)⟩
  have hnone : ∀ c ∈ ([] : List Char), isBlank c = false := List.forall_mem_nil _
  induction cs generalizing current with
  | nil =>
    rw [wordsWith.go] at h
    split at h
    · cases h
    · rename_i hne
      exact List.mem_singleton.1 h ▸ hread (by simpa using hne)
  | cons c cs ih =>
    rw [wordsWith.go] at h
    split at h
    · split at h
      · exact ih hnone h Bool.noConfusion
      · rename_i hne
        rcases List.mem_cons.1 h with rfl | h
        · exact hread (by simpa using hne)
        · exact ih hnone h Bool.noConfusion
    · rename_i hc
      have hlonger : ∀ d ∈ c :: current, isBlank d = false :=
        List.forall_mem_cons.2 ⟨by simpa using hc, hcurrent⟩
      exact ih hlonger h fun _ => ⟨by simp, fun d hd => hlonger d (List.mem_reverse.1 hd)⟩

/-- A text without blanks is single-spaced. -/
theorem singleSpaced_of_noBlank {cs : List Char} (h : ∀ c ∈ cs, isBlank c = false) : SingleSpaced cs := by
  have hspace : ' ' ∉ cs := fun hmem => absurd (h ' ' hmem) (by decide)
  refine ⟨fun c hc hblank => ?_, fun hpart => ?_, fun hhead => ?_, fun hlast => ?_⟩
  · rw [h c hc] at hblank
    cases hblank
  · exact hspace (hpart.subset List.mem_cons_self)
  · exact hspace (List.mem_of_head? hhead)
  · exact hspace (List.mem_of_getLast? hlast)

/-- Words with single spaces between them are single-spaced. -/
theorem singleSpaced_spaced {words : List (List Char)}
    (h : ∀ word ∈ words, word ≠ [] ∧ ∀ c ∈ word, isBlank c = false) : SingleSpaced (spaced words) := by
  induction words with
  | nil => exact singleSpaced_of_noBlank (List.forall_mem_nil _)
  | cons word words ih =>
    obtain ⟨⟨hne, hword⟩, hwords⟩ := List.forall_mem_cons.1 h
    cases words with
    | nil => simpa [spaced] using singleSpaced_of_noBlank hword
    | cons next words =>
      have hrest := ih hwords
      have hspace : ' ' ∉ word := fun hmem => absurd (hword ' ' hmem) (by decide)
      have hrestNe : spaced (next :: words) ≠ [] := by
        intro hnil
        have hnext := prefix_spaced_cons next words
        rw [hnil] at hnext
        exact (hwords next List.mem_cons_self).1 (List.prefix_nil.1 hnext)
      rw [spaced_cons (List.cons_ne_nil next words)]
      generalize spaced (next :: words) = rest at hrest hrestNe
      refine ⟨fun c hc hblank => ?spaces, fun hpart => ?apart, fun hhead => ?begins, fun hlast => ?ends⟩
      case spaces =>
        rcases List.mem_append.1 hc with hc | hc
        · rw [hword c hc] at hblank
          cases hblank
        · exact (List.mem_cons.1 hc).elim id fun hc => hrest.spaces c hc hblank
      case apart =>
        rcases List.infix_cons_iff.1 (infix_of_notMem_front hspace hpart) with ⟨back, hback⟩ | hpart
        · exact hrest.head (by rw [← (List.cons.inj hback).2]; rfl)
        · exact hrest.apart hpart
      case begins =>
        obtain ⟨c, cs, rfl⟩ := List.exists_cons_of_ne_nil hne
        rw [List.cons_append, List.head?_cons, Option.some_inj] at hhead
        exact hspace (hhead ▸ List.mem_cons_self)
      case ends =>
        refine hrest.last ?_
        rw [List.getLast?_append, List.getLast?_cons_of_ne_nil hrestNe, Option.or_eq_some_iff] at hlast
        exact hlast.resolve_right fun hnone => absurd (List.getLast?_eq_none_iff.1 hnone.1) hrestNe

theorem singleSpaced_collapseBlanks (s : String) : SingleSpaced (collapseBlanks s).toList := by
  rw [toList_collapseBlanks]
  have hnone : ∀ c ∈ ([] : List Char), isBlank c = false := List.forall_mem_nil _
  exact singleSpaced_spaced fun word hword => mem_wordsWith_go hnone hword

/-- Collapsing leaves exactly the texts with single spaces as they are. -/
theorem collapseBlanks_eq_self_iff {s : String} : collapseBlanks s = s ↔ SingleSpaced s.toList :=
  ⟨fun h => h ▸ singleSpaced_collapseBlanks s, SingleSpaced.collapseBlanks⟩

/-- A part of a single-spaced text, if no blank begins or ends it. -/
theorem SingleSpaced.of_part {cs a : List Char} (h : SingleSpaced a) (hcs : Solid cs) (hpart : cs <:+: a) :
    SingleSpaced cs := by
  obtain ⟨⟨c, hhead, hc⟩, ⟨d, hlast, hd⟩⟩ := hcs
  refine ⟨fun e he => h.spaces e (hpart.subset he), fun hspaces => h.apart (hspaces.trans hpart), fun hspace => ?_,
    fun hspace => ?_⟩
  · rw [Option.some.inj (hhead.symm.trans hspace)] at hc
    exact absurd hc (by decide)
  · rw [Option.some.inj (hlast.symm.trans hspace)] at hd
    exact absurd hd (by decide)

end Text

namespace Field

open Schema

/-! ## Quoted texts -/

/-- A text between quotes of either kind, the quotes with it. -/
def IsQuoted (cs : List Char) : Prop :=
  ∃ quote inside rest, (quote = '\'' ∨ quote = '"') ∧ cs = quote :: rest ∧ Closes quote inside rest

/-- A quoted text stands in a body: where it begins, no quote is open. -/
def Quotes (body literal : String) : Prop :=
  IsQuoted literal.toList ∧ ∃ front back, body.toList = front ++ (literal.toList ++ back) ∧
    (placeAfter front).quote = none

/-- Quotes are not blanks. -/
theorem isBlank_quote {quote : Char} (h : quote = '\'' ∨ quote = '"') : isBlank quote = false := by
  rcases h with rfl | rfl <;> decide

theorem IsQuoted.solid {cs : List Char} (h : IsQuoted cs) : Solid cs := by
  obtain ⟨quote, inside, rest, hquote, rfl, hrest⟩ := h
  have hlast : (quote :: rest).getLast? = some quote := by simp [List.getLast?_cons, hrest.getLast?]
  exact ⟨⟨quote, rfl, isBlank_quote hquote⟩, ⟨quote, hlast, isBlank_quote hquote⟩⟩

/-! ## The entry of a quoted text -/

/-- Nothing inside quotes cuts an entry. The induction follows the quoted text: a quote that stands twice closes it
and opens it again. -/
theorem cutEntries_closes {quote : Char} (hquote : quote = '\'' ∨ quote = '"') {inside rest : List Char}
    (h : Closes quote inside rest) (current cs : List Char) (depth : Nat) :
    cutEntries current depth (some quote) (rest ++ cs) = cutEntries (rest.reverse ++ current) depth none cs := by
  induction h generalizing current with
  | close => simp [cutEntries]
  | twice _ ih => simp [cutEntries, hquote, ih]
  | char hc _ ih => simp [cutEntries, hc, ih]

theorem cutEntries_isQuoted {literal : List Char} (h : IsQuoted literal) (current cs : List Char) (depth : Nat) :
    cutEntries current depth none (literal ++ cs) = cutEntries (literal.reverse ++ current) depth none cs := by
  obtain ⟨quote, inside, rest, hquote, rfl, hrest⟩ := h
  rw [List.cons_append, cutEntries]
  simp only [hquote, if_true, cutEntries_closes hquote hrest, List.reverse_cons, List.append_assoc,
    List.singleton_append]

theorem next_separator {c : Char} (h : c = ',' ∨ c = '\n' ∨ c = ';') : Place.next {} c = {} := by
  rcases h with rfl | rfl | rfl <;> rfl

/-- A quoted text is in one piece of its body. The induction is on what stands in front of it, `p` is where the scan
stands, and `current` has what has been read of an entry. -/
theorem exists_cutEntries {literal back : List Char} (hliteral : IsQuoted literal) (front current : List Char)
    (p : Place) (hopen : (front.foldl Place.next p).quote = none) :
    ∃ a b, a ++ (literal ++ b) ∈ cutEntries current p.depth p.quote (front ++ (literal ++ back)) := by
  induction front generalizing p current with
  | nil =>
    obtain ⟨depth, quote⟩ := p
    obtain rfl : quote = none := hopen
    rw [List.nil_append, cutEntries_isQuoted hliteral]
    have hfirst := cutEntries_current (literal.reverse ++ current) back ⟨depth, none⟩
    dsimp only at hfirst ⊢
    rw [hfirst, List.reverse_append, List.reverse_reverse]
    cases cutEntries [] depth none back with
    | nil => exact ⟨current.reverse, [], by simp [prepend]⟩
    | cons piece pieces => exact ⟨current.reverse, piece, by simp [prepend]⟩
  | cons c front ih =>
    rw [List.foldl_cons] at hopen
    by_cases hcut : p = {} ∧ (c = ',' ∨ c = '\n' ∨ c = ';')
    · obtain ⟨rfl, hc⟩ := hcut
      rw [next_separator hc] at hopen
      obtain ⟨a, b, hmem⟩ := ih [] {} hopen
      refine ⟨a, b, ?_⟩
      rw [List.cons_append, cutEntries_separator hc]
      exact List.mem_cons_of_mem _ hmem
    · have hnext : p = {} → c ≠ ',' ∧ c ≠ '\n' ∧ c ≠ ';' := by
        intro hp
        simpa [hp] using hcut
      rw [List.cons_append, cutEntries_next hnext]
      exact ih (c :: current) (p.next c) hopen

/-- What collapsing leaves of a quoted text has a quote at each end. -/
theorem IsQuoted.collapseBlanks {s : String} (h : IsQuoted s.toList) :
    ∃ quote rest, (quote = '\'' ∨ quote = '"') ∧ (collapseBlanks s).toList = quote :: rest ∧ Solid (quote :: rest) := by
  obtain ⟨quote, inside, rest, hquote, hchars, hrest⟩ := h
  have hblank := isBlank_quote hquote
  have hlast : s.toList.getLast? = some quote := by simp [hchars, List.getLast?_cons, hrest.getLast?]
  obtain ⟨hfirst, hend⟩ := ends_collapseBlanks (by rw [hchars]; rfl) hblank hlast hblank
  obtain ⟨rest', hchars'⟩ := List.head?_eq_some_iff.1 hfirst
  rw [hchars'] at hend
  exact ⟨quote, rest', hquote, hchars', ⟨quote, rfl, hblank⟩, ⟨quote, hend, hblank⟩⟩

/-- A quoted text of a body is in one of the entries, with its blanks collapsed. -/
theorem Quotes.exists_splitEntries {body literal : String} (h : Quotes body literal) :
    ∃ entry ∈ splitEntries body, (collapseBlanks literal).toList <:+: entry.toList := by
  obtain ⟨hliteral, front, back, hbody, hopen⟩ := h
  obtain ⟨a, b, hmem⟩ := @exists_cutEntries literal.toList back hliteral front [] {} hopen
  have hpart := hliteral.solid.infix_collapseBlanks a b
  rw [String.ofList_toList] at hpart
  refine ⟨_, List.mem_filter.2 ⟨List.mem_map_of_mem (hbody ▸ hmem), ?_⟩, hpart⟩
  obtain ⟨quote, rest, -, hchars, -⟩ := hliteral.collapseBlanks
  rw [Bool.not_eq_true', ← Bool.not_eq_true, String.isEmpty_iff]
  intro hempty
  rw [hempty, hchars] at hpart
  exact List.cons_ne_nil _ _ (List.infix_nil.1 hpart)

/-! ## The texts of a body -/

/-- The types of the fields, and the constraints. -/
def Body.texts (b : Body) : List String := b.fields.map (·.type) ++ b.constraints

/-- What an entry gives to a body: all of it if it is a constraint, and what follows its name if it is a field. -/
def textOf (entry : String) : String :=
  if isConstraintWord (cutName entry).1 then entry else (cutName entry).2

theorem addEntry_texts {owner entry : String} {body b : Body} (h : addEntry owner body entry = .ok b) :
    (isConstraintWord (cutName entry).1 = true ∨ isFieldName (cutName entry).1 = true) ∧
      ∀ text, text ∈ b.texts ↔ text ∈ body.texts ∨ text = textOf entry := by
  unfold addEntry at h
  unfold textOf
  dsimp only at h
  split at h
  · rename_i hword
    cases h
    refine ⟨.inl hword, fun text => ?_⟩
    simp [Body.texts, hword, or_assoc]
  rename_i hword
  split at h
  · cases h
  rename_i hname
  split at h
  · cases h
  split at h
  · cases h
  split at h
  · cases h
  cases h
  refine ⟨.inr (by simpa using hname), fun text => ?_⟩
  simp [Body.texts, hword, or_assoc, or_comm, or_left_comm]

/-- The texts of a body are those of its entries. -/
theorem foldlM_addEntry_texts {owner : String} {entries : List String} {body b : Body}
    (h : entries.foldlM (addEntry owner) body = .ok b) :
    (∀ entry ∈ entries, isConstraintWord (cutName entry).1 = true ∨ isFieldName (cutName entry).1 = true) ∧
      ∀ text, text ∈ b.texts ↔ text ∈ body.texts ∨ ∃ entry ∈ entries, text = textOf entry := by
  induction entries generalizing body with
  | nil =>
    cases h
    simp
  | cons entry entries ih =>
    rw [List.foldlM_cons] at h
    obtain ⟨body', hadd, h⟩ := except_bind_eq_ok.1 h
    obtain ⟨hentry, hfirst⟩ := addEntry_texts hadd
    obtain ⟨hentries, htexts⟩ := ih h
    refine ⟨List.forall_mem_cons.2 ⟨hentry, hentries⟩, fun text => ?_⟩
    simp [htexts, hfirst, or_assoc]

/-- The text of an entry is a part of it. -/
theorem infix_textOf (entry : String) : (textOf entry).toList <:+: entry.toList := by
  unfold textOf
  split
  · exact List.infix_rfl
  · simp only [cutName, trim, String.toList_ofList]
    exact (isInfix_trimWith _ _).trans (List.dropWhile_suffix _).isInfix

/-- What begins with a quote and ends without a blank is not in the name of an entry. -/
theorem infix_textOf_of_quote {entry : String} {quote : Char} {rest : List Char} (hquote : quote = '\'' ∨ quote = '"')
    (hsolid : Solid (quote :: rest))
    (hentry : isConstraintWord (cutName entry).1 = true ∨ isFieldName (cutName entry).1 = true)
    (h : quote :: rest <:+: entry.toList) : quote :: rest <:+: (textOf entry).toList := by
  unfold textOf
  split
  · exact h
  · rename_i hword
    have hname := hentry.resolve_left hword
    have hnot : quote ∉ (cutName entry).1.toList := by
      rcases hquote with rfl | rfl
      · exact notMem_of_isFieldName hname (by decide) (by decide) (by decide)
      · exact notMem_of_isFieldName hname (by decide) (by decide) (by decide)
    simp only [cutName, trim, String.toList_ofList] at hnot ⊢
    rw [← List.takeWhile_append_dropWhile (p := fun c => !(isBlank c || c == '(')) (l := entry.toList)] at h
    exact hsolid.infix_trimWith (infix_of_notMem_front hnot h)

section Texts

variable {owner body literal : String} {b : Body}

/-- A quoted text of a body is in one of its texts, with its blanks collapsed. -/
theorem quoted_in_texts (hbody : parseBody owner body = .ok b) (h : Quotes body literal) :
    ∃ text ∈ b.texts, (collapseBlanks literal).toList <:+: text.toList := by
  obtain ⟨entry, hentry, hpart⟩ := h.exists_splitEntries
  obtain ⟨hentries, htexts⟩ := foldlM_addEntry_texts hbody
  obtain ⟨quote, rest, hquote, hchars, hsolid⟩ := h.1.collapseBlanks
  refine ⟨textOf entry, (htexts _).2 (.inr ⟨entry, hentry, rfl⟩), ?_⟩
  rw [hchars] at hpart ⊢
  exact infix_textOf_of_quote hquote hsolid (hentries entry hentry) hpart

/-- What is in a text of a body is in an entry, where all blanks have been collapsed. -/
theorem singleSpaced_of_texts (hbody : parseBody owner body = .ok b) {cs : List Char} (hcs : Solid cs) {text : String}
    (htext : text ∈ b.texts) (hpart : cs <:+: text.toList) : SingleSpaced cs := by
  obtain ⟨-, htexts⟩ := foldlM_addEntry_texts hbody
  obtain ⟨entry, hentry, rfl⟩ := ((htexts text).1 htext).resolve_left fun hnil => nomatch hnil
  obtain ⟨piece, -, rfl⟩ := List.mem_map.1 (List.mem_filter.1 hentry).1
  exact (singleSpaced_collapseBlanks _).of_part hcs (hpart.trans (infix_textOf _))

end Texts

end Field

/-! ## Statements -/

namespace Schema

open GuardedConfig.Field

theorem infix_joinWith {sep part : String} {parts : List String} (h : part ∈ parts) :
    part.toList <:+: (joinWith sep parts).toList := by
  unfold joinWith
  induction parts with
  | nil => cases h
  | cons first parts ih =>
    cases parts with
    | nil =>
      obtain rfl := List.mem_singleton.1 h
      simp
    | cons next parts =>
      rw [String.intercalate_cons_cons, String.toList_append, String.toList_append]
      rcases List.mem_cons.1 h with rfl | h
      · exact ((List.prefix_append _ _).trans (List.prefix_append _ _)).isInfix
      · exact (ih h).trans (List.suffix_append _ _).isInfix

variable {owner body literal : String} {b : Body} {t : Table}

/-- The statement that creates a table has the types of its columns and its constraints. -/
theorem Table.infix_createText {text : String} (h : text ∈ t.columns.map (·.type) ++ t.constraints) :
    text.toList <:+: t.createText.toList := by
  have hlines : (joinWith ",\n    " t.lines).toList <:+: t.createText.toList := by
    unfold Table.createText
    generalize joinWith ",\n    " t.lines = inside
    simp only [String.toList_append]
    exact List.infix_append _ _ _
  refine List.IsInfix.trans ?_ hlines
  rcases List.mem_append.1 h with hcolumn | hconstraint
  · obtain ⟨column, hmem, rfl⟩ := List.mem_map.1 hcolumn
    have hline : column.type.toList <:+: (Table.columnLine column).toList := by
      simp only [Table.columnLine, String.toList_append]
      exact (List.suffix_append _ _).isInfix
    exact hline.trans (infix_joinWith (by simp [Table.lines, List.mem_map_of_mem hmem]))
  · exact infix_joinWith (by simp [Table.lines, hconstraint])

/-- The statement for a struct or an instance has all texts of the body. -/
theorem Table.HasBody.infix_createText (h : t.HasBody body) (hbody : parseBody t.name body = .ok b) {text : String}
    (htext : text ∈ b.texts) : text.toList <:+: t.createText.toList := by
  obtain ⟨parsed, hparsed, hcolumns, hconstraints, -⟩ := h
  cases hbody.symm.trans hparsed
  refine Table.infix_createText ?_
  rw [hcolumns, hconstraints, List.map_map]
  exact htext

/-- The statement for a config has all texts of its body but the types of references and lists. -/
theorem Table.Follows.infix_createText {slots : List Slot} (h : t.Follows b slots) {text : String}
    (htext : text ∈ b.texts) : text.toList <:+: t.createText.toList ∨
      ∃ field ∈ b.fields, field.type = text ∧ ∃ slot ∈ slots, slot.field = field.name ∧ slot.target?.isSome = true := by
  rcases List.mem_append.1 htext with htype | hconstraint
  · obtain ⟨field, hfield, rfl⟩ := List.mem_map.1 htype
    have hfields : (b.fields.zip slots).map Prod.fst = b.fields := List.map_fst_zip h.suits.length_eq.le
    rw [← hfields] at hfield
    obtain ⟨⟨field, slot⟩, hpair, rfl⟩ := List.mem_map.1 hfield
    have hfield := (List.of_mem_zip hpair).1
    have hslot := (List.of_mem_zip hpair).2
    have hsuits : Slot.Suits field slot := List.forall₂_iff_zip.1 h.suits |>.2 hpair
    cases hstorage : slot.storage with
    | scalar table column =>
      have hcolumn : (⟨column, field.type⟩ : Column) ∈ t.columns := by
        rw [h.columns]
        exact List.mem_filterMap.2 ⟨_, hpair, by simp [Slot.columnFor?, hstorage]⟩
      exact .inl (Table.infix_createText (List.mem_append_left _ (List.mem_map.2 ⟨_, hcolumn, rfl⟩)))
    | reference table column target =>
      exact .inr ⟨field, hfield, rfl, slot, hslot, hsuits.1, by simp [Slot.target?, hstorage]⟩
    | list table item scalarItems =>
      exact .inr ⟨field, hfield, rfl, slot, hslot, hsuits.1, by simp [Slot.target?, hstorage]⟩
  · exact .inl (Table.infix_createText (List.mem_append_right _ (h.constraints ▸ hconstraint)))

/-- **Quoted text is kept up to its blanks.** A quoted text of a body is in a field type or a constraint with each
stretch of its blanks as one space, and as it is exactly if all its blanks are single spaces. The statement that creates
the table has it as the body has: that of a struct or an instance always, and that of a config unless it is in the type
of a field that has no column of this type, because it is stored in another table. -/
theorem quoted_text_kept (hbody : parseBody owner body = .ok b) (hliteral : Quotes body literal) :
    (∃ text ∈ b.texts, (collapseBlanks literal).toList <:+: text.toList) ∧
    ((∃ text ∈ b.texts, literal.toList <:+: text.toList) ↔ SingleSpaced literal.toList) ∧
    (∀ t, structTable owner body = .ok t → (collapseBlanks literal).toList <:+: t.createText.toList) ∧
    ∀ ds s, compile ds = .ok s → ⟨owner, body⟩ ∈ ds.configs → ∃ t ∈ s.tables, t.name = owner ∧
      ((collapseBlanks literal).toList <:+: t.createText.toList ∨
        ∃ field ∈ b.fields, (collapseBlanks literal).toList <:+: field.type.toList ∧
          ∃ slot ∈ s.slotsOf owner, slot.field = field.name ∧ slot.target?.isSome = true) := by
  obtain ⟨text, htext, hpart⟩ := quoted_in_texts hbody hliteral
  refine ⟨⟨text, htext, hpart⟩, ⟨?kept, fun hspaced => ?spaced⟩, fun t ht => ?struct, fun ds s hok hdecl => ?config⟩
  case kept =>
    rintro ⟨text, htext, hpart⟩
    exact singleSpaced_of_texts hbody hliteral.1.solid htext hpart
  case spaced => exact ⟨text, htext, hspaced.collapseBlanks ▸ hpart⟩
  case struct =>
    have hname : t.name = owner := (structTable_eq_ok ht).1
    subst hname
    exact hpart.trans ((structTable_hasBody ht).infix_createText hbody htext)
  case config =>
    obtain ⟨b', hbody', t, ht, hname, hfollows⟩ := (formed_of_compile hok).tables _ hdecl
    cases hbody.symm.trans hbody'
    refine ⟨t, ht, hname, (hfollows.infix_createText htext).imp hpart.trans ?_⟩
    rintro ⟨field, hfield, rfl, hslot⟩
    exact ⟨field, hfield, hpart, hslot⟩

/-- A default with separators and a quote that is meant, and a constant in a constraint. -/
def noteBody : String := "text TEXT DEFAULT 'it''s (a, b; c', CHECK (text <> \"none\")"

theorem quoted_text_kept_note :
    parseBody "Note" noteBody =
      .ok ⟨[⟨"text", "TEXT DEFAULT 'it''s (a, b; c'"⟩], ["CHECK (text <> \"none\")"]⟩ ∧
    Quotes noteBody "'it''s (a, b; c'" ∧
    ∃ text ∈ ["TEXT DEFAULT 'it''s (a, b; c'", "CHECK (text <> \"none\")"],
      "'it''s (a, b; c'".toList <:+: text.toList := by
  have hbody : parseBody "Note" noteBody =
      .ok ⟨[⟨"text", "TEXT DEFAULT 'it''s (a, b; c'"⟩], ["CHECK (text <> \"none\")"]⟩ := by decide +kernel
  have hchars : "it''s (a, b; c'".toList = "it".toList ++ '\'' :: '\'' :: ("s (a, b; c".toList ++ ['\'']) := by
    decide +kernel
  have hcloses : ∃ inside, Closes '\'' inside "it''s (a, b; c'".toList := by
    rw [hchars]
    exact ⟨_, .append (by decide +kernel) (.twice (.append (by decide +kernel) .close))⟩
  obtain ⟨inside, hcloses⟩ := hcloses
  have hquotes : Quotes noteBody "'it''s (a, b; c'" :=
    ⟨⟨'\'', _, _, .inl rfl, rfl, hcloses⟩, "text TEXT DEFAULT ".toList, ", CHECK (text <> \"none\")".toList,
      by decide +kernel, by decide +kernel⟩
  exact ⟨hbody, hquotes, (quoted_text_kept hbody hquotes).2.1.2 (by decide +kernel)⟩

/-- Two spaces between quotes become one, in the body and in the statement. -/
theorem quoted_spaces_collapse :
    Quotes "x TEXT DEFAULT 'a  b'" "'a  b'" ∧
    parseBody "S" "x TEXT DEFAULT 'a  b'" = .ok ⟨[⟨"x", "TEXT DEFAULT 'a b'"⟩], []⟩ ∧
    ¬ (∃ text ∈ ["TEXT DEFAULT 'a b'"], "'a  b'".toList <:+: text.toList) ∧
    ∃ t, structTable "S" "x TEXT DEFAULT 'a  b'" = .ok t ∧ ¬ "'a  b'".toList <:+: t.createText.toList := by
  have hcloses : Closes '\'' _ ("a  b".toList ++ ['\'']) := .append (by decide +kernel) .close
  refine ⟨⟨⟨'\'', _, _, .inl rfl, by decide +kernel, hcloses⟩, "x TEXT DEFAULT ".toList, [], ?_, ?_⟩, ?_, ?_,
    { name := "S", columns := [⟨"x", "TEXT DEFAULT 'a b'"⟩] }, ?_, ?_⟩ <;> decide +kernel

end Schema

end GuardedConfig
