import GuardedConfig.Field.Body
import GuardedConfig.Proofs.Catalog
import GuardedConfig.Proofs.Pieces

/-!
# `Proofs.Bodies` — reading back a body that was written

A body is written from its entries: each as one line of words with single blanks, and between any two of them a
gap of separators and white space. Reading it gives the fields and the constraints again, each in order. An entry
may hold separators of its own as long as they stand in quotes or parentheses; which they are is said by a scan of
the entry on its own (`Place`).

## Contents

* `SingleSpaced` — texts that collapsing leaves as they are
* `Place`, `Closed` — where a scan stands, and texts that no separator cuts
* `rawEntries`, `tidy` — the pieces of a body, and the entries that they are
* `IsGap`, `Separates`, `tidy_gap`, `tidy_entry_gap` — what may stand between entries, and what it ends
* `Entry`, `Entry.WellFormed`, `addEntry_text` — entries, and how one is added
* `write`, `Writable`, `parseBody_write` — bodies that are written from entries, and what they are read as
-/

namespace GuardedConfig

open Text Schema

/-! ## Words -/

namespace Text

section Words

variable {p : Char → Bool} {a : List Char} {c : Char}

theorem wordsWith_cons (hc : p c) : wordsWith p (c :: a) = wordsWith p a := by
  simp [wordsWith, wordsWith.go, hc]

theorem wordsWith_concat (hc : p c) : wordsWith p (a ++ [c]) = wordsWith p a := by
  unfold wordsWith
  suffices hgo : ∀ current, wordsWith.go p current (a ++ [c]) = wordsWith.go p current a from hgo []
  induction a with
  | nil =>
    intro current
    simp [wordsWith.go, hc]
  | cons b a ih =>
    intro current
    simp only [List.cons_append, wordsWith.go, ih]

end Words

/-- Texts whose only blanks are single spaces, between other characters. -/
structure SingleSpaced (cs : List Char) : Prop where
  spaces : ∀ c ∈ cs, isBlank c → c = ' '
  apart : ¬[' ', ' '] <:+: cs
  head : cs.head? ≠ some ' '
  last : cs.getLast? ≠ some ' '

instance (cs : List Char) : Decidable (SingleSpaced cs) :=
  decidable_of_iff ((∀ c ∈ cs, isBlank c → c = ' ') ∧ ¬[' ', ' '] <:+: cs ∧ cs.head? ≠ some ' ' ∧
      cs.getLast? ≠ some ' ')
    ⟨fun ⟨spaces, apart, head, last⟩ => ⟨spaces, apart, head, last⟩, fun h => ⟨h.spaces, h.apart, h.head, h.last⟩⟩

theorem isBlank_space : isBlank ' ' = true := by decide

namespace SingleSpaced

variable {c : Char} {cs front back : List Char}

theorem isBlank_eq_false (h : SingleSpaced cs) (hc : c ∈ cs) (hne : c ≠ ' ') : isBlank c = false := by
  by_contra hblank
  exact hne (h.spaces c hc (by simpa using hblank))

/-- After each space there is more text, and no blank at its ends. -/
theorem after_space (h : SingleSpaced (front ++ ' ' :: back)) :
    back ≠ [] ∧ (∀ c ∈ back.head?, isBlank c = false) ∧ ∀ c ∈ back.getLast?, isBlank c = false := by
  refine ⟨?_, fun c hc => ?_, fun c hc => ?_⟩
  · rintro rfl
    exact h.last (by simp)
  · obtain ⟨rest, rfl⟩ := List.head?_eq_some_iff.1 hc
    refine h.isBlank_eq_false (by simp) ?_
    rintro rfl
    exact h.apart ⟨front, rest, by simp⟩
  · refine h.isBlank_eq_false (by simp [List.mem_of_getLast? hc]) ?_
    rintro rfl
    apply h.last
    rw [List.getLast?_append, List.getLast?_cons, hc]
    rfl

end SingleSpaced

/-- Words that are put together with spaces give the text again. The induction is on the rest of the text, and
`current` has the word that is being read. -/
theorem intercalate_wordsWith_go {cs current : List Char} (hspaces : ∀ c ∈ cs, isBlank c → c = ' ')
    (hapart : ¬[' ', ' '] <:+: cs) (hlast : cs.getLast? ≠ some ' ') (hhead : current = [] → cs.head? ≠ some ' ') :
    [' '].intercalate (wordsWith.go isBlank current cs) = current.reverse ++ cs := by
  induction cs generalizing current with
  | nil =>
    cases current with
    | nil => rfl
    | cons d current => simp [wordsWith.go]
  | cons c cs ih =>
    have hspaces' : ∀ d ∈ cs, isBlank d → d = ' ' := fun d hd => hspaces d (List.mem_cons_of_mem _ hd)
    have hapart' : ¬[' ', ' '] <:+: cs := fun h => hapart (h.trans (List.suffix_cons c cs).isInfix)
    by_cases hc : isBlank c = true
    · obtain rfl := hspaces c List.mem_cons_self hc
      have hcurrent : current ≠ [] := fun he => hhead he rfl
      -- The space ends a word, so another word must follow it.
      obtain ⟨d, rest, rfl⟩ : ∃ d rest, cs = d :: rest := by
        cases cs with
        | nil => exact absurd rfl hlast
        | cons d rest => exact ⟨d, rest, rfl⟩
      have hd : d ≠ ' ' := by
        rintro rfl
        exact hapart (List.prefix_append [' ', ' '] rest).isInfix
      have hrest : [' '].intercalate (wordsWith.go isBlank [] (d :: rest)) = d :: rest :=
        ih hspaces' hapart' (by simpa using hlast) fun _ h => hd (Option.some.inj h)
      have hgo : wordsWith.go isBlank current (' ' :: d :: rest) =
          current.reverse :: wordsWith.go isBlank [] (d :: rest) := by
        rw [wordsWith.go, if_pos hc, if_neg (by simpa using hcurrent)]
      rw [hgo]
      cases hwords : wordsWith.go isBlank [] (d :: rest) with
      | nil =>
        rw [hwords] at hrest
        cases hrest
      | cons word words =>
        rw [List.intercalate_cons_cons, ← hwords, hrest]
        simp
    · have hgo : wordsWith.go isBlank current (c :: cs) = wordsWith.go isBlank (c :: current) cs := by
        rw [wordsWith.go, if_neg hc]
      have hlast' : cs.getLast? ≠ some ' ' := by
        intro h
        apply hlast
        rw [List.getLast?_cons, h]
        rfl
      rw [hgo, ih hspaces' hapart' hlast' fun h => absurd h (List.cons_ne_nil c current)]
      simp

theorem toList_collapseBlanks (s : String) :
    (collapseBlanks s).toList = [' '].intercalate (wordsWith isBlank s.toList) := by
  simp [collapseBlanks, joinWith, blankWords, String.toList_intercalate, List.map_map, Function.comp_def]

theorem SingleSpaced.collapseBlanks {s : String} (h : SingleSpaced s.toList) : collapseBlanks s = s := by
  apply String.toList_injective
  rw [toList_collapseBlanks, wordsWith, intercalate_wordsWith_go h.spaces h.apart h.last fun _ => h.head]
  rfl

end Text

namespace Field

/-! ## Scanning an entry -/

/-- Where a scan stands: the parentheses and the quote that are open. -/
structure Place where
  depth : Nat := 0
  quote : Option Char := none
deriving DecidableEq, Repr

/-- Where a scan stands after one more character. A closing parenthesis that nothing opened is passed over. -/
def Place.next (p : Place) (c : Char) : Place :=
  match p.quote with
  | some q => if c = q then { p with quote := none } else p
  | none =>
    if c = '\'' ∨ c = '"' then { p with quote := some c }
    else if c = '(' then { p with depth := p.depth + 1 }
    else if c = ')' then { p with depth := p.depth - 1 }
    else p

/-- Where a scan stands after a text. -/
def placeAfter (cs : List Char) : Place := cs.foldl Place.next {}

/-- A text that is scanned on its own has commas and semicolons only inside quotes and parentheses, and leaves
none of these open. -/
structure Closed (cs : List Char) : Prop where
  inside : ∀ i (_ : i < cs.length), cs[i] = ',' ∨ cs[i] = ';' → placeAfter (cs.take i) ≠ {}
  ends : placeAfter cs = {}

instance (cs : List Char) : Decidable (Closed cs) :=
  decidable_of_iff ((∀ i (_ : i < cs.length), cs[i] = ',' ∨ cs[i] = ';' → placeAfter (cs.take i) ≠ {}) ∧
      placeAfter cs = {})
    ⟨fun ⟨inside, ends⟩ => ⟨inside, ends⟩, fun h => ⟨h.inside, h.ends⟩⟩

theorem placeAfter_concat (cs : List Char) (c : Char) : placeAfter (cs ++ [c]) = (placeAfter cs).next c := by
  rw [placeAfter, List.foldl_append]
  rfl

/-- A character that does not cut an entry is added to it. -/
theorem cutEntries_next {p : Place} {c : Char} (h : p = {} → c ≠ ',' ∧ c ≠ '\n' ∧ c ≠ ';') (current cs : List Char) :
    cutEntries current p.depth p.quote (c :: cs) = cutEntries (c :: current) (p.next c).depth (p.next c).quote cs := by
  obtain ⟨depth, quote⟩ := p
  cases quote with
  | some q =>
    simp only [cutEntries, Place.next]
    split <;> rfl
  | none =>
    simp only [cutEntries, Place.next]
    split
    · rfl
    split
    · rfl
    split
    · rfl
    rw [if_neg]
    rintro ⟨rfl, hc⟩
    obtain ⟨hcomma, hline, hsemicolon⟩ := h rfl
    exact hc.elim hcomma fun hc => hc.elim hline hsemicolon

/-- A separator outside quotes and parentheses ends an entry. -/
theorem cutEntries_separator {c : Char} (h : c = ',' ∨ c = '\n' ∨ c = ';') (current cs : List Char) :
    cutEntries current 0 none (c :: cs) = current.reverse :: cutEntries [] 0 none cs := by
  rcases h with rfl | rfl | rfl <;> rfl

/-- The scan of a closed text without line breaks goes to its end. -/
theorem cutEntries_closed {text : List Char} (h : Closed text) (hline : '\n' ∉ text) (rest : List Char) :
    cutEntries [] 0 none (text ++ rest) = cutEntries text.reverse 0 none rest := by
  suffices hgen : ∀ after before, text = before ++ after →
      cutEntries before.reverse (placeAfter before).depth (placeAfter before).quote (after ++ rest) =
        cutEntries text.reverse 0 none rest from hgen text [] rfl
  intro after
  induction after with
  | nil =>
    rintro before rfl
    rw [List.append_nil] at h ⊢
    rw [h.ends]
    rfl
  | cons c after ih =>
    intro before htext
    have hnext : placeAfter before = {} → c ≠ ',' ∧ c ≠ '\n' ∧ c ≠ ';' := by
      intro hplace
      have hinside := h.inside before.length (by simp [htext])
      simp only [htext, List.getElem_append_right (Nat.le_refl _), Nat.sub_self, List.getElem_cons_zero,
        List.take_left, hplace, ne_eq, not_true_eq_false, imp_false, not_or] at hinside
      refine ⟨hinside.1, ?_, hinside.2⟩
      rintro rfl
      exact hline (by simp [htext])
    rw [List.cons_append, cutEntries_next hnext, ← placeAfter_concat, ← List.reverse_concat]
    exact ih (before ++ [c]) (by simp [htext])

/-! ## Pieces -/

/-- The pieces with `a` at the front of the first. -/
def prepend (a : List Char) : List (List Char) → List (List Char)
  | [] => [a]
  | p :: ps => (a ++ p) :: ps

theorem prepend_append (a b : List Char) (ps : List (List Char)) : prepend (a ++ b) ps = prepend a (prepend b ps) := by
  cases ps <;> simp [prepend]

/-- What has been read of an entry stands at the front of the first piece. -/
theorem cutEntries_current (current cs : List Char) (p : Place) :
    cutEntries current p.depth p.quote cs = prepend current.reverse (cutEntries [] p.depth p.quote cs) := by
  induction cs generalizing current p with
  | nil => simp [cutEntries, prepend]
  | cons c cs ih =>
    by_cases hcut : p = {} ∧ (c = ',' ∨ c = '\n' ∨ c = ';')
    · obtain ⟨rfl, hc⟩ := hcut
      rw [cutEntries_separator hc, cutEntries_separator hc, prepend, List.reverse_nil, List.append_nil]
    · have hnext : p = {} → c ≠ ',' ∧ c ≠ '\n' ∧ c ≠ ';' := by
        intro hp
        simpa [hp] using hcut
      rw [cutEntries_next hnext, cutEntries_next hnext, ih (c :: current), ih [c], List.reverse_cons, prepend_append]
      rfl

/-- The pieces of a body, with their blanks. -/
def rawEntries (cs : List Char) : List (List Char) := cutEntries [] 0 none cs

theorem rawEntries_nil : rawEntries [] = [[]] := rfl

theorem rawEntries_separator {c : Char} (h : c = ',' ∨ c = '\n' ∨ c = ';') (cs : List Char) :
    rawEntries (c :: cs) = [] :: rawEntries cs :=
  cutEntries_separator h [] cs

theorem rawEntries_blank {c : Char} (hc : isBlank c) (hline : c ≠ '\n') (cs : List Char) :
    rawEntries (c :: cs) = prepend [c] (rawEntries cs) := by
  have hne : ∀ d, isBlank d = false → c ≠ d := by
    rintro d hd rfl
    exact absurd hc (by simp [hd])
  have hplace : Place.next {} c = {} := by
    simp [Place.next, hne '\'' (by decide), hne '"' (by decide), hne '(' (by decide), hne ')' (by decide)]
  have hnext := cutEntries_next (p := {}) (c := c)
    (fun _ => ⟨hne ',' (by decide), hline, hne ';' (by decide)⟩) [] cs
  rw [hplace] at hnext
  exact hnext.trans (cutEntries_current [c] cs {})

theorem rawEntries_closed {text : List Char} (h : Closed text) (hline : '\n' ∉ text) (rest : List Char) :
    rawEntries (text ++ rest) = prepend text (rawEntries rest) := by
  rw [rawEntries, cutEntries_closed h hline]
  exact (cutEntries_current text.reverse rest {}).trans (by rw [List.reverse_reverse]; rfl)

/-! ## Entries of pieces -/

/-- The entries that the pieces of a body are. -/
def tidy (pieces : List (List Char)) : List String :=
  (pieces.map fun e => collapseBlanks (String.ofList e)).filter (!·.isEmpty)

theorem splitEntries_eq (body : String) : splitEntries body = tidy (rawEntries body.toList) := rfl

section Tidy

variable {a : List Char} {c : Char} {ps : List (List Char)}

theorem collapseBlanks_cons (hc : isBlank c) :
    collapseBlanks (String.ofList (c :: a)) = collapseBlanks (String.ofList a) := by
  simp only [collapseBlanks, blankWords, String.toList_ofList, wordsWith_cons hc]

theorem collapseBlanks_concat (hc : isBlank c) :
    collapseBlanks (String.ofList (a ++ [c])) = collapseBlanks (String.ofList a) := by
  simp only [collapseBlanks, blankWords, String.toList_ofList, wordsWith_concat hc]

theorem tidy_empty (h : collapseBlanks (String.ofList a) = "") : tidy (a :: ps) = tidy ps := by
  simp [tidy, h]

theorem tidy_entry {text : String} (h : collapseBlanks (String.ofList a) = text) (htext : text ≠ "") :
    tidy (a :: ps) = text :: tidy ps := by
  simp [tidy, h, htext]

theorem tidy_prepend_blank (hc : isBlank c) : tidy (prepend [c] ps) = tidy ps := by
  cases ps with
  | nil => exact tidy_empty (collapseBlanks_cons hc)
  | cons p ps => simp only [prepend, tidy, List.singleton_append, List.map_cons, collapseBlanks_cons hc]

end Tidy

/-! ## Gaps -/

/-- What may stand before, between and after entries: white space, commas and semicolons. -/
def IsGap (cs : List Char) : Prop := ∀ c ∈ cs, isBlank c ∨ c = ',' ∨ c = ';'

/-- A gap between two entries has a comma, a line break or a semicolon. -/
def Separates (cs : List Char) : Prop := ∃ c ∈ cs, c = ',' ∨ c = '\n' ∨ c = ';'

instance (cs : List Char) : Decidable (IsGap cs) := List.decidableBAll (fun c => isBlank c ∨ c = ',' ∨ c = ';') cs

instance (cs : List Char) : Decidable (Separates cs) := List.decidableBEx (fun c => c = ',' ∨ c = '\n' ∨ c = ';') cs

section Gaps

variable {gap rest : List Char}

/-- A gap in front adds no entry. -/
theorem tidy_gap (hgap : IsGap gap) : tidy (rawEntries (gap ++ rest)) = tidy (rawEntries rest) := by
  induction gap with
  | nil => rfl
  | cons c gap ih =>
    have ih := ih fun d hd => hgap d (List.mem_cons_of_mem _ hd)
    rw [List.cons_append]
    by_cases hsep : c = ',' ∨ c = '\n' ∨ c = ';'
    · rw [rawEntries_separator hsep, tidy_empty rfl, ih]
    · obtain ⟨hcomma, hline, hsemicolon⟩ := by simpa only [not_or] using hsep
      have hc : isBlank c = true := (hgap c List.mem_cons_self).resolve_right (by simp [hcomma, hsemicolon])
      rw [rawEntries_blank hc hline, tidy_prepend_blank hc, ih]

/-- An entry that a gap ends, or the body does, is the entry of its own words. -/
theorem tidy_entry_gap {a : List Char} {text : String} (ha : collapseBlanks (String.ofList a) = text)
    (htext : text ≠ "") (hgap : IsGap gap) (hend : rest = [] ∨ Separates gap) :
    tidy (prepend a (rawEntries (gap ++ rest))) = text :: tidy (rawEntries rest) := by
  induction gap generalizing a with
  | nil =>
    obtain rfl : rest = [] := hend.resolve_right fun ⟨c, hc, _⟩ => nomatch hc
    rw [List.append_nil, rawEntries_nil, prepend, List.append_nil, tidy_entry ha htext, tidy_empty rfl]
  | cons c gap ih =>
    have hrest : IsGap gap := fun d hd => hgap d (List.mem_cons_of_mem _ hd)
    rw [List.cons_append]
    by_cases hsep : c = ',' ∨ c = '\n' ∨ c = ';'
    · rw [rawEntries_separator hsep, prepend, List.append_nil, tidy_entry ha htext, tidy_gap hrest]
    · obtain ⟨hcomma, hline, hsemicolon⟩ := by simpa only [not_or] using hsep
      have hc : isBlank c = true := (hgap c List.mem_cons_self).resolve_right (by simp [hcomma, hsemicolon])
      rw [rawEntries_blank hc hline, ← prepend_append]
      refine ih ((collapseBlanks_concat hc).trans ha) hrest (hend.imp_right fun ⟨d, hd, hdsep⟩ => ?_)
      rcases List.mem_cons.1 hd with rfl | hd
      · exact absurd hdsep hsep
      · exact ⟨d, hd, hdsep⟩

end Gaps

/-! ## Entries -/

/-- What an entry of a body can be. -/
inductive Entry where
  | field (f : FieldDef)
  | constraint (text : String)
deriving DecidableEq, Repr

namespace Entry

/-- An entry as it is written. -/
def text : Entry → String
  | field f => f.name ++ " " ++ f.type
  | constraint text => text

def field? : Entry → Option FieldDef
  | field f => some f
  | constraint _ => none

def constraint? : Entry → Option String
  | field _ => none
  | constraint text => some text

/-- What makes an entry a field or a constraint. -/
def Fits (owner : String) : Entry → Prop
  | field f => isFieldName f.name ∧ ¬isConstraintWord f.name ∧ f.name ≠ primaryKey owner
  | constraint text => ∃ word c rest, text.toList = word ++ c :: rest ∧ isConstraintWord (String.ofList word) ∧
      (c = ' ' ∨ c = '(')

/-- Entries that a body for `owner` can have. -/
structure WellFormed (owner : String) (e : Entry) : Prop where
  fits : e.Fits owner
  spaced : SingleSpaced e.text.toList
  closed : Closed e.text.toList

end Entry

/-! ## Adding entries -/

/-- The name of an entry ends at the first blank or parenthesis. -/
theorem cutName_eq {entry : String} {name rest : List Char} {c : Char} (h : entry.toList = name ++ c :: rest)
    (hblank : ∀ d ∈ name, isBlank d = false) (hopen : '(' ∉ name) (hc : isBlank c = true ∨ c = '(') :
    cutName entry = (String.ofList name, trim (String.ofList (c :: rest))) := by
  have hname : ∀ d ∈ name, (!(isBlank d || d == '(')) = true := by
    intro d hd
    have hne : d ≠ '(' := fun he => hopen (he ▸ hd)
    simp [hblank d hd, hne]
  have hstop : (!(isBlank c || c == '(')) = false := by
    rcases hc with hc | rfl
    · simp [hc]
    · simp
  simp only [cutName, h]
  rw [List.takeWhile_append_of_pos hname, List.dropWhile_append_of_pos hname]
  simp only [List.takeWhile_cons, List.dropWhile_cons, hstop, Bool.false_eq_true, if_false, List.append_nil]

/-- Constraint words are letters. -/
theorem notMem_of_isConstraintWord {word : String} (h : isConstraintWord word = true) {c : Char}
    (hlower : c.toLower = c) (hc : ∀ w ∈ constraintWords, c ∉ lowerAscii w) : c ∉ word.toList := by
  intro hmem
  obtain ⟨w, hw, heq⟩ := List.any_eq_true.1 h
  apply hc w hw
  rw [eq_of_beq heq]
  exact hlower ▸ List.mem_map_of_mem hmem

theorem trim_type {type : List Char} (hhead : ∀ c ∈ type.head?, isBlank c = false)
    (hlast : ∀ c ∈ type.getLast?, isBlank c = false) : trim (String.ofList (' ' :: type)) = String.ofList type := by
  rw [trim, String.toList_ofList, trimWith, List.dropWhile_cons_of_pos isBlank_space]
  exact congrArg String.ofList (trimWith_eq_self hhead hlast)

/-- A well-formed entry is added as what it is. -/
theorem addEntry_text {owner : String} {body : Body} {e : Entry} (h : e.WellFormed owner)
    (hnew : ∀ f ∈ e.field?, f.name ∉ body.fields.map (·.name)) :
    addEntry owner body e.text =
      .ok ⟨body.fields ++ e.field?.toList, body.constraints ++ e.constraint?.toList⟩ := by
  -- All blanks of an entry are spaces, so a name without a space has none.
  have hblank : ∀ {name rest : List Char} {c : Char}, e.text.toList = name ++ c :: rest → ' ' ∉ name →
      ∀ d ∈ name, isBlank d = false := fun htext hspace d hd =>
    h.spaced.isBlank_eq_false (by simp [htext, hd]) fun he => hspace (he ▸ hd)
  cases e with
  | constraint text =>
    obtain ⟨word, c, rest, htext, hword, hc⟩ := h.fits
    have hspace : ' ' ∉ word := by simpa using notMem_of_isConstraintWord hword (by decide) (by decide)
    have hopen : '(' ∉ word := by simpa using notMem_of_isConstraintWord hword (by decide) (by decide)
    have hcut := cutName_eq htext (hblank htext hspace) hopen (hc.imp_left fun hc => by rw [hc]; exact isBlank_space)
    simp only [addEntry, Entry.text, hcut, hword, if_true, Entry.field?, Entry.constraint?, Option.toList,
      List.append_nil]
  | field f =>
    obtain ⟨hname, hconstraint, hreserved⟩ := h.fits
    have htext : (Entry.field f).text.toList = f.name.toList ++ ' ' :: f.type.toList := by simp [Entry.text]
    have hspace : ' ' ∉ f.name.toList := notMem_of_isFieldName hname (by decide) (by decide) (by decide)
    have hopen : '(' ∉ f.name.toList := notMem_of_isFieldName hname (by decide) (by decide) (by decide)
    obtain ⟨hnonempty, hhead, hlast⟩ := SingleSpaced.after_space (htext ▸ h.spaced)
    have hcut := cutName_eq htext (hblank htext hspace) hopen (.inl isBlank_space)
    rw [trim_type hhead hlast, String.ofList_toList, String.ofList_toList] at hcut
    have htype : f.type.isEmpty = false := by
      rw [Bool.eq_false_iff]
      intro hempty
      exact hnonempty (by rw [String.isEmpty_iff.1 hempty]; rfl)
    have hany : body.fields.any (·.name == f.name) = false := by
      rw [List.any_eq_false]
      intro g hg hgname
      exact hnew f rfl (List.mem_map.2 ⟨g, hg, eq_of_beq hgname⟩)
    rw [Bool.not_eq_true] at hconstraint
    simp only [addEntry, hcut, hconstraint, hname, htype, hany, beq_iff_eq, hreserved, Bool.not_true,
      Bool.false_eq_true, if_false, Entry.field?, Entry.constraint?, Option.toList, List.append_nil]

/-- The body that has some entries. -/
def Body.ofEntries (entries : List Entry) : Body :=
  ⟨entries.filterMap Entry.field?, entries.filterMap Entry.constraint?⟩

/-- Entries with new names are added one after the other. -/
theorem foldlM_addEntry {owner : String} {entries : List Entry} (hentries : ∀ e ∈ entries, e.WellFormed owner)
    (body : Body) (hnames : ((body.fields ++ entries.filterMap Entry.field?).map (·.name)).Nodup) :
    (entries.map Entry.text).foldlM (addEntry owner) body =
      .ok ⟨body.fields ++ entries.filterMap Entry.field?, body.constraints ++ entries.filterMap Entry.constraint?⟩ := by
  induction entries generalizing body with
  | nil => simp [pure, Except.pure]
  | cons e entries ih =>
    simp only [List.filterMap_eq_flatMap_toList, List.flatMap_cons, ← List.append_assoc] at ih hnames ⊢
    have hnew : ∀ f ∈ e.field?, f.name ∉ body.fields.map (·.name) := by
      intro f hf hmem
      rw [List.map_append, List.map_append, List.append_assoc] at hnames
      exact List.disjoint_of_nodup_append hnames hmem (by simp [Option.mem_def.1 hf])
    rw [List.map_cons, List.foldlM_cons, addEntry_text (hentries e List.mem_cons_self) hnew, except_ok_bind,
      ih (fun d hd => hentries d (List.mem_cons_of_mem _ hd)) _ hnames]

/-! ## Bodies -/

/-- The text of a body: what stands in front, then each entry with the gap after it. -/
def write (lead : String) (parts : List (Entry × String)) : String :=
  lead ++ String.join (parts.map fun part => part.1.text ++ part.2)

/-- What a body for `owner` may be written from. Only the gap after the last entry need not separate. -/
structure Writable (owner : String) (lead : String) (parts : List (Entry × String)) : Prop where
  lead : IsGap lead.toList
  gaps : ∀ part ∈ parts, IsGap part.2.toList
  separated : ∀ part ∈ parts.dropLast, Separates part.2.toList
  entries : ∀ e ∈ parts.map Prod.fst, e.WellFormed owner
  names : ((Body.ofEntries (parts.map Prod.fst)).fields.map (·.name)).Nodup

theorem Entry.WellFormed.text_ne_empty {owner : String} {e : Entry} (h : e.WellFormed owner) : e.text ≠ "" := by
  intro hempty
  cases e with
  | field f => simpa [Entry.text] using congrArg String.toList hempty
  | constraint text =>
    obtain ⟨word, c, rest, htext, -⟩ := h.fits
    rw [show text = "" from hempty] at htext
    simp at htext

theorem Entry.WellFormed.newline_notMem {owner : String} {e : Entry} (h : e.WellFormed owner) : '\n' ∉ e.text.toList :=
  fun hmem => absurd (h.spaced.spaces _ hmem (by decide)) (by decide)

/-- The entries of a body are those it was written from. The induction is on the entries, each with the gap that
ends it. -/
theorem tidy_rawEntries_parts {owner : String} {parts : List (Entry × String)}
    (hgaps : ∀ part ∈ parts, IsGap part.2.toList) (hseparated : ∀ part ∈ parts.dropLast, Separates part.2.toList)
    (hentries : ∀ e ∈ parts.map Prod.fst, e.WellFormed owner) :
    tidy (rawEntries (parts.flatMap fun part => part.1.text.toList ++ part.2.toList)) =
      (parts.map Prod.fst).map Entry.text := by
  induction parts with
  | nil => exact tidy_empty rfl
  | cons part parts ih =>
    have hentry := hentries part.1 List.mem_cons_self
    have hend : (parts.flatMap fun part => part.1.text.toList ++ part.2.toList) = [] ∨ Separates part.2.toList := by
      cases parts with
      | nil => exact .inl rfl
      | cons next parts => exact .inr (hseparated part List.mem_cons_self)
    have hrest : ∀ p ∈ parts.dropLast, Separates p.2.toList := by
      intro p hp
      cases parts with
      | nil => cases hp
      | cons next parts => exact hseparated p (List.mem_cons_of_mem _ hp)
    rw [List.flatMap_cons, List.append_assoc, rawEntries_closed hentry.closed hentry.newline_notMem,
      tidy_entry_gap (String.ofList_toList ▸ hentry.spaced.collapseBlanks) hentry.text_ne_empty
        (hgaps part List.mem_cons_self) hend,
      ih (fun p hp => hgaps p (List.mem_cons_of_mem _ hp)) hrest fun e he => hentries e (List.mem_cons_of_mem _ he)]
    rfl

theorem toList_write (lead : String) (parts : List (Entry × String)) :
    (write lead parts).toList = lead.toList ++ parts.flatMap fun part => part.1.text.toList ++ part.2.toList := by
  simp [write, String.toList_join, List.flatMap_map]

/-- A body that was written is read as the fields and the constraints of its entries, each in order. -/
theorem parseBody_write {owner lead : String} {parts : List (Entry × String)} (h : Writable owner lead parts) :
    parseBody owner (write lead parts) = .ok (Body.ofEntries (parts.map Prod.fst)) := by
  have hsplit : splitEntries (write lead parts) = (parts.map Prod.fst).map Entry.text := by
    rw [splitEntries_eq, toList_write, tidy_gap h.lead, tidy_rawEntries_parts h.gaps h.separated h.entries]
  rw [parseBody, hsplit, foldlM_addEntry h.entries {} h.names]
  rfl

/-- Entries with separators inside quotes and parentheses, and gaps of every kind. -/
def priceParts : List (Entry × String) :=
  [(.field ⟨"label", "TEXT DEFAULT 'a, (b; ''c'"⟩, "\t,,\n ; "),
    (.constraint "Check(label <> ',' OR (total > 0, 1))", "\r\n"),
    (.field ⟨"total", "DECIMAL(10, 2)) NOT NULL"⟩, ";;"),
    (.constraint "UNIQUE (label, \"x;(\")", " \t")]

theorem parseBody_write_price :
    Writable "Price" " ;\n, " priceParts ∧ parseBody "Price" (write " ;\n, " priceParts) =
      .ok ⟨[⟨"label", "TEXT DEFAULT 'a, (b; ''c'"⟩, ⟨"total", "DECIMAL(10, 2)) NOT NULL"⟩],
        ["Check(label <> ',' OR (total > 0, 1))", "UNIQUE (label, \"x;(\")"]⟩ := by
  have hlabel : (Entry.field ⟨"label", "TEXT DEFAULT 'a, (b; ''c'"⟩).WellFormed "Price" :=
    ⟨⟨by decide +kernel, by decide +kernel, by decide +kernel⟩, by decide +kernel, by decide +kernel⟩
  have hcheck : (Entry.constraint "Check(label <> ',' OR (total > 0, 1))").WellFormed "Price" :=
    ⟨⟨"Check".toList, '(', "label <> ',' OR (total > 0, 1))".toList, by decide +kernel, by decide +kernel, .inr rfl⟩,
      by decide +kernel, by decide +kernel⟩
  have htotal : (Entry.field ⟨"total", "DECIMAL(10, 2)) NOT NULL"⟩).WellFormed "Price" :=
    ⟨⟨by decide +kernel, by decide +kernel, by decide +kernel⟩, by decide +kernel, by decide +kernel⟩
  have hunique : (Entry.constraint "UNIQUE (label, \"x;(\")").WellFormed "Price" :=
    ⟨⟨"UNIQUE".toList, ' ', "(label, \"x;(\")".toList, by decide +kernel, by decide +kernel, .inl rfl⟩,
      by decide +kernel, by decide +kernel⟩
  have h : Writable "Price" " ;\n, " priceParts := by
    refine ⟨by decide +kernel, by decide +kernel, by decide +kernel, ?_, by decide +kernel⟩
    simp [priceParts, hlabel, hcheck, htotal, hunique]
  exact ⟨h, parseBody_write h⟩

end Field

end GuardedConfig
