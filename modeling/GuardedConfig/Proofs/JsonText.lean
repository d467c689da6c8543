import GuardedConfig.Json.Print
import GuardedConfig.Json.Read
import Mathlib.Data.List.Basic

/-!
# `Proofs.JsonText` — printed values are read back

A text is read by its grammar, with blanks wherever they may stand between two parts. The compact text of a value and
its text over several lines are two spellings of one document: they differ in these blanks alone. So whatever is read
from one of them is read from the other. Numbers are left out here.

## Contents

* `readUnits_escape`, `readString_quoted` — strings
* `Spells` — the texts of a document, with blanks between its parts
* `Spells.reads`, `ofText?_of_spells` — each of them is read as this document
* `Json.document?` — what a value is as a document
* `ofText?_compact`, `ofText?_indented` — both printed texts are spellings of it
-/

namespace GuardedConfig.Json

open Text

/-! ## Strings -/

theorem fourHex?_hexChar : ∀ n < 32, fourHex? ['0', '0', hexChar (n / 16), hexChar (n % 16)] = some (n, []) := by
  decide

/-- A character below the space is read from its four digits. -/
theorem readUnits_control {c : Char} (h : c.toNat < 32) (rest : List Char) :
    readUnits ('\\' :: 'u' :: '0' :: '0' :: hexChar (c.toNat / 16) :: hexChar (c.toNat % 16) :: rest) =
      (readUnits rest).map fun (us, r) => (.char c :: us, r) := by
  have hunit : unitOf c.toNat = .char c := by
    unfold unitOf
    rw [if_neg (by omega), Char.ofNat_toNat]
  rw [readUnits, fourHex?_hexChar _ h]
  dsimp only
  rw [hunit]

/-- A character that is its own text is read as it stands. -/
theorem readUnits_plain {c : Char} (hquote : c ≠ '"') (hbackslash : c ≠ '\\') (h : ¬ c.toNat < 32) (rest : List Char) :
    readUnits (c :: rest) = (readUnits rest).map fun (us, r) => (.char c :: us, r) := by
  rw [readUnits]
  · rw [if_neg (by simp [hbackslash, h])]
  all_goals
    intros
    simp_all

/-- An escaped character is read as this character. -/
theorem readUnits_escapeChar (c : Char) (rest : List Char) :
    readUnits (escapeChar c ++ rest) = (readUnits rest).map fun (us, r) => (.char c :: us, r) := by
  have hchar (n : Nat) (h : c.toNat = n) : c = Char.ofNat n := by rw [← h, Char.ofNat_toNat]
  unfold escapeChar
  by_cases hquote : c = '"'
  · subst hquote
    rfl
  by_cases hbackslash : c = '\\'
  · subst hbackslash
    rfl
  rw [if_neg hquote, if_neg hbackslash]
  split_ifs with hback hfeed hline hreturn htab hcontrol
  case pos => rw [hchar _ hback]; rfl
  case pos => rw [hchar _ hfeed]; rfl
  case pos => rw [hchar _ hline]; rfl
  case pos => rw [hchar _ hreturn]; rfl
  case pos => rw [hchar _ htab]; rfl
  case pos => exact readUnits_control hcontrol rest
  case neg => exact readUnits_plain hquote hbackslash hcontrol rest

theorem readUnits_escape (cs rest : List Char) :
    readUnits (escape cs ++ '"' :: rest) = some (cs.map .char, rest) := by
  induction cs with
  | nil => rfl
  | cons c cs ih =>
    show readUnits ((escapeChar c ++ escape cs) ++ '"' :: rest) = _
    rw [List.append_assoc, readUnits_escapeChar, ih]
    rfl

theorem joinUnits_chars (cs : List Char) : joinUnits (cs.map .char) = some cs := by
  induction cs with
  | nil => rfl
  | cons c cs ih =>
    show (joinUnits (cs.map .char)).map (c :: ·) = _
    rw [ih]
    rfl

/-- The characters of a string between quotes. -/
def quotedChars (s : String) : List Char := '"' :: escape s.toList ++ ['"']

theorem quotedChars_append (s : String) (rest : List Char) :
    quotedChars s ++ rest = '"' :: (escape s.toList ++ '"' :: rest) := by simp [quotedChars]

theorem toList_quoted (s : String) : (quoted s).toList = quotedChars s := String.toList_ofList ..

/-- A string between quotes is read as this string. -/
theorem readString_quoted (s : String) (rest : List Char) :
    readString (escape s.toList ++ '"' :: rest) = some (some s, rest) := by
  unfold readString
  rw [readUnits_escape]
  show some ((joinUnits (s.toList.map .char)).map String.ofList, rest) = _
  rw [joinUnits_chars, Option.map_some, String.ofList_toList]

/-! ## Blanks -/

/-- Blanks, possibly none. -/
def Gap (cs : List Char) : Prop := ∀ c ∈ cs, isGap c = true

theorem gap_nil : Gap [] := fun _ h => nomatch h

/-- Blanks in front do not matter. -/
theorem skipGap_append {gap : List Char} (h : Gap gap) (cs : List Char) : skipGap (gap ++ cs) = skipGap cs :=
  List.dropWhile_append_of_pos h

theorem skipGap_cons {c : Char} (h : isGap c = false) (cs : List Char) : skipGap (c :: cs) = c :: cs :=
  List.dropWhile_cons_of_neg (by simp [h])

theorem readValue_append {gap : List Char} (h : Gap gap) (fuel : Nat) (cs : List Char) :
    readValue fuel (gap ++ cs) = readValue fuel cs := by
  cases fuel with
  | zero => rfl
  | succ fuel => rw [readValue, readValue, skipGap_append h]

/-! ## Spellings -/

/-- A document, or what stands between the brackets of an array or an object. -/
inductive Part where
  | value (d : Document)
  | items (ds : List Document)
  | members (ms : List (Option String × Document))

/-- The texts of a part of a document. Blanks may stand around the items of an array and around the members of an
object with their values. -/
inductive Spells : Part → List Char → Prop where
  | null : Spells (.value .null) "null".toList
  | bool (b : Bool) : Spells (.value (.bool b)) (if b then "true" else "false").toList
  | string (s : String) : Spells (.value (.string (some s))) (quotedChars s)
  | noItems : Spells (.value (.array [])) ['[', ']']
  | array {ds : List Document} {cs : List Char} : Spells (.items ds) cs → Spells (.value (.array ds)) ('[' :: cs ++ [']'])
  | noMembers : Spells (.value (.object [])) ['\x7b', '\x7d']
  | object {ms : List (Option String × Document)} {cs : List Char} :
      Spells (.members ms) cs → Spells (.value (.object ms)) ('\x7b' :: cs ++ ['\x7d'])
  | lastItem {d : Document} {before cs after : List Char} : Gap before → Spells (.value d) cs → Gap after →
      Spells (.items [d]) (before ++ cs ++ after)
  | item {d : Document} {ds : List Document} {before cs after more : List Char} : Gap before → Spells (.value d) cs →
      Gap after → Spells (.items ds) more → Spells (.items (d :: ds)) (before ++ cs ++ after ++ ',' :: more)
  | lastMember (key : String) {d : Document} {before between cs after : List Char} : Gap before → Gap between →
      Spells (.value d) cs → Gap after →
      Spells (.members [(some key, d)]) (before ++ quotedChars key ++ ':' :: between ++ cs ++ after)
  | member (key : String) {d : Document} {ms : List (Option String × Document)}
      {before between cs after more : List Char} : Gap before → Gap between → Spells (.value d) cs → Gap after →
      Spells (.members ms) more →
      Spells (.members ((some key, d) :: ms)) (before ++ quotedChars key ++ ':' :: between ++ cs ++ after ++ ',' :: more)

variable {p : Part} {d : Document} {ds : List Document} {ms : List (Option String × Document)} {cs : List Char}

/-! ## Reading -/

/-- A value begins with a character that is neither a blank nor a closing bracket. -/
theorem Spells.begins (h : Spells (.value d) cs) : ∃ c more, cs = c :: more ∧ isGap c = false ∧ c ≠ ']' := by
  cases h with
  | bool b => cases b <;> exact ⟨_, _, rfl, rfl, by decide⟩
  | _ => exact ⟨_, _, rfl, rfl, by decide⟩

/-- What stands between the brackets of an array begins with a value and not with the closing bracket. -/
theorem Spells.skipGap_items (h : Spells (.items ds) cs) (rest : List Char) :
    ∃ c more, skipGap (cs ++ rest) = c :: more ∧ c ≠ ']' := by
  cases h with
  | lastItem hbefore hvalue hafter | item hbefore hvalue hafter =>
    obtain ⟨c, more, rfl, hgap, hc⟩ := hvalue.begins
    simp only [List.append_assoc, List.cons_append]
    rw [skipGap_append hbefore]
    exact ⟨c, _, skipGap_cons hgap _, hc⟩

/-- What stands between the brackets of an object begins with a key. -/
theorem Spells.skipGap_members (h : Spells (.members ms) cs) (rest : List Char) :
    ∃ more, skipGap (cs ++ rest) = '"' :: more := by
  cases h with
  | lastMember key hbefore hbetween hvalue hafter | member key hbefore hbetween hvalue hafter =>
    simp only [List.append_assoc, quotedChars, List.cons_append]
    rw [skipGap_append hbefore]
    exact ⟨_, rfl⟩

/-- A part of a document is read from a text, whatever stands behind it. -/
def Part.ReadFrom (fuel : Nat) (cs : List Char) : Part → Prop
  | value d => ∀ rest, readValue fuel (cs ++ rest) = some (d, rest)
  | items ds => ∀ rest, readItems fuel (cs ++ ']' :: rest) = some (ds, rest)
  | members ms => ∀ rest, readMembers fuel (cs ++ '\x7d' :: rest) = some (ms, rest)

/-- How many steps are enough for a text after the first one. -/
def Part.steps (cs : List Char) : Part → Nat
  | value _ => cs.length
  | _ => cs.length + 1

/-- After an item, a comma leads to further items. -/
theorem readItems_append {fuel : Nat} {gap cs : List Char} {d : Document} (hgap : Gap gap)
    (hread : (Part.value d).ReadFrom fuel cs) (rest : List Char) :
    readItems (fuel + 1) (gap ++ (cs ++ rest)) =
      match skipGap rest with
      | ',' :: rest => (readItems fuel rest).map fun (ds, r) => (d :: ds, r)
      | ']' :: rest => some ([d], rest)
      | _ => none := by
  have hvalue : readValue fuel (gap ++ (cs ++ rest)) = some (d, rest) := by rw [readValue_append hgap, hread]
  rw [readItems]
  generalize readValue fuel (gap ++ (cs ++ rest)) = read at hvalue ⊢
  cases hvalue
  rfl

/-- Behind a key and a colon stands a value. -/
theorem readMembers_key {fuel : Nat} {key : Option String} {cs rest : List Char}
    (hkey : readString cs = some (key, ':' :: rest)) :
    readMembers (fuel + 1) ('"' :: cs) =
      match readValue fuel rest with
      | none => none
      | some (v, rest) =>
        match skipGap rest with
        | ',' :: rest => (readMembers fuel rest).map fun (ms, r) => ((key, v) :: ms, r)
        | '\x7d' :: rest => some ([(key, v)], rest)
        | _ => none := by
  rw [readMembers, skipGap_cons (by decide)]
  split
  · rename_i heq
    cases heq
    rw [hkey]
    rfl
  · rename_i hne
    exact absurd rfl (hne _)

/-- After a member, a comma leads to further members. -/
theorem readMembers_append {fuel : Nat} {gap between cs : List Char} {d : Document} (hgap : Gap gap)
    (hbetween : Gap between) (hread : (Part.value d).ReadFrom fuel cs) (key : String) (rest : List Char) :
    readMembers (fuel + 1) (gap ++ (quotedChars key ++ ':' :: (between ++ (cs ++ rest)))) =
      match skipGap rest with
      | ',' :: rest => (readMembers fuel rest).map fun (ms, r) => ((some key, d) :: ms, r)
      | '\x7d' :: rest => some ([(some key, d)], rest)
      | _ => none := by
  have hvalue : readValue fuel (between ++ (cs ++ rest)) = some (d, rest) := by rw [readValue_append hbetween, hread]
  have hskip : readMembers (fuel + 1) (gap ++ (quotedChars key ++ ':' :: (between ++ (cs ++ rest)))) =
      readMembers (fuel + 1) (quotedChars key ++ ':' :: (between ++ (cs ++ rest))) := by
    rw [readMembers, readMembers, skipGap_append hgap]
  rw [hskip, quotedChars_append, readMembers_key (readString_quoted key (':' :: (between ++ (cs ++ rest))))]
  generalize readValue fuel (between ++ (cs ++ rest)) = read at hvalue ⊢
  cases hvalue
  rfl

/-- Behind an opening bracket stand items. -/
theorem readValue_bracket (fuel : Nat) (cs : List Char) :
    readValue (fuel + 1) ('[' :: cs) =
      match skipGap cs with
      | ']' :: rest => some (.array [], rest)
      | _ => (readItems fuel cs).map fun (items, r) => (.array items, r) := rfl

/-- Behind an opening brace stand members. -/
theorem readValue_brace (fuel : Nat) (cs : List Char) :
    readValue (fuel + 1) ('\x7b' :: cs) =
      match skipGap cs with
      | '\x7d' :: rest => some (.object [], rest)
      | _ => (readMembers fuel cs).map fun (members, r) => (.object members, r) := rfl

/-- Every text of a document is read as this document. -/
theorem Spells.reads (h : Spells p cs) : ∀ fuel, p.steps cs ≤ fuel → p.ReadFrom (fuel + 1) cs := by
  induction h with
  | null | noItems | noMembers => exact fun fuel _ rest => rfl
  | bool b => cases b <;> exact fun fuel _ rest => rfl
  | string s =>
    intro fuel _ rest
    show (readString ((escape s.toList ++ ['"']) ++ rest)).map _ = _
    rw [List.append_assoc, List.singleton_append, readString_quoted]
    rfl
  | @array ds cs hitems ih =>
    intro fuel hfuel rest
    obtain ⟨fuel, rfl⟩ : ∃ n, fuel = n + 1 := Nat.exists_eq_add_of_le' (Nat.le_trans (by simp [Part.steps]) hfuel)
    have hread := ih fuel (by simpa [Part.steps] using hfuel) rest
    obtain ⟨c, more, hfirst, hc⟩ := hitems.skipGap_items (']' :: rest)
    simp only [List.cons_append, List.append_assoc, List.nil_append]
    rw [readValue_bracket, hread, hfirst]
    split
    · simp_all
    · rfl
  | @object ms cs hmembers ih =>
    intro fuel hfuel rest
    obtain ⟨fuel, rfl⟩ : ∃ n, fuel = n + 1 := Nat.exists_eq_add_of_le' (Nat.le_trans (by simp [Part.steps]) hfuel)
    have hread := ih fuel (by simpa [Part.steps] using hfuel) rest
    obtain ⟨more, hfirst⟩ := hmembers.skipGap_members ('\x7d' :: rest)
    simp only [List.cons_append, List.append_assoc, List.nil_append]
    rw [readValue_brace, hread, hfirst]
    rfl
  | @lastItem d before cs after hbefore hvalue hafter ih =>
    intro fuel hfuel rest
    simp only [Part.steps, List.length_append] at hfuel
    obtain ⟨fuel, rfl⟩ : ∃ n, fuel = n + 1 := Nat.exists_eq_add_of_le' (Nat.le_trans (by simp) hfuel)
    simp only [List.append_assoc]
    rw [readItems_append hbefore (ih fuel (by simp only [Part.steps]; omega)), skipGap_append hafter]
    rfl
  | @item d ds before cs after more hbefore hvalue hafter hmore ih ihmore =>
    intro fuel hfuel rest
    simp only [Part.steps, List.length_append, List.length_cons] at hfuel
    obtain ⟨fuel, rfl⟩ : ∃ n, fuel = n + 1 := Nat.exists_eq_add_of_le' (Nat.le_trans (by simp) hfuel)
    simp only [List.append_assoc, List.cons_append]
    rw [readItems_append hbefore (ih fuel (by simp only [Part.steps]; omega)), skipGap_append hafter]
    show (readItems (fuel + 1) (more ++ ']' :: rest)).map _ = _
    rw [ihmore fuel (by simp only [Part.steps]; omega) rest]
    rfl
  | @lastMember key d before between cs after hbefore hbetween hvalue hafter ih =>
    intro fuel hfuel rest
    simp only [Part.steps, List.length_append, List.length_cons] at hfuel
    obtain ⟨fuel, rfl⟩ : ∃ n, fuel = n + 1 := Nat.exists_eq_add_of_le' (Nat.le_trans (by simp) hfuel)
    simp only [List.append_assoc, List.cons_append]
    rw [readMembers_append hbefore hbetween (ih fuel (by simp only [Part.steps]; omega)), skipGap_append hafter]
    rfl
  | @member key d ms before between cs after more hbefore hbetween hvalue hafter hmore ih ihmore =>
    intro fuel hfuel rest
    simp only [Part.steps, List.length_append, List.length_cons] at hfuel
    obtain ⟨fuel, rfl⟩ : ∃ n, fuel = n + 1 := Nat.exists_eq_add_of_le' (Nat.le_trans (by simp) hfuel)
    simp only [List.append_assoc, List.cons_append]
    rw [readMembers_append hbefore hbetween (ih fuel (by simp only [Part.steps]; omega)), skipGap_append hafter]
    show (readMembers (fuel + 1) (more ++ '\x7d' :: rest)).map _ = _
    rw [ihmore fuel (by simp only [Part.steps]; omega) rest]
    rfl

/-- A text of a document as a whole is read as this document. -/
theorem ofText?_of_spells {text : String} (h : Spells (.value d) text.toList) : Document.ofText? text = some d := by
  have hread := h.reads text.toList.length (Nat.le_refl _) []
  rw [List.append_nil] at hread
  unfold Document.ofText?
  dsimp only
  rw [hread]
  rfl

/-! ## Printing -/

mutual

/-- What a value without numbers is as a document. -/
def document? : Json → Option Document
  | null => some .null
  | bool b => some (.bool b)
  | str s => some (.string (some s))
  | arr items => (itemDocuments? items).map .array
  | obj members => (memberDocuments? members).map .object
  | int _ => none
  | real _ => none

@[inherit_doc document?] def itemDocuments? : List Json → Option (List Document)
  | [] => some []
  | v :: vs =>
    match document? v, itemDocuments? vs with
    | some d, some ds => some (d :: ds)
    | _, _ => none

@[inherit_doc document?] def memberDocuments? : List (String × Json) → Option (List (Option String × Document))
  | [] => some []
  | (key, v) :: ms =>
    match document? v, memberDocuments? ms with
    | some d, some ds => some ((some key, d) :: ds)
    | _, _ => none

end

theorem itemDocuments?_cons_eq_some {v : Json} {vs : List Json} :
    itemDocuments? (v :: vs) = some ds ↔ ∃ d more, v.document? = some d ∧ itemDocuments? vs = some more ∧ ds = d :: more := by
  rw [itemDocuments?]
  cases document? v <;> cases itemDocuments? vs <;> simp [eq_comm]

theorem memberDocuments?_cons_eq_some {key : String} {v : Json} {members : List (String × Json)} :
    memberDocuments? ((key, v) :: members) = some ms ↔
      ∃ d more, v.document? = some d ∧ memberDocuments? members = some more ∧ ms = (some key, d) :: more := by
  rw [memberDocuments?]
  cases document? v <;> cases memberDocuments? members <;> simp [eq_comm]

mutual

/-- The text without blanks is a text of the value. -/
theorem spells_compact : ∀ {v : Json} {d : Document}, v.document? = some d → Spells (.value d) v.compact.toList
  | null, _, h => by
    cases h
    exact .null
  | bool b, _, h => by
    cases h
    exact .bool b
  | str s, _, h => by
    cases h
    rw [compact, toList_quoted]
    exact .string s
  | arr [], _, h => by
    cases h
    exact .noItems
  | arr (v :: vs), _, h => by
    obtain ⟨ds, hds, rfl⟩ := Option.map_eq_some_iff.1 h
    have hitems := spells_compactItems hds (List.cons_ne_nil _ _)
    rw [compact, String.toList_append, String.toList_append]
    exact hitems.array
  | obj [], _, h => by
    cases h
    exact .noMembers
  | obj (m :: members), _, h => by
    obtain ⟨ms, hms, rfl⟩ := Option.map_eq_some_iff.1 h
    have hmembers := spells_compactMembers hms (List.cons_ne_nil _ _)
    rw [compact, String.toList_append, String.toList_append]
    exact hmembers.object

theorem spells_compactItems : ∀ {vs : List Json} {ds : List Document},
    itemDocuments? vs = some ds → vs ≠ [] → Spells (.items ds) (compactItems vs).toList
  | [], _, _, h => absurd rfl h
  | [v], _, h, _ => by
    obtain ⟨d, _, hd, hmore, rfl⟩ := itemDocuments?_cons_eq_some.1 h
    cases hmore
    have hvalue := spells_compact hd
    rw [compactItems]
    simpa using Spells.lastItem gap_nil hvalue gap_nil
  | v :: w :: vs, _, h, _ => by
    obtain ⟨d, ds, hd, hmore, rfl⟩ := itemDocuments?_cons_eq_some.1 h
    have hvalue := spells_compact hd
    have hitems := spells_compactItems hmore (List.cons_ne_nil _ _)
    rw [compactItems]
    · simpa using Spells.item gap_nil hvalue gap_nil hitems
    · simp

theorem spells_compactMembers : ∀ {members : List (String × Json)} {ms : List (Option String × Document)},
    memberDocuments? members = some ms → members ≠ [] → Spells (.members ms) (compactMembers members).toList
  | [], _, _, h => absurd rfl h
  | [(key, v)], _, h, _ => by
    obtain ⟨d, _, hd, hmore, rfl⟩ := memberDocuments?_cons_eq_some.1 h
    cases hmore
    have hvalue := spells_compact hd
    rw [compactMembers]
    simpa [toList_quoted] using Spells.lastMember key gap_nil gap_nil hvalue gap_nil
  | (key, v) :: m :: members, _, h, _ => by
    obtain ⟨d, ms, hd, hmore, rfl⟩ := memberDocuments?_cons_eq_some.1 h
    have hvalue := spells_compact hd
    have hmembers := spells_compactMembers hmore (List.cons_ne_nil _ _)
    rw [compactMembers]
    · simpa [toList_quoted] using Spells.member key gap_nil gap_nil hvalue gap_nil hmembers
    · simp

end

theorem gap_lineAt (level : Nat) : Gap (lineAt level).toList := by
  intro c hc
  rw [lineAt, String.toList_ofList] at hc
  rcases List.mem_cons.1 hc with rfl | hc
  · rfl
  · rw [(List.mem_replicate.1 hc).2]
    rfl

theorem gap_space : Gap [' '] := fun _ hc => List.mem_singleton.1 hc ▸ rfl

mutual

/-- The text over several lines is a text of the value, at every level. -/
theorem spells_indentedAt : ∀ (level : Nat) {v : Json} {d : Document}, v.document? = some d →
    Spells (.value d) (v.indentedAt level).toList
  | _, null, _, h => by
    cases h
    exact .null
  | _, bool b, _, h => by
    cases h
    exact .bool b
  | _, str s, _, h => by
    cases h
    rw [indentedAt, toList_quoted]
    exact .string s
  | _, arr [], _, h => by
    cases h
    rw [indentedAt]
    exact .noItems
  | level, arr (v :: vs), _, h => by
    obtain ⟨ds, hds, rfl⟩ := Option.map_eq_some_iff.1 h
    have hitems := spells_indentedItems (level + 1) hds (List.cons_ne_nil _ _) (gap_lineAt level)
    rw [indentedAt]
    simpa using hitems.array
  | _, obj [], _, h => by
    cases h
    rw [indentedAt]
    exact .noMembers
  | level, obj (m :: members), _, h => by
    obtain ⟨ms, hms, rfl⟩ := Option.map_eq_some_iff.1 h
    have hmembers := spells_indentedMembers (level + 1) hms (List.cons_ne_nil _ _) (gap_lineAt level)
    rw [indentedAt]
    simpa using hmembers.object

theorem spells_indentedItems : ∀ (level : Nat) {vs : List Json} {ds : List Document} {after : List Char},
    itemDocuments? vs = some ds → vs ≠ [] → Gap after → Spells (.items ds) ((indentedItems level vs).toList ++ after)
  | _, [], _, _, _, h, _ => absurd rfl h
  | level, [v], _, _, h, _, hafter => by
    obtain ⟨d, _, hd, hmore, rfl⟩ := itemDocuments?_cons_eq_some.1 h
    cases hmore
    have hvalue := spells_indentedAt level hd
    rw [indentedItems, String.toList_append]
    exact .lastItem (gap_lineAt level) hvalue hafter
  | level, v :: w :: vs, _, _, h, _, hafter => by
    obtain ⟨d, ds, hd, hmore, rfl⟩ := itemDocuments?_cons_eq_some.1 h
    have hvalue := spells_indentedAt level hd
    have hitems := spells_indentedItems level hmore (List.cons_ne_nil _ _) hafter
    rw [indentedItems]
    · simpa using Spells.item (gap_lineAt level) hvalue gap_nil hitems
    · simp

theorem spells_indentedMembers : ∀ (level : Nat) {members : List (String × Json)}
    {ms : List (Option String × Document)} {after : List Char}, memberDocuments? members = some ms → members ≠ [] →
    Gap after → Spells (.members ms) ((indentedMembers level members).toList ++ after)
  | _, [], _, _, _, h, _ => absurd rfl h
  | level, [(key, v)], _, _, h, _, hafter => by
    obtain ⟨d, _, hd, hmore, rfl⟩ := memberDocuments?_cons_eq_some.1 h
    cases hmore
    have hvalue := spells_indentedAt level hd
    rw [indentedMembers]
    simpa [toList_quoted] using Spells.lastMember key (gap_lineAt level) gap_space hvalue hafter
  | level, (key, v) :: m :: members, _, _, h, _, hafter => by
    obtain ⟨d, ms, hd, hmore, rfl⟩ := memberDocuments?_cons_eq_some.1 h
    have hvalue := spells_indentedAt level hd
    have hmembers := spells_indentedMembers level hmore (List.cons_ne_nil _ _) hafter
    rw [indentedMembers]
    · simpa [toList_quoted] using
        Spells.member key (gap_lineAt level) gap_space hvalue gap_nil hmembers
    · simp

end

/-- A printed value is read back as its document. -/
theorem ofText?_compact {v : Json} (h : v.document? = some d) : Document.ofText? v.compact = some d :=
  ofText?_of_spells (spells_compact h)

theorem ofText?_indented {v : Json} (h : v.document? = some d) : Document.ofText? v.indented = some d :=
  ofText?_of_spells (spells_indentedAt _ h)

end GuardedConfig.Json
