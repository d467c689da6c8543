import GuardedConfig.Field.Type
import GuardedConfig.Proofs.Pieces

/-!
# `Proofs.TypeReferences` — how the types of fields are written

A type reference is a word, or a word with an argument in parentheses behind it. The argument may be any text, further
parentheses among it, since the one that closes it is the last character of the whole. Only in one way can a text be such
a reference, and it is read as that. What kind of type it is depends on the word: if the word is `LIST`, the argument has
to be a reference as well.

## Contents

* `TypeRef.Spells` — the texts of a reference
* `parse?_eq_some_iff` — what is read is what is written
* `classify_list_iff`, `classify_list_written` — lists, with blanks around the item
* `classify_by_spelling`
-/

namespace GuardedConfig

namespace Field

open Text Schema

/-! ## References -/

/-- The texts of a reference: its word, and its argument in parentheses if it has one. -/
inductive TypeRef.Spells : TypeRef → List Char → Prop where
  | bare {name : String} (hne : name ≠ "") (hword : ∀ c ∈ name.toList, isWord c = true) :
      Spells ⟨name, none⟩ name.toList
  | call {name argument : String} {blanks : List Char} (hne : name ≠ "") (hword : ∀ c ∈ name.toList, isWord c = true)
      (hblanks : ∀ c ∈ blanks, isBlank c = true) :
      Spells ⟨name, some argument⟩ (name.toList ++ (blanks ++ '(' :: (argument.toList ++ [')'])))

variable {text word content : String} {ref item : TypeRef} {cs gap before after : List Char} {f : FieldDef}

/-- Nothing blank follows a word at the end of a text that has been trimmed. -/
theorem dropWhile_isWord_eq_nil (hlast : ∀ c ∈ cs.getLast?, isBlank c = false)
    (hrest : (cs.dropWhile isWord).dropWhile isBlank = []) : cs.dropWhile isWord = [] := by
  by_contra hne
  obtain ⟨c, hc⟩ := Option.ne_none_iff_exists'.1 (mt List.getLast?_eq_none_iff.1 hne)
  have hblank : isBlank c = true := List.dropWhile_eq_nil_iff.1 hrest c (List.mem_of_getLast? hc)
  have hcs : cs.getLast? = some c := by
    rw [← List.takeWhile_append_dropWhile (p := isWord) (l := cs), List.getLast?_append, hc, Option.some_or]
  rw [hlast c hcs] at hblank
  cases hblank

theorem spells_of_parse? (h : TypeRef.parse? text = some ref) : ref.Spells (trim text).toList := by
  have hlast := getLast?_trimWith isBlank text.toList
  unfold TypeRef.parse? at h
  rw [trim, String.toList_ofList]
  generalize trimWith isBlank text.toList = cs at h hlast ⊢
  have hcs : cs.takeWhile isWord ++ cs.dropWhile isWord = cs := List.takeWhile_append_dropWhile
  have hword : ∀ c ∈ (String.ofList (cs.takeWhile isWord)).toList, isWord c = true := by
    rw [String.toList_ofList]
    exact fun c hc => List.mem_takeWhile_imp hc
  dsimp only at h
  split at h
  · cases h
  rename_i hname
  have hne : String.ofList (cs.takeWhile isWord) ≠ "" := by
    rw [← String.toList_inj.ne, String.toList_ofList]
    exact fun hnil => hname (List.isEmpty_iff.2 hnil)
  split at h
  · rename_i hrest
    cases h
    have htake : cs.takeWhile isWord = cs := by rwa [dropWhile_isWord_eq_nil hlast hrest, List.append_nil] at hcs
    have hspells := TypeRef.Spells.bare hne hword
    rw [String.toList_ofList] at hspells
    rwa [htake] at hspells ⊢
  · rename_i c inner hrest
    split at h
    · rename_i hclosed
      obtain ⟨rfl, hclosing⟩ := hclosed
      cases h
      have hblanks : ∀ c ∈ (cs.dropWhile isWord).takeWhile isBlank, isBlank c = true :=
        fun c hc => List.mem_takeWhile_imp hc
      have hspells : TypeRef.Spells ⟨_, some (String.ofList inner.dropLast)⟩ _ := .call hne hword hblanks
      have hinner : inner.dropLast ++ [')'] = inner := List.dropLast_append_getLast? _ hclosing
      rwa [String.toList_ofList, String.toList_ofList, hinner, ← hrest, List.takeWhile_append_dropWhile, hcs]
        at hspells
    · cases h

theorem parse?_of_spells (h : ref.Spells (trim text).toList) : TypeRef.parse? text = some ref := by
  unfold TypeRef.parse?
  rw [trim, String.toList_ofList] at h
  generalize trimWith isBlank text.toList = cs at h ⊢
  dsimp only
  cases h with
  | @bare name hne hword =>
    have hname : name.toList.isEmpty = false := by simpa using hne
    rw [List.takeWhile_eq_self_iff.2 hword, List.dropWhile_eq_nil_iff.2 hword, hname, String.ofList_toList]
    rfl
  | @call name argument blanks hne hword hblanks =>
    have hname : name.toList.isEmpty = false := by simpa using hne
    have hstop : ∀ c ∈ (blanks ++ '(' :: (argument.toList ++ [')'])).head?, isWord c = false := by
      intro c hc
      cases blanks with
      | nil =>
        cases hc
        decide
      | cons b blanks =>
        obtain rfl : b = c := Option.some.inj hc
        exact isWord_of_isBlank (hblanks b List.mem_cons_self)
    have hopen : ∀ c ∈ ('(' :: (argument.toList ++ [')'])).head?, isBlank c = false := by
      intro c hc
      cases hc
      decide
    obtain ⟨htake, hdrop⟩ := takeWhile_of_stop hword hstop
    rw [htake, hdrop, (takeWhile_of_stop hblanks hopen).2, hname, String.ofList_toList]
    dsimp only
    rw [if_neg Bool.false_ne_true, if_pos ⟨rfl, List.getLast?_concat⟩, List.dropLast_concat, String.ofList_toList]

/-- **A text is read as a reference exactly if it is one.** -/
theorem parse?_eq_some_iff : TypeRef.parse? text = some ref ↔ ref.Spells (trim text).toList :=
  ⟨spells_of_parse?, parse?_of_spells⟩

theorem parse?_eq_none_iff : TypeRef.parse? text = none ↔ ∀ ref : TypeRef, ¬ ref.Spells (trim text).toList := by
  rw [Option.eq_none_iff_forall_ne_some]
  exact forall_congr' fun ref => not_congr parse?_eq_some_iff

/-! ## Kinds of types -/

theorem classify_sql_iff : f.classify = .ok .sql ↔ ∀ ref : TypeRef, ¬ ref.Spells (trim f.type).toList := by
  rw [← parse?_eq_none_iff]
  unfold FieldDef.classify
  cases TypeRef.parse? f.type with
  | none => exact iff_of_true rfl rfl
  | some ref =>
    dsimp only
    refine iff_of_false ?_ nofun
    split
    · split <;> nofun
    · nofun

theorem classify_named_iff :
    f.classify = .ok (.named ref) ↔ equalsIgnoringAsciiCase ref.name "LIST" = false ∧ ref.Spells (trim f.type).toList := by
  rw [← parse?_eq_some_iff]
  unfold FieldDef.classify
  cases TypeRef.parse? f.type with
  | none => exact iff_of_false nofun fun h => nomatch h.2
  | some own =>
    dsimp only
    split
    · rename_i hlist
      refine iff_of_false (by split <;> nofun) ?_
      rintro ⟨hne, ⟨⟩⟩
      rw [hlist] at hne
      cases hne
    · rename_i hne
      constructor
      · rintro ⟨⟩
        exact ⟨Bool.eq_false_iff.2 hne, rfl⟩
      · rintro ⟨-, ⟨⟩⟩
        rfl

/-- What is read of a list with some content. -/
theorem classify_of_list (hlist : equalsIgnoringAsciiCase ref.name "LIST" = true)
    (hspells : ref.Spells (trim f.type).toList) :
    f.classify =
      match ref.argument.bind TypeRef.parse? with
      | some item => .ok (.list item)
      | none => .error (.invalidType f.type f.name) := by
  unfold FieldDef.classify
  rw [parse?_eq_some_iff.2 hspells]
  exact if_pos hlist

/-- A type of any other kind is a reference with the word of a list. -/
theorem list_of_classify (hsql : f.classify ≠ .ok .sql) (hnamed : ∀ ref, f.classify ≠ .ok (.named ref)) :
    ∃ ref : TypeRef, equalsIgnoringAsciiCase ref.name "LIST" = true ∧ ref.Spells (trim f.type).toList := by
  rw [Ne, classify_sql_iff, not_forall] at hsql
  obtain ⟨ref, hspells⟩ := hsql
  rw [not_not] at hspells
  refine ⟨ref, ?_, hspells⟩
  by_contra hne
  exact hnamed ref (classify_named_iff.2 ⟨Bool.eq_false_iff.2 hne, hspells⟩)

theorem classify_list_iff :
    f.classify = .ok (.list item) ↔ ∃ word content, equalsIgnoringAsciiCase word "LIST" = true ∧
      TypeRef.Spells ⟨word, some content⟩ (trim f.type).toList ∧ item.Spells (trim content).toList := by
  constructor
  · intro h
    obtain ⟨⟨word, argument⟩, hlist, hspells⟩ := list_of_classify (f := f) (by simp [h]) (by simp [h])
    rw [classify_of_list hlist hspells] at h
    split at h
    · rename_i found hfound
      cases h
      obtain ⟨content, rfl, hitem⟩ := Option.bind_eq_some_iff.1 hfound
      exact ⟨word, content, hlist, hspells, parse?_eq_some_iff.1 hitem⟩
    · cases h
  · rintro ⟨word, content, hlist, hspells, hitem⟩
    rw [classify_of_list hlist hspells, Option.bind_some, parse?_eq_some_iff.2 hitem]

/-- The only types that are refused are lists of something that is no reference. -/
theorem classify_error_iff {e : Fault} :
    f.classify = .error e ↔ e = .invalidType f.type f.name ∧
      ∃ ref : TypeRef, equalsIgnoringAsciiCase ref.name "LIST" = true ∧ ref.Spells (trim f.type).toList ∧
        ∀ content ∈ ref.argument, ∀ item : TypeRef, ¬ item.Spells (trim content).toList := by
  constructor
  · intro h
    obtain ⟨ref, hlist, hspells⟩ := list_of_classify (f := f) (by simp [h]) (by simp [h])
    rw [classify_of_list hlist hspells] at h
    split at h
    · cases h
    · rename_i hnone
      cases h
      refine ⟨rfl, ref, hlist, hspells, fun content hcontent => parse?_eq_none_iff.1 ?_⟩
      exact Option.bind_eq_none_iff.1 hnone content hcontent
  · rintro ⟨rfl, ref, hlist, hspells, hno⟩
    have hnone : ref.argument.bind TypeRef.parse? = none :=
      Option.bind_eq_none_iff.2 fun content hcontent => parse?_eq_none_iff.2 (hno content hcontent)
    rw [classify_of_list hlist hspells, hnone]

/-! ## Lists as they are written -/

/-- The word of a list in any case is a word. -/
theorem isWord_of_list (hlist : equalsIgnoringAsciiCase word "LIST" = true) :
    word ≠ "" ∧ ∀ c ∈ word.toList, isWord c = true := by
  have hlower : word.toList.map Char.toLower = ['l', 'i', 's', 't'] := eq_of_beq hlist
  refine ⟨?_, fun c hc => ?_⟩
  · rintro rfl
    cases hlower
  · have hletters : ∀ d ∈ ['l', 'i', 's', 't'], isAsciiLetter d = true := by decide
    exact isWord_of_isAsciiLetter (isAsciiLetter_of_toLower (hletters c.toLower (hlower ▸ List.mem_map_of_mem hc)))

/-- Neither end of a reference is blank. -/
theorem TypeRef.Spells.trimWith_eq (h : item.Spells cs) : trimWith isBlank cs = cs := by
  have hplain : ∀ c, isWord c = true → isBlank c = false := by
    intro c hword
    by_contra hblank
    rw [isWord_of_isBlank (Bool.not_eq_false _ ▸ hblank)] at hword
    cases hword
  cases h with
  | @bare name hne hword =>
    exact trimWith_eq_self (fun c hc => hplain c (hword c (List.mem_of_head? hc)))
      fun c hc => hplain c (hword c (List.mem_of_getLast? hc))
  | @call name argument blanks hne hword hblanks =>
    refine trimWith_eq_self (fun c hc => ?_) fun c hc => ?_
    · cases hname : name.toList with
      | nil => exact absurd (String.toList_eq_nil_iff.1 hname) hne
      | cons d rest =>
        rw [hname] at hc
        obtain rfl : d = c := Option.some.inj hc
        exact hplain d (hword d (hname ▸ List.mem_cons_self))
    · have hlast : (name.toList ++ (blanks ++ '(' :: (argument.toList ++ [')']))).getLast? = some ')' := by
        simp [List.getLast?_append, List.getLast?_cons]
      rw [hlast] at hc
      obtain rfl : ')' = c := Option.some.inj hc
      decide

/-- A list is read with blanks around its item. -/
theorem classify_list_written (hlist : equalsIgnoringAsciiCase word "LIST" = true)
    (hgap : ∀ c ∈ gap, isBlank c = true) (hbefore : ∀ c ∈ before, isBlank c = true)
    (hafter : ∀ c ∈ after, isBlank c = true) (hitem : item.Spells cs)
    (htype : (trim f.type).toList = word.toList ++ (gap ++ '(' :: (before ++ (cs ++ after) ++ [')']))) :
    f.classify = .ok (.list item) := by
  obtain ⟨hne, hword⟩ := isWord_of_list hlist
  have hspells : TypeRef.Spells ⟨word, some (String.ofList (before ++ (cs ++ after)))⟩ _ := .call hne hword hgap
  rw [String.toList_ofList, ← htype] at hspells
  refine classify_list_iff.2 ⟨word, _, hlist, hspells, ?_⟩
  rwa [trim, String.toList_ofList, String.toList_ofList, trimWith_append hbefore hafter, hitem.trimWith_eq]

/-- A text is a reference in one way only. -/
theorem TypeRef.Spells.unique (h : item.Spells cs) (h' : ref.Spells cs) : item = ref := by
  have htrim : (trim (String.ofList cs)).toList = cs := by
    rw [trim, String.toList_ofList, String.toList_ofList, h.trimWith_eq]
  have hitem : TypeRef.parse? (String.ofList cs) = some item := parse?_of_spells (htrim.symm ▸ h)
  have href : TypeRef.parse? (String.ofList cs) = some ref := parse?_of_spells (htrim.symm ▸ h')
  exact Option.some.inj (hitem.symm.trans href)

/-! ## All types -/

/-- **Types are read as they are spelled.** A text is a reference exactly if, without the blanks around it, it is a word
alone or with an argument in parentheses. The type of a field is a list if it is a reference with the word `LIST` in any
case and its content is a reference, with whatever blanks around that; with any other content it is refused. It is named if
it is a reference with another word, and the text of a column if it is no reference. -/
theorem classify_by_spelling :
    (∀ (text : String) (ref : TypeRef), TypeRef.parse? text = some ref ↔ ref.Spells (trim text).toList) ∧
    (∀ (f : FieldDef) (word : String) (item : TypeRef) (gap before cs after : List Char),
      equalsIgnoringAsciiCase word "LIST" = true → (∀ c ∈ gap ++ before ++ after, isBlank c = true) → item.Spells cs →
      (trim f.type).toList = word.toList ++ (gap ++ '(' :: (before ++ (cs ++ after) ++ [')'])) →
      f.classify = .ok (.list item)) ∧
    (∀ (f : FieldDef) (item : TypeRef), f.classify = .ok (.list item) ↔
      ∃ word content, equalsIgnoringAsciiCase word "LIST" = true ∧
        TypeRef.Spells ⟨word, some content⟩ (trim f.type).toList ∧ item.Spells (trim content).toList) ∧
    (∀ (f : FieldDef) (ref : TypeRef), f.classify = .ok (.named ref) ↔
      equalsIgnoringAsciiCase ref.name "LIST" = false ∧ ref.Spells (trim f.type).toList) ∧
    (∀ f : FieldDef, f.classify = .ok .sql ↔ ∀ ref : TypeRef, ¬ ref.Spells (trim f.type).toList) ∧
    (∀ (f : FieldDef) (e : Fault), f.classify = .error e ↔ e = .invalidType f.type f.name ∧
      ∃ ref : TypeRef, equalsIgnoringAsciiCase ref.name "LIST" = true ∧ ref.Spells (trim f.type).toList ∧
        ∀ content ∈ ref.argument, ∀ item : TypeRef, ¬ item.Spells (trim content).toList) := by
  refine ⟨fun _ _ => parse?_eq_some_iff, ?_, fun _ _ => classify_list_iff, fun _ _ => classify_named_iff,
    fun _ => classify_sql_iff, fun _ _ => classify_error_iff⟩
  intro f word item gap before cs after hlist hblanks hitem htype
  simp only [List.forall_mem_append] at hblanks
  obtain ⟨⟨hgap, hbefore⟩, hafter⟩ := hblanks
  exact classify_list_written hlist hgap hbefore hafter hitem htype

/-- The item of a list is called, with a call and a line break in its argument. -/
theorem classify_nested_list :
    FieldDef.classify ⟨"xs", " LiSt (\n T(a(1),\n b) )"⟩ = .ok (.list ⟨"T", some "a(1),\n b"⟩) := by
  have hitem : TypeRef.Spells ⟨"T", some "a(1),\n b"⟩ ("T".toList ++ ([] ++ '(' :: ("a(1),\n b".toList ++ [')']))) :=
    .call (by decide) (by decide) (by decide)
  exact classify_by_spelling.2.1 ⟨"xs", " LiSt (\n T(a(1),\n b) )"⟩ "LiSt" ⟨"T", some "a(1),\n b"⟩ [' '] ['\n', ' ']
    "T(a(1),\n b)".toList [' '] (by decide) (by decide) hitem (by decide +kernel)

end Field

end GuardedConfig
