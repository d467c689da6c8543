import GuardedConfig.Proofs.Outcome
import GuardedConfig.Proofs.Pieces
import GuardedConfig.Token.Stream

/-!
# `Proofs.TokenStream` — which tokens survive being written

A stream has no escapes, so a text with the delimiter in it is cut there. Every other text comes back as it was, with
its parentheses, blanks and line breaks: the first parenthesis of a piece is the one behind the name of the kind, and
the last one is the one that was written behind the text. A text that is cut cannot come back by accident, since it
gives at least two tokens in place of one. What has been read has no delimiter in its texts, so it comes back always.

## Contents

* `Clear` — a token without the delimiter in its text
* `ofPiece_written` — one token is read back
* `ofPieces_append`, `ofPieces_written` — the pieces of a written token
* `clear_of_readStream` — what has been read is clear
* `readStream_writeStream_iff`
-/

namespace GuardedConfig.Token

open Text

variable {t : Token} {kind : Kind} {tokens : List Token} {pieces more : List (List Char)} {piece : List Char}
  {text : String}

/-! ## Names and the delimiter -/

theorem delimiter_ne_nil : delimiter ≠ [] := nofun

theorem unbordered_delimiter : Unbordered delimiter := by decide

/-- The name of a kind is a word of capital letters and underscores. -/
theorem name_chars (kind : Kind) : kind.name.toList ≠ [] ∧
    ∀ c ∈ kind.name.toList, isBlank c = false ∧ c ≠ '[' ∧ c ≠ '(' := by
  have hall : kind.name.toList.all (fun c => !isBlank c && c != '[' && c != '(') = true := by cases kind <;> decide
  refine ⟨by cases kind <;> decide, fun c hc => ?_⟩
  simpa [and_assoc] using List.all_eq_true.1 hall c hc

/-- The text of a token has no delimiter. -/
def Clear (t : Token) : Prop := ∀ text ∈ t.payload, ¬ delimiter <:+: text.toList

theorem not_infix_name (kind : Kind) : ¬ delimiter <:+: kind.name.toList := fun h =>
  ((name_chars kind).2 '[' (h.subset (by decide))).2.1 rfl

/-! ## One token -/

theorem toList_written_of_some (h : t.payload = some text) :
    (written t).toList = t.kind.name.toList ++ '(' :: (text.toList ++ [')']) := by
  simp [written, h]

theorem toList_written_of_none (h : t.payload = none) : (written t).toList = t.kind.name.toList := by
  simp [written, h]

theorem trim_name (kind : Kind) : trimWith isBlank kind.name.toList = kind.name.toList :=
  trimWith_eq_self (fun c hc => ((name_chars kind).2 c (List.mem_of_mem_head? hc)).1)
    fun c hc => ((name_chars kind).2 c (List.mem_of_getLast? hc)).1

/-- The written form of a token has no blanks at its ends. -/
theorem trim_written (t : Token) : trimWith isBlank (written t).toList = (written t).toList := by
  cases h : t.payload with
  | none => rw [toList_written_of_none h, trim_name]
  | some text =>
    rw [toList_written_of_some h]
    obtain ⟨hne, hname⟩ := name_chars t.kind
    refine trimWith_eq_self (fun c hc => ?_) fun c hc => ?_
    · rw [List.head?_append_of_ne_nil _ hne] at hc
      exact (hname c (List.mem_of_mem_head? hc)).1
    · rw [List.getLast?_append_of_ne_nil _ (List.cons_ne_nil _ _), ← List.cons_append, List.getLast?_concat] at hc
      cases hc
      decide

theorem paren_not_mem_name (kind : Kind) : '(' ∉ kind.name.toList := fun h => ((name_chars kind).2 '(' h).2.2 rfl

/-- **A token is read back** from its written form. -/
theorem ofPiece_written (t : Token) : ofPiece (written t).toList = .ok t := by
  cases h : t.payload with
  | none =>
    rw [toList_written_of_none h, ofPiece, cutAt?_singleton_eq_none.2 (paren_not_mem_name t.kind)]
    simp only [ofPiece.bare, String.ofList_toList, Kind.ofName_name]
    rw [← h, make_kind_payload]
  | some text =>
    -- names have no parenthesis, so the first one opens the text, whatever the text has
    have hlast : (t.kind.name.toList ++ '(' :: (text.toList ++ [')'])).getLast? = some ')' := by
      rw [← List.cons_append, ← List.append_assoc, List.getLast?_concat]
    rw [toList_written_of_some h, ofPiece, cutAt?_singleton (paren_not_mem_name t.kind)]
    simp only [hlast, if_true, trim, trim_name, String.ofList_toList, Kind.ofName_name, List.dropLast_concat]
    rw [← h, make_kind_payload]

/-- The text of a token that is read from a piece is a part of the piece. -/
theorem infix_of_ofPiece (h : ofPiece piece = .ok t) (htext : t.payload = some text) : text.toList <:+: piece := by
  have hmake : ∀ {kind payload}, make kind payload = .ok t → t.payload = payload := by
    intro kind payload hmake
    unfold make at hmake
    split at hmake
    · cases hmake
      rfl
    · cases hmake
  have hbare : ∀ {piece}, ofPiece.bare piece ≠ .ok t := by
    intro piece hbare
    unfold ofPiece.bare at hbare
    split at hbare
    · rw [hmake hbare] at htext
      cases htext
    · cases hbare
  unfold ofPiece at h
  split at h
  case h_2 => exact absurd h hbare
  case h_1 before after hcut =>
    split at h
    · split at h
      · rw [hmake h] at htext
        cases htext
        rw [eq_of_cutAt? hcut, String.toList_ofList]
        exact (List.dropLast_prefix after).isInfix.trans (List.suffix_append _ after).isInfix
      · cases h
    · exact absurd h hbare

/-! ## The pieces of a stream -/

theorem ofPieces_append (front back : List (List Char)) :
    ofPieces (front ++ back) = do return (← ofPieces front) ++ (← ofPieces back) := by
  induction front with
  | nil =>
    rw [List.nil_append, ofPieces]
    rcases ofPieces back with e | tokens <;> rfl
  | cons piece front ih =>
    rw [List.cons_append, ofPieces, ofPieces]
    split
    · exact ih
    · rcases ofPiece _ with e | token
      · rfl
      · rw [ih]
        rcases ofPieces front with e | tokens
        · rfl
        · rcases ofPieces back with e | tokens' <;> rfl

theorem ofPieces_eq_ok_append {front back : List (List Char)} :
    ofPieces (front ++ back) = .ok tokens ↔
      ∃ first rest, ofPieces front = .ok first ∧ ofPieces back = .ok rest ∧ first ++ rest = tokens := by
  rw [ofPieces_append, except_bind_eq_ok]
  refine exists_congr fun first => ?_
  rw [except_bind_eq_ok]
  constructor
  · rintro ⟨hfirst, rest, hrest, htokens⟩
    exact ⟨rest, hfirst, hrest, Except.ok.inj htokens⟩
  · rintro ⟨rest, hfirst, hrest, rfl⟩
    exact ⟨hfirst, rest, hrest, rfl⟩

/-- A piece with a character that is not blank gives a token. -/
theorem ofPieces_ne_nil {c : Char} (hpiece : piece ∈ pieces) (hc : c ∈ piece) (hblank : isBlank c = false)
    (h : ofPieces pieces = .ok tokens) : tokens ≠ [] := by
  induction pieces generalizing tokens with
  | nil => cases hpiece
  | cons first pieces ih =>
    rw [ofPieces] at h
    split at h
    · rename_i htrim
      refine ih ((List.mem_cons.1 hpiece).resolve_left ?_) h
      rintro rfl
      exact trimWith_ne_nil hc hblank htrim
    · split at h
      · rcases hrest : ofPieces pieces with e | rest
        · rw [hrest] at h
          cases h
        · rw [hrest] at h
          cases h
          exact List.cons_ne_nil _ _
      · cases h

/-- The texts of tokens are parts of the pieces that they are read from. -/
theorem infix_of_ofPieces (h : ofPieces pieces = .ok tokens) (ht : t ∈ tokens) (htext : t.payload = some text) :
    ∃ piece ∈ pieces, text.toList <:+: piece := by
  induction pieces generalizing tokens with
  | nil =>
    cases h
    cases ht
  | cons piece pieces ih =>
    rw [ofPieces] at h
    split at h
    · obtain ⟨found, hfound, hpart⟩ := ih h ht
      exact ⟨found, List.mem_cons_of_mem _ hfound, hpart⟩
    · split at h
      · rename_i token htoken
        rcases hrest : ofPieces pieces with e | rest
        · rw [hrest] at h
          cases h
        rw [hrest] at h
        cases h
        rcases List.mem_cons.1 ht with rfl | ht
        · exact ⟨piece, List.mem_cons_self .., (infix_of_ofPiece htoken htext).trans (isInfix_trimWith _ _)⟩
        · obtain ⟨found, hfound, hpart⟩ := ih hrest ht
          exact ⟨found, List.mem_cons_of_mem _ hfound, hpart⟩
      · cases h

/-! ## Written tokens -/

/-- The written form of a clear token has no delimiter. -/
theorem not_infix_written (h : t.Clear) : ¬ delimiter <:+: (written t).toList := by
  cases hpayload : t.payload with
  | none =>
    rw [toList_written_of_none hpayload]
    exact not_infix_name t.kind
  | some text =>
    rw [toList_written_of_some hpayload]
    intro hpart
    rcases infix_append_cons (by decide) hpart with hname | hrest
    · exact not_infix_name t.kind hname
    · rcases infix_append_cons (by decide) hrest with htext | hend
      · exact h text hpayload htext
      · cases List.infix_nil.1 hend

/-- A clear token is read back from the pieces of its written form. -/
theorem ofPieces_written (h : t.Clear) : ofPieces (splitText delimiter (written t).toList) = .ok [t] := by
  rw [splitText_uncut (not_infix_written h), ofPieces, trim_written]
  split
  · rename_i hnil
    cases hpayload : t.payload with
    | none => exact absurd ((toList_written_of_none hpayload).symm.trans hnil) (name_chars t.kind).1
    | some text =>
      rw [toList_written_of_some hpayload] at hnil
      simp at hnil
  · rw [ofPiece_written]
    rfl

/-- A token that is not clear is cut, and both ends give tokens. -/
theorem two_le_length_of_not_clear (h : ¬ t.Clear)
    (hread : ofPieces (splitText delimiter (written t).toList) = .ok tokens) : 2 ≤ tokens.length := by
  obtain ⟨text, hpayload, before, after, htext⟩ : ∃ text, t.payload = some text ∧ delimiter <:+: text.toList := by
    simpa [Clear] using h
  have hwritten : (written t).toList =
      (t.kind.name.toList ++ '(' :: before) ++ delimiter ++ (after ++ [')']) := by
    rw [toList_written_of_some hpayload, ← htext]
    simp
  rw [hwritten, splitText_append delimiter_ne_nil unbordered_delimiter, ofPieces_eq_ok_append] at hread
  obtain ⟨first, rest, hfirst, hrest, rfl⟩ := hread
  -- one end has the opening parenthesis, the other one the closing parenthesis
  have hopening : '(' ∈ t.kind.name.toList ++ '(' :: before := by simp
  have hclosing : ')' ∈ after ++ [')'] := by simp
  obtain ⟨front, hfront, hopen⟩ := exists_mem_splitText hopening (show '(' ∉ delimiter by decide)
  obtain ⟨back, hback, hclose⟩ := exists_mem_splitText hclosing (show ')' ∉ delimiter by decide)
  have hfirst := List.length_pos_iff.2 (ofPieces_ne_nil hfront hopen (by decide) hfirst)
  have hrest := List.length_pos_iff.2 (ofPieces_ne_nil hback hclose (by decide) hrest)
  rw [List.length_append]
  omega

/-- Clear tokens are read back from the pieces of their written forms. -/
theorem ofPieces_writtens (h : ∀ t ∈ tokens, t.Clear) :
    ofPieces (tokens.flatMap fun t => splitText delimiter (written t).toList) = .ok tokens := by
  induction tokens with
  | nil => rfl
  | cons t tokens ih =>
    rw [List.flatMap_cons, ofPieces_eq_ok_append]
    obtain ⟨ht, htokens⟩ := List.forall_mem_cons.1 h
    exact ⟨[t], tokens, ofPieces_written ht, ih htokens, rfl⟩

/-- Tokens never become fewer, and more where one of them is cut. -/
theorem clear_or_length_lt {found : List Token}
    (h : ofPieces (tokens.flatMap fun t => splitText delimiter (written t).toList) = .ok found) :
    ((∀ t ∈ tokens, t.Clear) ∧ found = tokens) ∨ tokens.length < found.length := by
  induction tokens generalizing found with
  | nil =>
    cases h
    exact .inl ⟨nofun, rfl⟩
  | cons t tokens ih =>
    rw [List.flatMap_cons, ofPieces_eq_ok_append] at h
    obtain ⟨first, rest, hfirst, hrest, rfl⟩ := h
    rw [List.length_append, List.length_cons]
    by_cases ht : t.Clear
    · cases (ofPieces_written ht).symm.trans hfirst
      rcases ih hrest with ⟨hclear, rfl⟩ | hlt
      · exact .inl ⟨List.forall_mem_cons.2 ⟨ht, hclear⟩, rfl⟩
      · exact .inr (by rw [List.length_singleton]; omega)
    · have htwo := two_le_length_of_not_clear ht hfirst
      refine .inr ?_
      rcases ih hrest with ⟨-, rfl⟩ | hlt <;> omega

/-! ## Streams -/

theorem readStream_writeStream (tokens : List Token) :
    readStream (writeStream tokens) = ofPieces (tokens.flatMap fun t => splitText delimiter (written t).toList) := by
  rw [readStream, writeStream, joinWith, String.toList_intercalate, String.toList_ofList]
  cases tokens with
  | nil =>
    rw [List.map_nil, List.map_nil, List.intercalate_nil, splitText_uncut (by decide)]
    rfl
  | cons t tokens =>
    rw [splitText_intercalate delimiter_ne_nil unbordered_delimiter (by simp), List.map_map, List.flatMap_map]
    rfl

/-- What has been read has no delimiter in its texts. -/
theorem clear_of_readStream (h : readStream text = .ok tokens) (ht : t ∈ tokens) : t.Clear := by
  intro payload hpayload hdelimiter
  obtain ⟨piece, hpiece, hpart⟩ := infix_of_ofPieces h ht hpayload
  exact not_infix_of_mem_splitText delimiter_ne_nil hpiece (hdelimiter.trans hpart)

/-- **Which tokens survive being written**: exactly those that have no delimiter in their texts, and all that have been
read. -/
theorem readStream_writeStream_iff :
    (∀ tokens : List Token, readStream (writeStream tokens) = .ok tokens ↔
      ∀ t ∈ tokens, ∀ text ∈ t.payload, ¬ delimiter <:+: text.toList) ∧
    ∀ (text : String) (tokens : List Token), readStream text = .ok tokens →
      readStream (writeStream tokens) = .ok tokens := by
  have hiff (tokens : List Token) : readStream (writeStream tokens) = .ok tokens ↔ ∀ t ∈ tokens, t.Clear := by
    rw [readStream_writeStream]
    refine ⟨fun h => ?_, ofPieces_writtens⟩
    rcases clear_or_length_lt h with ⟨hclear, -⟩ | hlt
    · exact hclear
    · exact absurd hlt (Nat.lt_irrefl _)
  exact ⟨hiff, fun text tokens h => (hiff tokens).2 fun t ht => clear_of_readStream h ht⟩

/-- A name in blanks, a text with parentheses and a blank before its own, a piece of nothing, and a text with a part of
the delimiter. -/
def paddedStream : String := "\n STRUCT [_!]IDENT (f(x) ) )[_!] [_!]COMMAND([_![_)[_!]EOF\n"

theorem paddedStream_survives :
    ∃ tokens, readStream paddedStream = .ok tokens ∧
      tokens.map (·.payload) = [none, some "f(x) ) ", some "[_![_", none] ∧
      readStream (writeStream tokens) = .ok tokens := by
  have hread : (readStream paddedStream).map (·.map (·.payload)) =
      .ok [none, some "f(x) ) ", some "[_![_", none] := by decide +kernel
  rcases h : readStream paddedStream with e | tokens
  · rw [h] at hread
    cases hread
  · rw [h] at hread
    exact ⟨tokens, rfl, Except.ok.inj hread, readStream_writeStream_iff.2 _ _ h⟩

end GuardedConfig.Token
