import GuardedConfig.Proofs.Trigger.Derivation
import Mathlib.Data.Nat.Digits.Defs

/-!
# `Proofs.Trigger.Printing` — programs and their texts

A program is well-formed if its names are names of the language, its calls have as many arguments as they may have, and
its literals are of the kinds that can be written down exactly. Every such program has a text, and it is read back from
every text that is laid out from its tokens. All programs that are read are well-formed, but for numbers with a fraction
or beyond 64 bits, which are read as double-precision numbers.

## Contents

* `IsPlain`, `IsLiteral`, `Expr.WellFormed`, `Stmt.WellFormed` — well-formed programs
* `numberValue_intText` — whole numbers are read back
* `Expr.tokens`, `Stmt.tokens` — the tokens of a program: `Expr.written_tokens`, `Stmt.written_tokens`
* `laid_spaced` — a text of tokens
* `Written.wellFormed` — what is written is well-formed
* `readProgram_laid`
-/

namespace GuardedConfig.Trigger

open Text Decimal

/-! ## Well-formed programs -/

/-- A name of the language: a word that is no keyword. -/
def IsIdentifier (name : String) : Prop := IsWord name.toList ∧ isName name = true

instance (name : String) : Decidable (IsIdentifier name) :=
  inferInstanceAs (Decidable (IsWord name.toList ∧ isName name = true))

/-- The literals that are written down exactly. -/
inductive IsPlain : Json → Prop
  | null : IsPlain .null
  | bool (b : Bool) : IsPlain (.bool b)
  | int {n : Int} : isInt64 n = true → IsPlain (.int n)
  | str (s : String) : IsPlain (.str s)

/-- The literals that are read: finite double-precision numbers as well. -/
inductive IsLiteral : Json → Prop
  | plain {v : Json} : IsPlain v → IsLiteral v
  | real {x : Binary64} : x.isFinite = true → IsLiteral (.real x)

/-- An expression with names of the language, calls with possible numbers of arguments, and literals of a kind. -/
inductive Expr.WellFormed (Literal : Json → Prop) : Expr → Prop
  | literal {v : Json} : Literal v → WellFormed Literal (.literal v)
  | var {name : String} : IsIdentifier name → WellFormed Literal (.var name)
  | not {e : Expr} : WellFormed Literal e → WellFormed Literal (.not e)
  | compare {a b : Expr} (op : Comparison) : WellFormed Literal a → WellFormed Literal b →
      WellFormed Literal (.compare a op b)
  | index {e i : Expr} : WellFormed Literal e → WellFormed Literal i → WellFormed Literal (.index e i)
  | member {e : Expr} {name : String} : WellFormed Literal e → IsIdentifier name → WellFormed Literal (.member e name)
  | call {c : Capability} {arguments : List Expr} : (∀ a ∈ arguments, WellFormed Literal a) →
      c.least ≤ arguments.length → arguments.length ≤ c.most → WellFormed Literal (.call c arguments)

/-- A statement with names of the language and well-formed expressions. -/
inductive Stmt.WellFormed (Literal : Json → Prop) : Stmt → Prop
  | bind {name : String} {e : Expr} : IsIdentifier name → e.WellFormed Literal → WellFormed Literal (.bind name e)
  | branch {c : Expr} {yes no : List Stmt} : c.WellFormed Literal → (∀ s ∈ yes, WellFormed Literal s) →
      (∀ s ∈ no, WellFormed Literal s) → WellFormed Literal (.branch c yes no)
  | done : WellFormed Literal (.done none)
  | doneWith {e : Expr} : e.WellFormed Literal → WellFormed Literal (.done (some e))
  | eval {e : Expr} : e.WellFormed Literal → WellFormed Literal (.eval e)

/-- A program of well-formed statements. -/
def WellFormed (Literal : Json → Prop) (program : List Stmt) : Prop := ∀ s ∈ program, s.WellFormed Literal

/-! ## Whole numbers -/

theorem isAsciiDigit_of_isDigit {c : Char} (h : c.isDigit = true) : isAsciiDigit c = true := by
  simp only [Char.isDigit, Bool.and_eq_true, decide_eq_true_eq] at h
  simp only [isAsciiDigit, Bool.and_eq_true, decide_eq_true_eq]
  exact h

theorem isAsciiDigit_of_mem_toDigits {n : Nat} : ∀ c ∈ Nat.toDigits 10 n, isAsciiDigit c = true := fun _ hc =>
  isAsciiDigit_of_isDigit (Nat.isDigit_of_mem_toDigits (by decide) (Nat.le_refl 10) hc)

/-- A digit is the character of its value. -/
theorem digitChar_sub {c : Char} (h : isAsciiDigit c = true) : digitChar (c.toNat - 48) = c := by
  simp only [isAsciiDigit, Bool.and_eq_true, decide_eq_true_eq, Char.le_def, UInt32.le_iff_toNat_le] at h
  have hle : 48 ≤ c.toNat := h.1
  rw [digitChar, Nat.add_sub_cancel' hle, Char.ofNat_toNat]

theorem toList_digitText (n : Nat) : (digitText (digitsOf n)).toList = Nat.toDigits 10 n := by
  rw [digitText, digitsOf, String.toList_ofList, List.map_map]
  exact (List.map_congr_left fun c hc => digitChar_sub (isAsciiDigit_of_mem_toDigits c hc)).trans (List.map_id _)

theorem natOf_toDigits (n : Nat) : natOf (Nat.toDigits 10 n) = n :=
  Nat.ofDigitChars_ten_toDigits

/-- The characters of a whole number: its digits, behind a minus if it is negative. -/
theorem toList_intText (n : Int) : (Json.intText n).toList =
    if n < 0 then '-' :: Nat.toDigits 10 n.natAbs else Nat.toDigits 10 n.natAbs := by
  unfold Json.intText
  split
  · rw [String.toList_append, toList_digitText]
    rfl
  · exact toList_digitText _

theorem isUnsigned_toDigits (n : Nat) : IsUnsigned (Nat.toDigits 10 n) :=
  .whole (by simp) isAsciiDigit_of_mem_toDigits

theorem isNumber_intText (n : Int) : IsNumber (Json.intText n).toList := by
  rw [toList_intText]
  split
  · exact .inr ⟨_, rfl, isUnsigned_toDigits _⟩
  · exact .inl (isUnsigned_toDigits _)

theorem takeSign_of_isUnsigned {cs : List Char} (h : IsUnsigned cs) : takeSign cs = (false, cs) := by
  obtain ⟨c, rest, rfl, hc⟩ := h.begins
  unfold takeSign
  split
  · rename_i he
    cases he
    exact absurd hc (by decide)
  · rename_i he
    cases he
    exact absurd hc (by decide)
  · rfl

theorem readInt?_intText {n : Int} (h : isInt64 n = true) : readInt? (Json.intText n).toList = some n := by
  have hdigits : (Nat.toDigits 10 n.natAbs).isEmpty = false ∧ (Nat.toDigits 10 n.natAbs).all isAsciiDigit = true :=
    ⟨by simp, List.all_eq_true.2 isAsciiDigit_of_mem_toDigits⟩
  rw [toList_intText]
  split
  case isTrue hneg =>
    have hvalue : -(natOf (Nat.toDigits 10 n.natAbs) : Int) = n := by
      rw [natOf_toDigits]
      omega
    simp [readInt?, takeSign, hdigits.1, hdigits.2, hvalue, h]
  case isFalse hpos =>
    have hvalue : (natOf (Nat.toDigits 10 n.natAbs) : Int) = n := by
      rw [natOf_toDigits]
      omega
    simp [readInt?, takeSign_of_isUnsigned (isUnsigned_toDigits _), hdigits.1, hdigits.2, hvalue, h]

/-- A whole number of 64 bits is the value of its text. -/
theorem numberValue_intText {n : Int} (h : isInt64 n = true) : numberValue (Json.intText n) = .ok (.int n) := by
  rw [numberValue, readInt?_intText h]

/-- Only numbers of 64 bits are read as whole numbers. -/
theorem isInt64_of_readInt? {cs : List Char} {n : Int} (h : readInt? cs = some n) : isInt64 n = true := by
  unfold readInt? at h
  dsimp only at h
  generalize (if (takeSign cs).1 = true then -(natOf (takeSign cs).2 : Int) else natOf (takeSign cs).2) = m at h
  split at h
  case isTrue hint =>
    cases h
    exact (Bool.and_eq_true_iff.1 hint).2
  case isFalse => cases h

theorem isLiteral_of_numberValue {text : String} {v : Json} (h : numberValue text = .ok v) : IsLiteral v := by
  unfold numberValue at h
  split at h
  · rename_i n hn
    cases h
    exact .plain (.int (isInt64_of_readInt? hn))
  · split at h
    · split at h
      case isTrue hfinite =>
        cases h
        exact .real hfinite
      case isFalse => cases h
    · cases h

/-! ## Printing -/

/-- The token of a literal that is written down exactly. -/
def literalToken : Json → Lexeme
  | .bool b => .word (if b then "true" else "false")
  | .int n => .number (Json.intText n)
  | .str s => .string s
  | _ => .word "null"

/-- The place for which an expression needs no parentheses. -/
def Expr.level : Expr → Level
  | compare .. => .whole
  | not _ => .operand
  | _ => .target

/-- The tokens of an expression at a place, in parentheses if it needs them there. -/
def enclosed (place own : Level) (ts : List Lexeme) : List Lexeme :=
  if own = .target ∨ place = .whole ∨ own = place then ts else .sign .openParen :: (ts ++ [.sign .closeParen])

mutual

/-- The tokens of an expression, with parentheses around compound operands. -/
def Expr.tokens : Expr → List Lexeme
  | .literal v => [literalToken v]
  | .var name => [.word name]
  | .not e => .sign .bang :: enclosed .operand e.level e.tokens
  | .compare a op b => enclosed .operand a.level a.tokens ++ .comparison op :: enclosed .operand b.level b.tokens
  | .index e i => enclosed .target e.level e.tokens ++ .sign .openBracket :: (i.tokens ++ [.sign .closeBracket])
  | .member e name => enclosed .target e.level e.tokens ++ [.sign .dot, .word name]
  | .call c arguments =>
    .word c.name :: .sign .openParen :: (argumentTokens (Expr.tokensEach arguments) ++ [.sign .closeParen])

/-- The tokens of each of some expressions. -/
def Expr.tokensEach : List Expr → List (List Lexeme)
  | [] => []
  | e :: es => e.tokens :: Expr.tokensEach es

end

/-- Whether a statement is a branch. -/
def Stmt.isBranch : Stmt → Bool
  | branch .. => true
  | _ => false

mutual

/-- The tokens of a statement. -/
def Stmt.tokens : Stmt → List Lexeme
  | .bind name e => .word "let" :: .word name :: .sign .assign :: (e.tokens ++ [.sign .semicolon])
  | .branch c yes no => .word "if" :: (c.tokens ++ (blockTokens (Stmt.tokensEach yes) ++ Stmt.otherTokens no))
  | .done none => [.word "return", .sign .semicolon]
  | .done (some e) => .word "return" :: (e.tokens ++ [.sign .semicolon])
  | .eval e => e.tokens ++ [.sign .semicolon]

/-- The tokens of each of some statements. -/
def Stmt.tokensEach : List Stmt → List (List Lexeme)
  | [] => []
  | s :: ss => s.tokens :: Stmt.tokensEach ss

/-- The tokens of the other side of a branch: nothing if it is empty, and no braces around a single branch. -/
def Stmt.otherTokens : List Stmt → List Lexeme
  | [] => []
  | s :: ss =>
    .word "else" :: (if s.isBranch && ss.isEmpty then s.tokens else blockTokens (s.tokens :: Stmt.tokensEach ss))

end

/-- The tokens of a program. -/
def tokens (program : List Stmt) : List Lexeme := (Stmt.tokensEach program).flatten

theorem Expr.tokensEach_eq (es : List Expr) : Expr.tokensEach es = es.map Expr.tokens := by
  induction es with
  | nil => rfl
  | cons e es ih => rw [Expr.tokensEach, ih, List.map_cons]

theorem Stmt.tokensEach_eq (ss : List Stmt) : Stmt.tokensEach ss = ss.map Stmt.tokens := by
  induction ss with
  | nil => rfl
  | cons s ss ih => rw [Stmt.tokensEach, ih, List.map_cons]

/-! ### Printed programs are written -/

variable {e : Expr} {s : Stmt} {ts : List Lexeme} {level : Level} {Literal : Json → Prop}

theorem Expr.Written.at_place (h : e.Written .target ts) (place : Level) : e.Written place ts := by
  cases place with
  | target => exact h
  | operand => exact .target h
  | whole => exact .operand (.target h)

theorem Expr.Written.to_whole (h : e.Written level ts) : e.Written .whole ts := by
  cases level with
  | target => exact h.at_place _
  | operand => exact .operand h
  | whole => exact h

theorem Expr.Written.enclosed (h : e.Written level ts) (place : Level) : e.Written place (enclosed place level ts) := by
  unfold Trigger.enclosed
  split
  case isTrue hfits =>
    rcases hfits with rfl | rfl | rfl
    · exact h.at_place place
    · exact h.to_whole
    · exact h
  case isFalse => exact (Expr.Written.paren h.to_whole).at_place place

theorem written_literalToken {v : Json} (h : IsPlain v) : Expr.Written .target (.literal v) [literalToken v] := by
  cases h with
  | null => exact .null
  | bool b => exact .bool b
  | int hn => exact .number (numberValue_intText hn)
  | str s => exact .string s

theorem Expr.written_tokens (h : e.WellFormed IsPlain) : e.Written e.level e.tokens := by
  induction h with
  | literal hv => exact written_literalToken hv
  | var hname => exact .var hname.2
  | not _ ih => exact .not (ih.enclosed _)
  | compare op _ _ iha ihb => exact .compare (iha.enclosed _) (ihb.enclosed _)
  | index _ _ ihe ihi => exact .index (ihe.enclosed _) ihi.to_whole
  | member _ hname ih => exact .member (ih.enclosed _) hname.2
  | @call c arguments _ hleast hmost ih =>
    have harguments : ∀ a ∈ arguments.map fun a => (a, a.tokens), a.1.Written .whole a.2 :=
      List.forall_mem_map.2 fun a ha => (ih a ha).to_whole
    have hcall := Expr.Written.call (c := c) harguments (by rwa [List.length_map]) (by rwa [List.length_map])
    simp only [List.map_map, Function.comp_def, List.map_id'] at hcall
    rw [Expr.tokens, Expr.tokensEach_eq]
    exact hcall

theorem Stmt.written_tokens (h : s.WellFormed IsPlain) : s.Written s.tokens := by
  induction h with
  | bind hname he => exact .bind hname.2 (Expr.written_tokens he).to_whole
  | @branch c yes no hc _ _ ihyes ihno =>
    have hcondition := (Expr.written_tokens hc).to_whole
    have hyes : ∀ s ∈ yes.map fun s => (s, s.tokens), s.1.Written s.2 := List.forall_mem_map.2 ihyes
    have hno : ∀ s ∈ no.map fun s => (s, s.tokens), s.1.Written s.2 := List.forall_mem_map.2 ihno
    have hbare := Stmt.Written.branch hcondition hyes
    have hblock := Stmt.Written.otherwise hcondition hyes hno
    have hchain {c' : Expr} {yes' no' : List Stmt} {us : List Lexeme} (hother : (Stmt.branch c' yes' no').Written us) :=
      Stmt.Written.elseIf hcondition hyes hother
    simp only [List.map_map, Function.comp_def, List.map_id'] at hbare hblock hchain
    rw [Stmt.tokens, Stmt.tokensEach_eq]
    cases no with
    | nil =>
      rw [Stmt.otherTokens, List.append_nil]
      exact hbare
    | cons s more =>
      rw [Stmt.otherTokens]
      split
      case isTrue hsingle =>
        obtain ⟨hbranch, hempty⟩ := Bool.and_eq_true_iff.1 hsingle
        cases List.isEmpty_iff.1 hempty
        cases s with
        | branch c' yes' no' => exact hchain (ihno _ (List.mem_singleton_self _))
        | bind | done | eval => cases hbranch
      case isFalse =>
        rw [Stmt.tokensEach_eq]
        exact hblock
  | done => exact .done
  | doneWith he => exact .doneWith (Expr.written_tokens he).to_whole
  | eval he => exact .eval (Expr.written_tokens he).to_whole

theorem written_tokens {program : List Stmt} (h : WellFormed IsPlain program) : Written program (tokens program) := by
  refine ⟨program.map fun s => (s, s.tokens), List.forall_mem_map.2 fun s hs => Stmt.written_tokens (h s hs), ?_, ?_⟩
  · simp [Function.comp_def]
  · rw [tokens, Stmt.tokensEach_eq, List.map_map]
    rfl

/-! ### Printed programs have a text -/

/-- Tokens with a blank before each of them. -/
def spaced (ts : List Lexeme) : List Char := ts.flatMap fun l => ' ' :: l.chars

theorem laid_spaced (h : AllValid ts) (run : Bool) : Laid run ts (spaced ts) := by
  induction ts generalizing run with
  | nil => exact .nil .nil
  | cons l ts ih =>
    obtain ⟨hl, hts⟩ := allValid_cons.1 h
    have hgap : Gap [' '] := .blank rfl .nil
    exact .cons hl hgap (fun _ _ => List.cons_ne_nil _ _) (ih hts l.isRun)

@[simp] theorem allValid_argumentTokens {tss : List (List Lexeme)} :
    AllValid (argumentTokens tss) ↔ ∀ ts ∈ tss, AllValid ts := by
  cases tss with
  | nil => simp [argumentTokens]
  | cons ts tss => simp [argumentTokens, List.flatMap_def]

@[simp] theorem allValid_blockTokens {body : List (List Lexeme)} :
    AllValid (blockTokens body) ↔ ∀ ts ∈ body, AllValid ts := by
  simp [blockTokens]

@[simp] theorem allValid_enclosed {place own : Level} : AllValid (enclosed place own ts) ↔ AllValid ts := by
  unfold enclosed
  split
  · rfl
  · simp

/-- The words of the grammar are words. -/
theorem valid_keyword : ∀ word ∈ keywords, (Lexeme.word word).Valid := by
  show ∀ word ∈ keywords, IsWord word.toList
  decide

@[simp] theorem valid_name (c : Capability) : (Lexeme.word c.name).Valid := by
  show IsWord c.name.toList
  cases c <;> decide

theorem valid_literalToken {v : Json} (h : IsPlain v) : (literalToken v).Valid := by
  cases h with
  | null => exact valid_keyword "null" (by decide)
  | bool b => exact valid_keyword _ (by cases b <;> decide)
  | @int n hn => exact isNumber_intText n
  | str s => trivial

theorem Expr.valid_tokens (h : e.WellFormed IsPlain) : AllValid e.tokens := by
  induction h with
  | literal hv => simpa [Expr.tokens] using valid_literalToken hv
  | var hname => simpa [Expr.tokens] using (show (Lexeme.word _).Valid from hname.1)
  | not _ ih => simpa [Expr.tokens] using ih
  | compare op _ _ iha ihb => simpa [Expr.tokens] using ⟨iha, ihb⟩
  | index _ _ ihe ihi => simpa [Expr.tokens] using ⟨ihe, ihi⟩
  | member _ hname ih => simpa [Expr.tokens] using ⟨ih, hname.1⟩
  | call _ _ _ ih => simpa [Expr.tokens, Expr.tokensEach_eq] using ih

theorem Stmt.valid_tokens (h : s.WellFormed IsPlain) : AllValid s.tokens := by
  have hlet := valid_keyword "let" (by decide)
  have hif := valid_keyword "if" (by decide)
  have helse := valid_keyword "else" (by decide)
  have hreturn := valid_keyword "return" (by decide)
  induction h with
  | bind hname he => simpa [Stmt.tokens, hlet] using ⟨hname.1, Expr.valid_tokens he⟩
  | @branch c yes no hc _ _ ihyes ihno =>
    have hother : AllValid (Stmt.otherTokens no) := by
      cases no with
      | nil => exact allValid_nil
      | cons s more =>
        obtain ⟨hs, hmore⟩ := List.forall_mem_cons.1 ihno
        refine allValid_cons.2 ⟨helse, ?_⟩
        split
        · exact hs
        · simpa [Stmt.tokensEach_eq] using ⟨hs, hmore⟩
    simpa [Stmt.tokens, Stmt.tokensEach_eq, hif] using ⟨Expr.valid_tokens hc, ihyes, hother⟩
  | done => simpa [Stmt.tokens] using hreturn
  | doneWith he => simpa [Stmt.tokens, hreturn] using Expr.valid_tokens he
  | eval he => simpa [Stmt.tokens] using Expr.valid_tokens he

theorem valid_tokens {program : List Stmt} (h : WellFormed IsPlain program) : AllValid (tokens program) := by
  simpa [tokens, Stmt.tokensEach_eq] using fun s hs => Stmt.valid_tokens (h s hs)

/-! ## What is written is well-formed -/

/-- The expression of tokens that can be written is well-formed. -/
theorem Expr.Written.wellFormed (h : e.Written level ts) (hts : AllValid ts) : e.WellFormed IsLiteral := by
  induction h with
  | null => exact .literal (.plain .null)
  | bool b => exact .literal (.plain (.bool b))
  | number hv => exact .literal (isLiteral_of_numberValue hv)
  | string text => exact .literal (.plain (.str text))
  | var hname => exact .var ⟨hts _ (List.mem_singleton_self _), hname⟩
  | @call c arguments _ hleast hmost ih =>
    have htokens := (allValid_append.1 (allValid_cons.1 (allValid_cons.1 hts).2).2).1
    have hvalid := List.forall_mem_map.1 (allValid_argumentTokens.1 htokens)
    exact .call (List.forall_mem_map.2 fun a ha => ih a ha (hvalid a ha)) (by rwa [List.length_map])
      (by rwa [List.length_map])
  | paren _ ih => exact ih (by simpa using hts)
  | @index e i ts us _ _ ihe ihi =>
    obtain ⟨he, hi⟩ : AllValid ts ∧ AllValid us := by simpa using hts
    exact .index (ihe he) (ihi hi)
  | @member e name ts _ hname ih =>
    obtain ⟨he, hword⟩ : AllValid ts ∧ (Lexeme.word name).Valid := by simpa using hts
    exact .member (ih he) ⟨hword, hname⟩
  | target _ ih => exact ih hts
  | not _ ih => exact .not (ih (by simpa using hts))
  | operand _ ih => exact ih hts
  | @compare a b op ts us _ _ iha ihb =>
    obtain ⟨ha, hb⟩ : AllValid ts ∧ AllValid us := by simpa using hts
    exact .compare _ (iha ha) (ihb hb)

/-- The statement of tokens that can be written is well-formed. -/
theorem Stmt.Written.wellFormed (h : s.Written ts) (hts : AllValid ts) : s.WellFormed IsLiteral := by
  have hbody {body : List (Stmt × List Lexeme)} (hblock : AllValid (blockTokens (body.map (·.2))))
      (ih : ∀ s ∈ body, AllValid s.2 → s.1.WellFormed IsLiteral) : ∀ s ∈ body.map (·.1), s.WellFormed IsLiteral := by
    have hvalid := List.forall_mem_map.1 (allValid_blockTokens.1 hblock)
    exact List.forall_mem_map.2 fun s hs => ih s hs (hvalid s hs)
  induction h with
  | @bind name e ts hname he =>
    obtain ⟨-, hword, htail⟩ : (Lexeme.word "let").Valid ∧ (Lexeme.word name).Valid ∧ AllValid ts := by simpa using hts
    exact .bind ⟨hword, hname⟩ (he.wellFormed htail)
  | branch hc _ ih =>
    obtain ⟨hcondition, hyes⟩ := allValid_append.1 (allValid_cons.1 hts).2
    exact .branch (hc.wellFormed hcondition) (hbody hyes ih) nofun
  | otherwise hc _ _ ihyes ihno =>
    obtain ⟨hcondition, htail⟩ := allValid_append.1 (allValid_cons.1 hts).2
    obtain ⟨hyes, hno⟩ := allValid_append.1 htail
    exact .branch (hc.wellFormed hcondition) (hbody hyes ihyes) (hbody (allValid_cons.1 hno).2 ihno)
  | elseIf hc _ _ ihyes ihno =>
    obtain ⟨hcondition, htail⟩ := allValid_append.1 (allValid_cons.1 hts).2
    obtain ⟨hyes, hno⟩ := allValid_append.1 htail
    exact .branch (hc.wellFormed hcondition) (hbody hyes ihyes)
      (List.forall_mem_singleton.2 (ihno (allValid_cons.1 hno).2))
  | done => exact .done
  | doneWith he => exact .doneWith (he.wellFormed (allValid_append.1 (allValid_cons.1 hts).2).1)
  | eval he => exact .eval (he.wellFormed (allValid_append.1 hts).1)

theorem Written.wellFormed {program : List Stmt} (h : Written program ts) (hts : AllValid ts) :
    WellFormed IsLiteral program := by
  obtain ⟨parts, hparts, rfl, rfl⟩ := h
  have hvalid := List.forall_mem_map.1 (allValid_flatten.1 hts)
  exact List.forall_mem_map.2 fun s hs => (hparts s hs).wellFormed (hvalid s hs)

/-! ## Round trip -/

/-- **A program is read back from every text that is laid out from its tokens.** This holds for the tokens with which a
well-formed program is printed, which have a text, and for any others that write it. Conversely, what is read is
well-formed, but for finite numbers that are no whole numbers of 64 bits. -/
theorem readProgram_laid :
    (∀ program, WellFormed IsPlain program → Laid false (tokens program) (spaced (tokens program)) ∧
      ∀ text, Laid false (tokens program) text.toList → readProgram text = .ok program) ∧
    (∀ program ts text, Written program ts → Laid false ts text.toList → readProgram text = .ok program) ∧
    ∀ text program, readProgram text = .ok program → WellFormed IsLiteral program := by
  have hread : ∀ program ts text, Written program ts → Laid false ts text.toList → readProgram text = .ok program :=
    fun program ts text hwritten hlaid =>
      readProgram_eq_ok_iff.2 ⟨ts, lexemesOf_of_laid hlaid hwritten.apart, hwritten⟩
  refine ⟨fun program h => ⟨laid_spaced (valid_tokens h) false, fun text hlaid => ?_⟩, hread, fun text program h => ?_⟩
  · exact hread program (tokens program) text (written_tokens h) hlaid
  · obtain ⟨ts, hts, hwritten⟩ := readProgram_eq_ok_iff.1 h
    exact hwritten.wellFormed (valid_of_lexemesOf hts)

/-- A variable named like a capability, a negative number, a string with a quote, and `else if`. -/
theorem readProgram_laid_elseIf :
    let program : List Stmt :=
      [.bind "GET" (.literal (.int (-5))), .branch (.not (.var "letter")) [.done none]
        [.branch (.compare (.var "GET") .ne (.literal (.str "a\"b"))) [] []]]
    WellFormed IsPlain program ∧
      readProgram " let GET = -5 ; if ! letter \x7b return ; \x7d else if GET != \"a\\\"b\" \x7b \x7d" =
        .ok program := by
  intro program
  have hprogram : WellFormed IsPlain program := by
    have hother : Stmt.WellFormed IsPlain (.branch (.compare (.var "GET") .ne (.literal (.str "a\"b"))) [] []) :=
      .branch (.compare _ (.var (by decide)) (.literal (.str _))) nofun nofun
    have hbranch := Stmt.WellFormed.branch (.not (.var (show IsIdentifier "letter" by decide)))
      (List.forall_mem_singleton.2 .done) (List.forall_mem_singleton.2 hother)
    exact List.forall_mem_cons.2 ⟨.bind (by decide) (.literal (.int (by decide))), List.forall_mem_singleton.2 hbranch⟩
  obtain ⟨hlaid, hread⟩ := readProgram_laid.1 program hprogram
  have htext : " let GET = -5 ; if ! letter \x7b return ; \x7d else if GET != \"a\\\"b\" \x7b \x7d".toList =
      spaced (tokens program) := by decide +kernel
  exact ⟨hprogram, hread _ (htext ▸ hlaid)⟩

end GuardedConfig.Trigger
