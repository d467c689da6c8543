import GuardedConfig.Decimal.Numeral
import GuardedConfig.Pattern.Basic
import GuardedConfig.Text.Split

/-!
# `Pattern.Read` — the written form of patterns

Patterns are written in the usual notation: classes, groups with and without names, flags, counted repetitions,
escapes and properties. There is no look-around and there are no back-references; a pattern that uses one is no
pattern. Flags hold until the end of the group in which they stand.

## Contents

* `Flags`, `readFlags`
* `readEscape` — what a backslash introduces
* `readClass` — a class between brackets
* `readBranches` — alternatives up to the end of a group
* `Pattern.ofText?` — a whole pattern
-/

namespace GuardedConfig.Pattern

open Text Decimal

/-! ## Reading characters -/

/-- A step of reading: it takes characters from the front of a text, or fails. -/
abbrev Reading := StateT (List Char) Option

/-- The next character, which stays. -/
def peek? : Reading (Option Char) := do return (← get).head?

/-- The next character, which is taken. -/
def next : Reading Char := do
  match ← get with
  | c :: cs =>
    set cs
    return c
  | [] => failure

/-- Takes `mark` if the text begins with it. -/
def skipMark (mark : String) : Reading Bool := do
  match dropMark? mark.toList (← get) with
  | some rest =>
    set rest
    return true
  | none => return false

/-- Takes the characters that satisfy a condition. -/
def takeWhile (p : Char → Bool) : Reading (List Char) := do
  let cs ← get
  set (cs.dropWhile p)
  return cs.takeWhile p

/-! ## Flags -/

/-- The flags that hold at a place of a pattern. -/
structure Flags where
  ignoreCase : Bool := false
  multiLine : Bool := false
  dotAll : Bool := false
  unicode : Bool := true
  returns : Bool := false
  verbose : Bool := false
deriving DecidableEq, Repr, Inhabited

/-- Sets or clears the flag with a letter; `U` only changes which match is preferred. -/
def Flags.put (f : Flags) (letter : Char) (on : Bool) : Option Flags :=
  match letter with
  | 'i' => some { f with ignoreCase := on }
  | 'm' => some { f with multiLine := on }
  | 's' => some { f with dotAll := on }
  | 'u' => some { f with unicode := on }
  | 'R' => some { f with returns := on }
  | 'x' => some { f with verbose := on }
  | 'U' => some f
  | _ => none

/-- Flags between `(?` and `:` or `)`: each letter at most once, at most one minus, and not at the end. -/
def applyFlags (f : Flags) (on : Bool) (used : List Char) : List Char → Option Flags
  | [] => if used.head? = some '-' then none else some f
  | c :: cs =>
    if used.contains c then none
    else if c = '-' then applyFlags f false (c :: used) cs
    else do applyFlags (← f.put c on) on (c :: used) cs

/-- Drops what a verbose pattern ignores: blanks, and comments up to the end of the line. -/
def dropIgnored (cs : List Char) : List Char :=
  match cs with
  | [] => []
  | c :: rest =>
    if isBlank c then dropIgnored rest
    else if c = '#' then dropIgnored ((rest.dropWhile (· != '\n')).drop 1)
    else c :: rest
termination_by cs.length
decreasing_by
  · simp
  · have := (List.dropWhile_sublist (· != '\n') (l := rest)).length_le
    simp only [List.length_drop, List.length_cons]; omega

/-- Skips what is ignored here. -/
def skip (f : Flags) : Reading Unit := do if f.verbose then modify dropIgnored

/-! ## Numbers and hexadecimal codes -/

/-- The largest number of a repetition. -/
def countLimit : Nat := 0xffffffff

/-- A number with blanks around it; none if there are no digits. -/
def readCount (f : Flags) : Reading (Option Nat) := do
  let _ ← takeWhile isBlank
  let cs ← get
  let (digits, rest) := digitsFrom f cs.length cs
  set rest
  let _ ← takeWhile isBlank
  if digits.isEmpty then return none
  let n := natOf digits
  if countLimit < n then failure
  return some n
where
  /-- The digits at the front, and what follows them; in a verbose pattern blanks may stand between them. -/
  digitsFrom (f : Flags) (fuel : Nat) (cs : List Char) : List Char × List Char :=
    match fuel, cs with
    | fuel + 1, c :: rest =>
      if isAsciiDigit c then
        let (ds, after) := digitsFrom f fuel (if f.verbose then dropIgnored rest else rest)
        (c :: ds, after)
      else ([], cs)
    | _, _ => ([], cs)

/-- The value of a hexadecimal digit in either case. -/
def hexValue? (c : Char) : Option Nat := hexDigit? c.toLower

/-- The character with a code, if there is one. -/
def charOf? (code : Nat) : Option Char := if code.isValidChar then some (Char.ofNat code) else none

/-- Exactly `n` hexadecimal digits on top of `code`. -/
def readHexDigits (f : Flags) : Nat → Nat → Reading Nat
  | 0, code => return code
  | n + 1, code => do
    skip f
    match hexValue? (← next) with
    | some d => readHexDigits f n (16 * code + d)
    | none => failure

/-- Hexadecimal digits up to a closing brace. -/
def readBraced (f : Flags) : Reading Nat := do
  let cs ← get
  let body := cs.takeWhile (· != '\x7d')
  let digits := if f.verbose then body.filter (!isBlank ·) else body
  if digits.isEmpty || !digits.all (fun d => (hexValue? d).isSome) then failure
  set (cs.dropWhile (· != '\x7d'))
  let _ ← next
  return digits.foldl (fun n d => 16 * n + (hexValue? d).getD 0) 0

/-! ## Escapes -/

/-- What a backslash introduces. -/
inductive Escaped where
  /-- A character; `byte` if it was written as a code of two digits. -/
  | char (c : Char) (byte : Bool)
  | set (s : CharSet)
  | look (l : Look)

/-- The characters that are literal after a backslash: ASCII without letters, digits and angle brackets. -/
def isEscapable (c : Char) : Bool :=
  c.toNat < 128 && !isAsciiLetter c && !isAsciiDigit c && c != '<' && c != '>'

/-- The set with case ignored where the flags say so. -/
def Flags.fold (f : Flags) (s : CharSet) : CharSet :=
  if !f.ignoreCase then s else if f.unicode then .folded s else .foldedAscii s

/-- The set or its complement. -/
def negateIf (negated : Bool) (s : CharSet) : CharSet := if negated then .negate s else s

/-- Without Unicode a class must not hold anything beyond ASCII. -/
def Flags.admit (f : Flags) (s : CharSet) : Reading CharSet :=
  if f.unicode || s.isAscii then return s else failure

/-- The class `\d`, `\s` or `\w`. -/
def perlClass (f : Flags) (letter : Char) : CharSet :=
  if f.unicode then
    match letter with
    | 'd' => .digit
    | 's' => .blank
    | _ => .word
  else
    let name := match letter with
      | 'd' => "digit"
      | 's' => "space"
      | _ => "word"
    (asciiClass? name).getD .none

/-- A property after `\p` or `\P`: one letter, or a name, or a name and a value, between braces. -/
def readProperty (f : Flags) (negated : Bool) : Reading CharSet := do
  if !f.unicode then failure
  skip f
  let c ← next
  if c = '\\' then failure
  let (found, negated) ←
    if c = '\x7b' then do
      let cs ← get
      let body := (cs.takeWhile (· != '\x7d')).filter fun c => !f.verbose || !isBlank c
      set (cs.dropWhile (· != '\x7d'))
      let _ ← next
      match cutAt? ['!', '='] body with
      | some (name, value) =>
        pure (CharSet.valued? (String.ofList name) (String.ofList value), !negated)
      | none =>
        match (cutAt? [':'] body).or (cutAt? ['='] body) with
        | some (name, value) =>
          pure (CharSet.valued? (String.ofList name) (String.ofList value), negated)
        | none => pure (CharSet.named? (String.ofList body), negated)
    else pure (CharSet.named? (String.singleton c), negated)
  match found with
  | some s => return negateIf negated (f.fold s)
  | none => failure

/-- The kinds of word boundaries that are named between braces. -/
def namedBoundary? (name : String) : Option (List (Bool × Bool)) :=
  match name with
  | "start" => some Look.wordStart
  | "end" => some Look.wordEnd
  | "start-half" => some Look.noWordBefore
  | "end-half" => some Look.noWordAfter
  | _ => none

/-- The rest of `\b`: a boundary with a name between braces, or the plain one. Braces whose text does not
begin like a name belong to a repetition. -/
def readBoundary (f : Flags) : Reading Look := do
  let cs ← get
  let isNameChar := fun c => isAsciiLetter c || c == '-'
  match cs with
  | '\x7b' :: rest =>
    let rest := if f.verbose then dropIgnored rest else rest
    match rest with
    | [] => failure
    | c :: _ =>
      if isNameChar c then
        let name := rest.takeWhile (· != '\x7d')
        set ((rest.dropWhile (· != '\x7d')))
        let _ ← next
        let name := name.filter fun c => !f.verbose || !isBlank c
        match namedBoundary? (String.ofList name) with
        | some allowed => return .words (!f.unicode) allowed
        | none => failure
      else return .words (!f.unicode) Look.boundary
  | _ => return .words (!f.unicode) Look.boundary

/-- What follows a backslash. -/
def readEscape (f : Flags) : Reading Escaped := do
  let c ← next
  if c = 'x' ∨ c = 'u' ∨ c = 'U' then
    skip f
    let (code, byte) ←
      if (← peek?) = some '\x7b' then do
        let _ ← next
        pure (← readBraced f, false)
      else pure (← readHexDigits f (if c = 'x' then 2 else if c = 'u' then 4 else 8) 0, decide (c = 'x'))
    match charOf? code with
    | some c => return .char c byte
    | none => failure
  else if c = 'p' ∨ c = 'P' then return .set (← readProperty f (c = 'P'))
  else if c = 'd' ∨ c = 's' ∨ c = 'w' then return .set (perlClass f c)
  else if c = 'D' ∨ c = 'S' ∨ c = 'W' then return .set (← f.admit (.negate (perlClass f c.toLower)))
  else if isEscapable c then return .char c false
  else
    match c with
    | 'a' => return .char '\x07' false
    | 'f' => return .char '\x0c' false
    | 't' => return .char '\t' false
    | 'n' => return .char '\n' false
    | 'r' => return .char '\r' false
    | 'v' => return .char '\x0b' false
    | 'A' => return .look .textStart
    | 'z' => return .look .textEnd
    | 'b' => return .look (← readBoundary f)
    | 'B' => return .look (.words (!f.unicode) Look.noBoundary)
    | '<' => return .look (.words (!f.unicode) Look.wordStart)
    | '>' => return .look (.words (!f.unicode) Look.wordEnd)
    | _ => failure

/-! ## Classes -/

/-- A member of a class: a character, which may be the end of a range, or a set. -/
inductive Member where
  | char (c : Char)
  | set (s : CharSet)

/-- A character that stands in a class; without Unicode it must be ASCII or a byte. -/
def Flags.memberChar (f : Flags) (c : Char) (byte : Bool) : Reading Char :=
  if f.unicode || c.toNat < 128 || byte then return c else failure

/-- One character or escape of a class. -/
def readMember (f : Flags) : Reading Member := do
  let c ← next
  if c = '\\' then
    match ← readEscape f with
    | .char c byte => return .char (← f.memberChar c byte)
    | .set s => return .set s
    | .look _ => failure
  else return .char (← f.memberChar c false)

/-- One member of a class, or a range. -/
def readRange (f : Flags) : Reading CharSet := do
  let first ← readMember f
  skip f
  let cs ← get
  let after := cs.drop 1
  let after := if f.verbose then dropIgnored after else after
  match cs.head? with
  | none => failure
  | some '-' =>
    if after.head? = some ']' ∨ after.head? = some '-' then return single first
    set after
    match first, ← readMember f with
    | .char a, .char b => if a ≤ b then return .range a b else failure
    | _, _ => failure
  | some _ => return single first
where
  /-- The set of one member. -/
  single : Member → CharSet
    | .char c => .char c
    | .set s => s

/-- A class such as `[:alpha:]` or `[:^alpha:]` inside brackets. -/
def readAsciiClass (f : Flags) : Reading (Option CharSet) := do
  let cs ← get
  match cs with
  | '[' :: ':' :: rest =>
    let (negated, rest) := match rest with
      | '^' :: more => (true, more)
      | _ => (false, rest)
    let name := String.ofList (rest.takeWhile (· != ':'))
    match rest.dropWhile (· != ':'), asciiClass? name with
    | ':' :: ']' :: after, some s =>
      set after
      return some (← f.admit (negateIf negated (f.fold s)))
    | _, _ => return none
  | _ => return none

/-- A set together with the depth to which brackets and operators are nested in it. -/
structure Nested where
  set : CharSet
  depth : Nat := 0
deriving Inhabited

/-- The operators between the parts of a class. -/
inductive ClassOp where
  | inter | diff | symmDiff

/-- The set that an operator gives. -/
def ClassOp.apply : ClassOp → CharSet → CharSet → CharSet
  | inter, a, b => .inter a b
  | diff, a, b => .diff a b
  | symmDiff, a, b => .symmDiff a b

/-- The members read so far as one set. -/
def unite (members : List Nested) : Nested :=
  match members with
  | [m] => m
  | _ => ⟨members.foldl (fun s m => .union m.set s) .none,
      if members.isEmpty then 0 else 1 + (members.map (·.depth)).foldl max 0⟩

/-- The left operand joined to the members read after its operator. -/
def combine (f : Flags) (left : Option (Nested × ClassOp)) (members : List Nested) : Nested :=
  let right := unite members
  match left with
  | none => right
  | some (l, op) => ⟨op.apply (f.fold l.set) (f.fold right.set), 1 + max l.depth right.depth⟩

/-- Hyphens at the beginning of a class, and a bracket directly there, stand for themselves. -/
def openingMembers (f : Flags) (fuel : Nat) (members : List Nested) : Reading (List Nested) := do
  match fuel, ← peek? with
  | fuel + 1, some '-' =>
    let _ ← next
    skip f
    openingMembers f fuel (⟨.char '-', 0⟩ :: members)
  | _, some ']' =>
    if members.isEmpty then
      let _ ← next
      skip f
      return [⟨.char ']', 0⟩]
    else return members
  | _, _ => return members

mutual

/-- A class after its opening bracket. -/
def readClass (f : Flags) (fuel : Nat) : Reading Nested := do
  match fuel with
  | 0 => failure
  | fuel + 1 =>
    skip f
    let negated ←
      if (← peek?) = some '^' then do
        let _ ← next
        skip f
        pure true
      else pure false
    let members ← openingMembers f fuel []
    let body ← readClassBody f fuel none members
    return ⟨← f.admit (negateIf negated (f.fold body.set)), body.depth + 1⟩

/-- The members of a class up to its closing bracket. -/
def readClassBody (f : Flags) (fuel : Nat) (left : Option (Nested × ClassOp)) (members : List Nested) :
    Reading Nested := do
  match fuel with
  | 0 => failure
  | fuel + 1 =>
    skip f
    match ← get with
    | [] => failure
    | ']' :: rest =>
      set rest
      return combine f left members
    | '[' :: rest =>
      match ← readAsciiClass f with
      | some s => readClassBody f fuel left (⟨s, 0⟩ :: members)
      | none =>
        set rest
        let inner ← readClass f fuel
        readClassBody f fuel left (inner :: members)
    | _ =>
      let op ←
        if ← skipMark "&&" then pure (some ClassOp.inter)
        else if ← skipMark "--" then pure (some ClassOp.diff)
        else if ← skipMark "~~" then pure (some ClassOp.symmDiff)
        else pure none
      match op with
      | some op => readClassBody f fuel (some (combine f left members, op)) []
      | none =>
        let s ← readRange f
        readClassBody f fuel left (⟨s, 0⟩ :: members)

end

/-! ## Patterns -/

/-- A part of a sequence with the depth to which it is nested; flags are parts that match nothing and cannot be
repeated. -/
structure Part where
  pattern : Pattern
  depth : Nat := 0
  isFlags : Bool := false

/-- The parts, last one first, as one sequence. -/
def sequenceOf (parts : List Part) : Part :=
  match parts with
  | [] => { pattern := .empty }
  | [p] => { p with isFlags := false }
  | p :: rest =>
    { pattern := rest.foldl (fun acc q => .seq q.pattern acc) p.pattern
      depth := 1 + (parts.map (·.depth)).foldl max 0 }

/-- The alternatives, last one first, as one choice. -/
def choiceOf (options : List Part) : Part :=
  match options with
  | [] => { pattern := .empty }
  | [p] => p
  | p :: rest =>
    { pattern := rest.foldl (fun acc q => .choice q.pattern acc) p.pattern
      depth := 1 + (options.map (·.depth)).foldl max 0 }

/-- The numbers of a counted repetition after its opening brace. -/
def readCounts (f : Flags) : Reading (Nat × Option Nat) := do
  skip f
  match ← readCount f with
  | none => failure
  | some least =>
    match ← next with
    | '\x7d' => return (least, some least)
    | ',' =>
      skip f
      if (← peek?) = some '\x7d' then
        let _ ← next
        return (least, none)
      match ← readCount f with
      | some most =>
        if (← next) = '\x7d' ∧ least ≤ most then return (least, some most) else failure
      | none => failure
    | _ => failure

/-- The bounds of a repetition that begins with this character; none if it begins no repetition. A question mark
directly after the operator only changes the preference. -/
def readBounds (f : Flags) (c : Char) : Reading (Option (Nat × Option Nat)) := do
  let bounds ← match c with
    | '?' => pure (some (0, some 1))
    | '*' => pure (some (0, none))
    | '+' => pure (some (1, none))
    | '\x7b' => do
      let counts ← readCounts f
      skip f
      pure (some counts)
    | _ => pure none
  if bounds.isSome then
    let _ ← skipMark "?"
  return bounds

/-- The parts with the last one repeated. -/
def repeatLast (parts : List Part) (least : Nat) (most : Option Nat) : Reading (List Part) :=
  match parts with
  | p :: rest =>
    if p.isFlags then failure
    else return { pattern := .repeated p.pattern least most, depth := p.depth + 1 } :: rest
  | [] => failure

/-- A character in a pattern. -/
def literal (f : Flags) (c : Char) : Pattern := .one (f.fold (.char c))

/-- A part that is one character, class or condition. -/
def readSimple (f : Flags) (c : Char) : Reading Pattern := do
  match c with
  | '\\' =>
    match ← readEscape f with
    | .char c byte => if !f.unicode && byte && 128 ≤ c.toNat then failure else return literal f c
    | .set s => return .one s
    | .look l => return .look l
  | '.' =>
    if !f.unicode then failure
    else if f.dotAll then return .one .all
    else if f.returns then return .one (.negate (.union (.char '\n') (.char '\r')))
    else return .one (.negate (.char '\n'))
  | '^' => return .look (if f.multiLine then .lineStart f.returns else .textStart)
  | '$' => return .look (if f.multiLine then .lineEnd f.returns else .textEnd)
  | c => return literal f c

/-- The name of a group up to its closing angle bracket. -/
def readGroupName : Reading String := do
  let name ← takeWhile (· != '>')
  let _ ← next
  match name with
  | [] => failure
  | c :: rest =>
    let follows := fun c => c == '_' || c == '.' || c == '[' || c == ']' || isAlphanumeric c
    if (c == '_' || isAlphabetic c) && rest.all follows then return String.ofList name else failure

/-- What a group is: one with flags of its own, or a change of the flags of the group around it. -/
inductive GroupStart where
  | body (f : Flags) (name : Option String)
  | flags (f : Flags)

/-- The text of a group after its opening parenthesis, up to where its alternatives begin. -/
def readGroupStart (f : Flags) : Reading GroupStart := do
  skip f
  if ← skipMark "?=" then failure
  if ← skipMark "?!" then failure
  if ← skipMark "?<=" then failure
  if ← skipMark "?<!" then failure
  if ← skipMark "?P<" then return .body f (some (← readGroupName))
  if ← skipMark "?<" then return .body f (some (← readGroupName))
  if ← skipMark "?" then
    let letters ← takeWhile fun c => c != ':' && c != ')'
    let close ← next
    match applyFlags f true [] letters with
    | none => failure
    | some g =>
      if close = ':' then return .body g none
      else if letters.isEmpty then failure
      else return .flags g
  return .body f none

/-- The alternatives up to the end of the group, and the names of groups that are in use. -/
def readBranches (fuel : Nat) (f : Flags) (names : List String) (options parts : List Part) :
    Reading (Part × List String) := do
  match fuel with
  | 0 => failure
  | fuel + 1 =>
    skip f
    match ← peek? with
    | none | some ')' => return (choiceOf (sequenceOf parts :: options), names)
    | some c =>
      let _ ← next
      match c with
      | '|' => readBranches fuel f names (sequenceOf parts :: options) []
      | '(' =>
        match ← readGroupStart f with
        | .flags g => readBranches fuel g names options ({ pattern := .empty, isFlags := true } :: parts)
        | .body g name =>
          let names ← match name with
            | some name => if names.contains name then failure else pure (name :: names)
            | none => pure names
          let (inner, names) ← readBranches fuel g names [] []
          if (← next) != ')' then failure
          readBranches fuel f names options ({ pattern := inner.pattern, depth := inner.depth + 1 } :: parts)
      | '[' =>
        let s ← readClass f fuel
        readBranches fuel f names options ({ pattern := .one s.set, depth := s.depth } :: parts)
      | c =>
        match ← readBounds f c with
        | some (least, most) => readBranches fuel f names options (← repeatLast parts least most)
        | none =>
          let p ← readSimple f c
          readBranches fuel f names options ({ pattern := p } :: parts)

/-- How deep groups, classes, repetitions, sequences and choices may be nested. -/
def depthLimit : Nat := 250

/-- The pattern that a text denotes, if it denotes one that is neither nested too deeply nor too large. -/
def ofText? (text : String) : Option Pattern := do
  let cs := text.toList
  let ((part, _), rest) ← (readBranches (2 * cs.length + 2) {} [] [] []).run cs
  if rest.isEmpty ∧ part.depth ≤ depthLimit ∧ part.pattern.weight ≤ weightLimit then some part.pattern
  else none

end GuardedConfig.Pattern
