/-!
# `Text.Utf8` — bytes as text, with replacements

Bytes that are no UTF-8 are read with a replacement character for each longest piece that could have begun a
character. So every byte list has a text, and the text of valid bytes is what they encode.

## Contents

* `secondRange` — the bytes that may follow a leading byte
* `decodeLossy` — the characters of a byte list
-/

namespace GuardedConfig.Text

/-- The character that stands for bytes that are no text. -/
def replacement : Char := Char.ofNat 0xfffd

/-- For a leading byte: how many bytes follow it, and the range of the first of them. -/
def secondRange (b : Nat) : Option (Nat × Nat × Nat) :=
  if 0xc2 ≤ b ∧ b ≤ 0xdf then some (1, 0x80, 0xbf)
  else if b = 0xe0 then some (2, 0xa0, 0xbf)
  else if b = 0xed then some (2, 0x80, 0x9f)
  else if 0xe1 ≤ b ∧ b ≤ 0xef then some (2, 0x80, 0xbf)
  else if b = 0xf0 then some (3, 0x90, 0xbf)
  else if 0xf1 ≤ b ∧ b ≤ 0xf3 then some (3, 0x80, 0xbf)
  else if b = 0xf4 then some (3, 0x80, 0x8f)
  else none

/-- The bits of a leading byte that belong to the character. -/
def leadingBits (b follow : Nat) : Nat :=
  if follow = 1 then b % 32 else if follow = 2 then b % 16 else b % 8

/-- The characters of a byte list. Inside a character, `pending` has the bits read so far, how many bytes are to
follow, and the range of the next one. -/
def decodeLossy (pending : Option (Nat × Nat × Nat × Nat)) : List UInt8 → List Char
  | [] => if pending.isSome then [replacement] else []
  | byte :: bytes =>
    let b := byte.toNat
    let fresh : Unit → List Char := fun _ =>
      if b < 0x80 then Char.ofNat b :: decodeLossy none bytes
      else
        match secondRange b with
        | some (follow, lo, hi) => decodeLossy (some (leadingBits b follow, follow, lo, hi)) bytes
        | none => replacement :: decodeLossy none bytes
    match pending with
    | none => fresh ()
    | some (bits, follow, lo, hi) =>
      if lo ≤ b ∧ b ≤ hi then
        let bits := bits * 64 + b % 64
        if follow ≤ 1 then Char.ofNat bits :: decodeLossy none bytes
        else decodeLossy (some (bits, follow - 1, 0x80, 0xbf)) bytes
      else replacement :: fresh ()

/-- The text of a byte list. -/
def textOfBytes (bytes : List UInt8) : String := String.ofList (decodeLossy none bytes)

end GuardedConfig.Text
