import GuardedConfig.Text.Runs

/-!
# `Text.Case` — upper case and case-insensitive equality

Upper case is a map from characters to strings, since a character such as `ß` has two upper-case letters. Two
characters are equal up to case when they lie in one *orbit*; most orbits have two members, a few have three
or four (`k`, `K` and the Kelvin sign).

## Contents

* `toUpper` — the upper case of a text
* `caseOrbit` — all characters that are equal to a given one up to case
* `equalsIgnoringAsciiCase` — equality of names where only ASCII letters have a case
-/

namespace GuardedConfig.Text

/-! ## Runs of regular pairs -/

/-- A run of pairs at a fixed distance: `count` characters from `first` on, `step` apart, each paired with the
character `shift` places further. -/
structure PairRun where
  first : Nat
  count : Nat
  step : Nat
  shift : Int

namespace PairRun

/-- A hexadecimal number with an optional minus sign. -/
def readSigned : List Char → Int
  | '-' :: cs => -((readHex 0 cs).1 : Int)
  | cs => (readHex 0 cs).1

/-- Reads runs, four numbers each. -/
def ofPieces : List (List Char) → List PairRun
  | first :: count :: step :: shift :: rest =>
    ⟨(readHex 0 first).1, (readHex 0 count).1, (readHex 0 step).1, readSigned shift⟩ :: ofPieces rest
  | _ => []

/-- The pairs of a run. -/
def pairs (r : PairRun) : List (Nat × Nat) :=
  (List.range r.count).map fun i =>
    let n := r.first + i * r.step
    (n, (n + r.shift).toNat)

end PairRun

/-- Reads groups of numbers joined by `-`. -/
def readGroups (text : String) : List (List Nat) :=
  (pieces text).map fun p => (splitChar '-' p).map fun d => (readHex 0 d).1

/-! ## Upper case -/

/-- Runs of characters whose upper case is one character. -/
def upperRuns : String :=
  "61 1a 1 -20 b5 1 1 2e7 e0 17 1 -20 f8 7 1 -20 ff 1 1 79 101 18 2 -1 131 1 1 -e8 133 3 2 -1 13a
   8 2 -1 14b 17 2 -1 17a 3 2 -1 17f 1 1 -12c 180 1 1 c3 183 2 2 -1 188 1 1 -1 18c 1 1 -1 192 1 1
   -1 195 1 1 61 199 1 1 -1 19a 1 1 a3 19e 1 1 82 1a1 3 2 -1 1a8 1 1 -1 1ad 1 1 -1 1b0 1 1 -1 1b4
   2 2 -1 1b9 1 1 -1 1bd 1 1 -1 1bf 1 1 38 1c5 1 1 -1 1c6 1 1 -2 1c8 1 1 -1 1c9 1 1 -2 1cb 1 1 -1
   1cc 1 1 -2 1ce 8 2 -1 1dd 1 1 -4f 1df 9 2 -1 1f2 1 1 -1 1f3 1 1 -2 1f5 1 1 -1 1f9 14 2 -1 223 9
   2 -1 23c 1 1 -1 23f 2 1 2a3f 242 1 1 -1 247 5 2 -1 250 1 1 2a1f 251 1 1 2a1c 252 1 1 2a1e 253 1
   1 -d2 254 1 1 -ce 256 2 1 -cd 259 1 1 -ca 25b 1 1 -cb 25c 1 1 a54f 260 1 1 -cd 261 1 1 a54b 263
   1 1 -cf 265 1 1 a528 266 1 1 a544 268 1 1 -d1 269 1 1 -d3 26a 1 1 a544 26b 1 1 29f7 26c 1 1
   a541 26f 1 1 -d3 271 1 1 29fd 272 1 1 -d5 275 1 1 -d6 27d 1 1 29e7 280 1 1 -da 282 1 1 a543 283
   1 1 -da 287 1 1 a52a 288 1 1 -da 289 1 1 -45 28a 2 1 -d9 28c 1 1 -47 292 1 1 -db 29d 1 1 a515
   29e 1 1 a512 345 1 1 54 371 2 2 -1 377 1 1 -1 37b 3 1 82 3ac 1 1 -26 3ad 3 1 -25 3b1 11 1 -20
   3c2 1 1 -1f 3c3 9 1 -20 3cc 1 1 -40 3cd 2 1 -3f 3d0 1 1 -3e 3d1 1 1 -39 3d5 1 1 -2f 3d6 1 1 -36
   3d7 1 1 -8 3d9 c 2 -1 3f0 1 1 -56 3f1 1 1 -50 3f2 1 1 7 3f3 1 1 -74 3f5 1 1 -60 3f8 1 1 -1 3fb
   1 1 -1 430 20 1 -20 450 10 1 -50 461 11 2 -1 48b 1b 2 -1 4c2 7 2 -1 4cf 1 1 -f 4d1 30 2 -1 561
   26 1 -30 10d0 2b 1 bc0 10fd 3 1 bc0 13f8 6 1 -8 1c80 1 1 -186e 1c81 1 1 -186d 1c82 1 1 -1864
   1c83 2 1 -1862 1c85 1 1 -1863 1c86 1 1 -185c 1c87 1 1 -1825 1c88 1 1 89c2 1d79 1 1 8a04 1d7d 1
   1 ee6 1d8e 1 1 8a38 1e01 4b 2 -1 1e9b 1 1 -3b 1ea1 30 2 -1 1f00 8 1 8 1f10 6 1 8 1f20 8 1 8
   1f30 8 1 8 1f40 6 1 8 1f51 4 2 8 1f60 8 1 8 1f70 2 1 4a 1f72 4 1 56 1f76 2 1 64 1f78 2 1 80
   1f7a 2 1 70 1f7c 2 1 7e 1fb0 2 1 8 1fbe 1 1 -1c25 1fd0 2 1 8 1fe0 2 1 8 1fe5 1 1 7 214e 1 1 -1c
   2170 10 1 -10 2184 1 1 -1 24d0 1a 1 -1a 2c30 30 1 -30 2c61 1 1 -1 2c65 1 1 -2a2b 2c66 1 1 -2a28
   2c68 3 2 -1 2c73 1 1 -1 2c76 1 1 -1 2c81 32 2 -1 2cec 2 2 -1 2cf3 1 1 -1 2d00 26 1 -1c60 2d27 1
   1 -1c60 2d2d 1 1 -1c60 a641 17 2 -1 a681 e 2 -1 a723 7 2 -1 a733 1f 2 -1 a77a 2 2 -1 a77f 5 2
   -1 a78c 1 1 -1 a791 2 2 -1 a794 1 1 30 a797 a 2 -1 a7b5 8 2 -1 a7c8 2 2 -1 a7d1 1 1 -1 a7d7 2 2
   -1 a7f6 1 1 -1 ab53 1 1 -3a0 ab70 50 1 -97d0 ff41 1a 1 -20 10428 28 1 -28 104d8 24 1 -28 10597
   b 1 -27 105a3 f 1 -27 105b3 7 1 -27 105bb 2 1 -27 10cc0 33 1 -40 118c0 20 1 -20 16e60 20 1 -20
   1e922 22 1 -22"

/-- Characters whose upper case has several characters: the character, then those. -/
def upperGroups : String :=
  "df-53-53 149-2bc-4e 1f0-4a-30c 390-399-308-301 3b0-3a5-308-301 587-535-552 1e96-48-331
   1e97-54-308 1e98-57-30a 1e99-59-30a 1e9a-41-2be 1f50-3a5-313 1f52-3a5-313-300 1f54-3a5-313-301
   1f56-3a5-313-342 1f80-1f08-399 1f81-1f09-399 1f82-1f0a-399 1f83-1f0b-399 1f84-1f0c-399
   1f85-1f0d-399 1f86-1f0e-399 1f87-1f0f-399 1f88-1f08-399 1f89-1f09-399 1f8a-1f0a-399
   1f8b-1f0b-399 1f8c-1f0c-399 1f8d-1f0d-399 1f8e-1f0e-399 1f8f-1f0f-399 1f90-1f28-399
   1f91-1f29-399 1f92-1f2a-399 1f93-1f2b-399 1f94-1f2c-399 1f95-1f2d-399 1f96-1f2e-399
   1f97-1f2f-399 1f98-1f28-399 1f99-1f29-399 1f9a-1f2a-399 1f9b-1f2b-399 1f9c-1f2c-399
   1f9d-1f2d-399 1f9e-1f2e-399 1f9f-1f2f-399 1fa0-1f68-399 1fa1-1f69-399 1fa2-1f6a-399
   1fa3-1f6b-399 1fa4-1f6c-399 1fa5-1f6d-399 1fa6-1f6e-399 1fa7-1f6f-399 1fa8-1f68-399
   1fa9-1f69-399 1faa-1f6a-399 1fab-1f6b-399 1fac-1f6c-399 1fad-1f6d-399 1fae-1f6e-399
   1faf-1f6f-399 1fb2-1fba-399 1fb3-391-399 1fb4-386-399 1fb6-391-342 1fb7-391-342-399
   1fbc-391-399 1fc2-1fca-399 1fc3-397-399 1fc4-389-399 1fc6-397-342 1fc7-397-342-399 1fcc-397-399
   1fd2-399-308-300 1fd3-399-308-301 1fd6-399-342 1fd7-399-308-342 1fe2-3a5-308-300
   1fe3-3a5-308-301 1fe4-3a1-313 1fe6-3a5-342 1fe7-3a5-308-342 1ff2-1ffa-399 1ff3-3a9-399
   1ff4-38f-399 1ff6-3a9-342 1ff7-3a9-342-399 1ffc-3a9-399 fb00-46-46 fb01-46-49 fb02-46-4c
   fb03-46-46-49 fb04-46-46-4c fb05-53-54 fb06-53-54 fb13-544-546 fb14-544-535 fb15-544-53b
   fb16-54e-546 fb17-544-53d"

/-- The upper case of every character that is not its own, in the order of the characters. -/
def upperTable : Array (Nat × List Nat) :=
  let single := (PairRun.ofPieces (pieces upperRuns)).flatMap fun r => r.pairs.map fun (a, b) => (a, [b])
  let several := (readGroups upperGroups).filterMap fun
    | a :: rest => some (a, rest)
    | [] => none
  ((single ++ several).mergeSort (fun x y => x.1 ≤ y.1)).toArray

/-- The entry of `n` in a table that is ordered by its keys. -/
def entry? {α : Type} (table : Array (Nat × α)) (n : Nat) : Option α :=
  match table[Runs.bisect table n 0 table.size]? with
  | some (key, value) => if key = n then some value else none
  | none => none

/-- The upper case of one character. -/
def upperOf (c : Char) : List Char :=
  if c.toNat < 128 then [c.toUpper]
  else
    match entry? upperTable c.toNat with
    | some codes => codes.map Char.ofNat
    | none => [c]

/-- The upper case of a text. -/
def toUpper (s : String) : String := String.ofList (s.toList.flatMap upperOf)

/-! ## Equality up to case -/

/-- Runs of orbits with two members. -/
def orbitRuns : String :=
  "41 a 1 20 4c 7 1 20 54 7 1 20 c0 5 1 20 c6 11 1 20 d8 7 1 20 df 1 1 1dbf ff 1 1 79 100 18 2 1
   132 3 2 1 139 8 2 1 14a 17 2 1 179 3 2 1 180 1 1 c3 181 1 1 d2 182 2 2 1 186 1 1 ce 187 1 1 1
   189 2 1 cd 18b 1 1 1 18e 1 1 4f 18f 1 1 ca 190 1 1 cb 191 1 1 1 193 1 1 cd 194 1 1 cf 195 1 1
   61 196 1 1 d3 197 1 1 d1 198 1 1 1 19a 1 1 a3 19c 1 1 d3 19d 1 1 d5 19e 1 1 82 19f 1 1 d6 1a0 3
   2 1 1a6 1 1 da 1a7 1 1 1 1a9 1 1 da 1ac 1 1 1 1ae 1 1 da 1af 1 1 1 1b1 2 1 d9 1b3 2 2 1 1b7 1 1
   db 1b8 1 1 1 1bc 1 1 1 1bf 1 1 38 1cd 8 2 1 1de 9 2 1 1f4 1 1 1 1f8 14 2 1 222 9 2 1 23a 1 1
   2a2b 23b 1 1 1 23e 1 1 2a28 23f 2 1 2a3f 241 1 1 1 244 1 1 45 245 1 1 47 246 5 2 1 250 1 1 2a1f
   251 1 1 2a1c 252 1 1 2a1e 25c 1 1 a54f 261 1 1 a54b 265 1 1 a528 266 1 1 a544 26a 1 1 a544 26b
   1 1 29f7 26c 1 1 a541 271 1 1 29fd 27d 1 1 29e7 282 1 1 a543 287 1 1 a52a 29d 1 1 a515 29e 1 1
   a512 370 2 2 1 376 1 1 1 37b 3 1 82 37f 1 1 74 386 1 1 26 388 3 1 25 38c 1 1 40 38e 2 1 3f 391
   2 2 20 394 2 2 20 397 1 1 20 39b 2 2 20 39e 2 1 20 3a4 2 1 20 3a7 2 1 20 3aa 2 1 20 3cf 1 1 8
   3d8 c 2 1 3f2 1 1 7 3f7 1 1 1 3fa 1 1 1 400 10 1 50 410 2 1 20 413 2 2 20 416 8 1 20 41f 2 1 20
   423 7 1 20 42b 5 1 20 460 1 1 1 464 f 2 1 48a 1b 2 1 4c0 1 1 f 4c1 7 2 1 4d0 30 2 1 531 26 1 30
   10a0 26 1 1c60 10c7 1 1 1c60 10cd 1 1 1c60 10d0 2b 1 bc0 10fd 3 1 bc0 13a0 50 1 97d0 13f0 6 1 8
   1d79 1 1 8a04 1d7d 1 1 ee6 1d8e 1 1 8a38 1e00 30 2 1 1e62 1a 2 1 1ea0 30 2 1 1f00 8 1 8 1f10 6
   1 8 1f20 8 1 8 1f30 8 1 8 1f40 6 1 8 1f51 4 2 8 1f60 8 1 8 1f70 2 1 4a 1f72 4 1 56 1f76 2 1 64
   1f78 2 1 80 1f7a 2 1 70 1f7c 2 1 7e 1f80 8 1 8 1f90 8 1 8 1fa0 8 1 8 1fb0 2 1 8 1fb3 1 1 9 1fc3
   1 1 9 1fd0 2 1 8 1fe0 2 1 8 1fe5 1 1 7 1ff3 1 1 9 2132 1 1 1c 2160 10 1 10 2183 1 1 1 24b6 1a 1
   1a 2c00 30 1 30 2c60 1 1 1 2c67 3 2 1 2c72 1 1 1 2c75 1 1 1 2c80 32 2 1 2ceb 2 2 1 2cf2 1 1 1
   a640 5 2 1 a64c 11 2 1 a680 e 2 1 a722 7 2 1 a732 1f 2 1 a779 2 2 1 a77e 5 2 1 a78b 1 1 1 a790
   2 2 1 a794 1 1 30 a796 a 2 1 a7b3 1 1 3a0 a7b4 8 2 1 a7c7 2 2 1 a7d0 1 1 1 a7d6 2 2 1 a7f5 1 1
   1 ff21 1a 1 20 10400 28 1 28 104b0 24 1 28 10570 b 1 27 1057c f 1 27 1058c 7 1 27 10594 2 1 27
   10c80 33 1 40 118a0 20 1 20 16e40 20 1 20 1e900 22 1 22"

/-- Orbits with more than two members. -/
def orbitGroups : String :=
  "4b-6b-212a 53-73-17f b5-39c-3bc c5-e5-212b 1c4-1c5-1c6 1c7-1c8-1c9 1ca-1cb-1cc 1f1-1f2-1f3
   345-399-3b9-1fbe 392-3b2-3d0 395-3b5-3f5 398-3b8-3d1-3f4 39a-3ba-3f0 3a0-3c0-3d6 3a1-3c1-3f1
   3a3-3c2-3c3 3a6-3c6-3d5 3a9-3c9-2126 412-432-1c80 414-434-1c81 41e-43e-1c82 421-441-1c83
   422-442-1c84-1c85 42a-44a-1c86 462-463-1c87 1c88-a64a-a64b 1e60-1e61-1e9b"

/-- Every character that has a case partner, with its whole orbit, in the order of the characters. -/
def orbitTable : Array (Nat × List Nat) :=
  let twos := (PairRun.ofPieces (pieces orbitRuns)).flatMap fun r => r.pairs.map fun (a, b) => [a, b]
  let entries := (twos ++ readGroups orbitGroups).flatMap fun orbit => orbit.map fun n => (n, orbit)
  (entries.mergeSort (fun x y => x.1 ≤ y.1)).toArray

/-- The characters that are equal to `c` up to case, `c` among them. -/
def caseOrbit (c : Char) : List Char :=
  match entry? orbitTable c.toNat with
  | some codes => codes.map Char.ofNat
  | none => [c]

/-- Lowers the ASCII letters of a name and keeps everything else. -/
def lowerAscii (s : String) : List Char := s.toList.map Char.toLower

/-- Equality of names where only ASCII letters have a case. -/
def equalsIgnoringAsciiCase (a b : String) : Bool := lowerAscii a == lowerAscii b

@[simp] theorem equalsIgnoringAsciiCase_self (a : String) : equalsIgnoringAsciiCase a a = true := by
  simp [equalsIgnoringAsciiCase]

theorem equalsIgnoringAsciiCase_comm (a b : String) :
    equalsIgnoringAsciiCase a b = equalsIgnoringAsciiCase b a := by
  simp only [equalsIgnoringAsciiCase]
  exact Bool.beq_comm

end GuardedConfig.Text
