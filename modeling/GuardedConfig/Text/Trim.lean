import GuardedConfig.Text.Split
import GuardedConfig.Text.Word

/-!
# `Text.Trim` — trimming and cutting strings at blanks

The cuts of `Text.Split`, on strings and for Unicode blanks.

## Contents

* `trim` — a text without the blanks at both ends
* `blankWords` — the pieces between blanks
* `collapseBlanks` — every stretch of blanks becomes one space
* `joinWith` — pieces with a separator between them
* `replaceChar` — one character replaced by another everywhere
-/

namespace GuardedConfig.Text

/-- A text without the blanks at both ends. -/
def trim (s : String) : String := String.ofList (trimWith isBlank s.toList)

/-- The pieces between stretches of blanks. -/
def blankWords (s : String) : List String := (wordsWith isBlank s.toList).map String.ofList

/-- The pieces with `sep` between them. -/
def joinWith (sep : String) (parts : List String) : String := sep.intercalate parts

/-- Every stretch of blanks as one space, with none at the ends. -/
def collapseBlanks (s : String) : String := joinWith " " (blankWords s)

/-- The text with every `old` replaced by `new`. -/
def replaceChar (old new : Char) (s : String) : String :=
  String.ofList (s.toList.map fun c => if c = old then new else c)

end GuardedConfig.Text
