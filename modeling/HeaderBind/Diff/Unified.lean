import HeaderBind.Diff.Hunk
import HeaderBind.Text.Lines

/-!
# `HeaderBind.Diff.Unified`: the unified format

The difference of two texts is written as two lines with their labels and then the hunks. Each
hunk starts with a line that names the ranges it covers; its common lines follow a blank, removed
ones a minus and added ones a plus. Texts without a difference give the empty text.
-/

set_option autoImplicit false

namespace HeaderBind.Diff

/-- The lines of a text as they are compared: line ends are left out, and a carriage return in
front of a line feed belongs to the line end. -/
def comparedLines (s : String) : List String :=
  (Text.splitLines (Text.joinCrLf s.toList)).map String.ofList

/-- A range of lines behind `start` lines: the number of its first line and its length. A single
line is named by its number, and an empty range by the line in front of it. -/
def rangeText (start length : Nat) : String :=
  if length = 1 then toString (start + 1)
  else if length = 0 then s!"{start},0"
  else s!"{start + 1},{length}"

/-- The lines of a segment. -/
def segmentLines : Segment → List String
  | .same lines => lines.map (" " ++ ·)
  | .change removed added => removed.map ("-" ++ ·) ++ added.map ("+" ++ ·)

/-- The line that names the ranges of a hunk. -/
def rangeLine (hunk : Hunk) : String :=
  let oldRange := rangeText hunk.oldStart hunk.old.length
  let newRange := rangeText hunk.newStart hunk.new.length
  s!"@@ -{oldRange} +{newRange} @@"

/-- The lines of a hunk. -/
def hunkLines (hunk : Hunk) : List String :=
  rangeLine hunk :: hunk.segments.flatMap segmentLines

/-- The lines of the difference of two lists of lines. -/
def unifiedLines (old new : List String) (oldLabel newLabel : String) : List String :=
  match hunks (script old new) with
  | [] => []
  | found => s!"--- {oldLabel}" :: s!"+++ {newLabel}" :: found.flatMap hunkLines

/-- The difference of two texts. -/
def unified (old new oldLabel newLabel : String) : String :=
  "\n".intercalate (unifiedLines (comparedLines old) (comparedLines new) oldLabel newLabel)

end HeaderBind.Diff
