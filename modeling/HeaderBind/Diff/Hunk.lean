import HeaderBind.Diff.Script

/-!
# `HeaderBind.Diff.Hunk`: changes with the lines around them

A hunk shows changes that lie close together, with up to `contextSize` common lines in front of
the first one and behind the last one. Changes belong to one hunk as long as the common lines
between them would all be shown anyway.
-/

set_option autoImplicit false

namespace HeaderBind.Diff

/-- The number of common lines shown on either side of a change. -/
def contextSize : Nat := 3

/-- A part of a script and where it starts: the numbers of lines in front of it. -/
structure Hunk where
  oldStart : Nat
  newStart : Nat
  segments : List Segment
  deriving DecidableEq, Repr

namespace Hunk

/-- The lines of the old list that the hunk covers. -/
def old (hunk : Hunk) : List String :=
  hunk.segments.flatMap Segment.old

/-- The lines of the new list that the hunk covers. -/
def new (hunk : Hunk) : List String :=
  hunk.segments.flatMap Segment.new

/-- The hunk with one more segment behind. -/
def push (hunk : Hunk) (segment : Segment) : Hunk :=
  { hunk with segments := hunk.segments ++ [segment] }

end Hunk

/-- The hunk that starts with the last common lines before a change. The numbers are those of the
lines in front of the common ones. -/
def openHunk (oldCount newCount : Nat) (lines : List String) : Hunk :=
  let hidden := lines.length - contextSize
  ⟨oldCount + hidden, newCount + hidden, [.same (lines.drop hidden)]⟩

/-- The hunks of a script whose segments start behind the given numbers of lines. `current` is the
hunk that is still open, if there is one. -/
def collect : (oldCount newCount : Nat) → (current : Option Hunk) → List Segment → List Hunk
  | _, _, none, [] => []
  | _, _, some hunk, [] => [hunk]
  | _, _, none, [.same _] => []
  | oldCount, newCount, none, .same lines :: rest =>
    collect (oldCount + lines.length) (newCount + lines.length)
      (some (openHunk oldCount newCount lines)) rest
  | _, _, some hunk, [.same lines] => [hunk.push (.same (lines.take contextSize))]
  | oldCount, newCount, some hunk, .same lines :: rest =>
    if lines.length ≤ 2 * contextSize then
      collect (oldCount + lines.length) (newCount + lines.length)
        (some (hunk.push (.same lines))) rest
    else
      hunk.push (.same (lines.take contextSize)) ::
        collect (oldCount + lines.length) (newCount + lines.length)
          (some (openHunk oldCount newCount lines)) rest
  | oldCount, newCount, current, .change removed added :: rest =>
    collect (oldCount + removed.length) (newCount + added.length)
      (some ((current.getD ⟨oldCount, newCount, []⟩).push (.change removed added))) rest

/-- The hunks of a script. -/
def hunks (segments : List Segment) : List Hunk :=
  collect 0 0 none segments

end HeaderBind.Diff
