import HeaderBind.Text.Lines

/-!
# `HeaderBind.Proofs.Diff.Patch`: how a patch is read and applied

Whoever gets a difference reads it as a patch, without knowing how it was made. This is that side:
`readPatch?` reads the lines of the unified format, and `applyHunks` goes through the old lines,
takes over what lies between the hunks, and insists that every common or removed line is just the
next old one. Neither of them looks at the writer.

What else a patch has to get right is said of its hunks: `Exact` are the ranges that hold the lines
at hand, `Before` the order of two hunks, and `Framed` the common lines around the changes.

A hunk whose ranges are exact is applied wherever its lines stand: `applyEntries_append`.
-/

set_option autoImplicit false

namespace HeaderBind.Diff

/-- What is said of a line of a hunk. -/
inductive Mark where
  | common
  | removed
  | added
  deriving DecidableEq, Repr

/-- The lines among marked ones that do not have a certain mark. -/
def linesWithout (mark : Mark) (entries : List (Mark × String)) : List String :=
  (entries.filter fun entry => entry.1 ≠ mark).map Prod.snd

/-- The lines of the old list among marked lines. -/
def oldLines (entries : List (Mark × String)) : List String :=
  linesWithout .added entries

/-- The lines of the new list among marked lines. -/
def newLines (entries : List (Mark × String)) : List String :=
  linesWithout .removed entries

/-- A hunk of a patch: for each list the number of lines in front of it and the number of lines that
it holds, and its lines. -/
structure PatchHunk where
  oldStart : Nat
  oldLength : Nat
  newStart : Nat
  newLength : Nat
  entries : List (Mark × String)
  deriving DecidableEq, Repr

/-- A patch. -/
structure Patch where
  oldLabel : String
  newLabel : String
  hunks : List PatchHunk
  deriving DecidableEq, Repr

/-! ### Reading -/

/-- A number in decimal digits. -/
def readNumber? (digits : List Char) : Option Nat :=
  if digits.isEmpty || !digits.all Char.isDigit then none
  else some (Nat.ofDigitChars 10 digits 0)

/-- A range, as the number of lines in front of it and its length. It is written with the number of
its first line, or of the line in front if it is empty, and with its length, unless that is one. -/
def readRange? (range : List Char) : Option (Nat × Nat) :=
  match range.splitOn ',' with
  | [first] => do
    let first ← readNumber? first
    if first = 0 then none else some (first - 1, 1)
  | [first, length] => do
    let first ← readNumber? first
    let length ← readNumber? length
    if length = 0 then some (first, 0)
    else if first = 0 then none
    else some (first - 1, length)
  | _ => none

/-- The old and the new range of a line that starts a hunk. -/
def readRanges? (line : List Char) : Option ((Nat × Nat) × Nat × Nat) :=
  match line.splitOn ' ' with
  | [['@', '@'], '-' :: old, '+' :: new, ['@', '@']] => do
    let old ← readRange? old
    let new ← readRange? new
    some (old, new)
  | _ => none

/-- A line of a hunk with its mark. -/
def readEntry? : List Char → Option (Mark × String)
  | ' ' :: line => some (.common, String.ofList line)
  | '-' :: line => some (.removed, String.ofList line)
  | '+' :: line => some (.added, String.ofList line)
  | _ => none

/-- The hunks of a patch, and the marked lines in front of the first one. -/
def readHunks? : List (List Char) → Option (List (Mark × String) × List PatchHunk)
  | [] => some ([], [])
  | line :: rest => do
    let (entries, hunks) ← readHunks? rest
    match readRanges? line with
    | some ((oldStart, oldLength), newStart, newLength) =>
      some ([], ⟨oldStart, oldLength, newStart, newLength, entries⟩ :: hunks)
    | none =>
      let entry ← readEntry? line
      some (entry :: entries, hunks)

/-- The patch that lines say: two lines with the labels, and then the hunks. -/
def readPatch? : List (List Char) → Option Patch
  | ('-' :: '-' :: '-' :: ' ' :: oldLabel) :: ('+' :: '+' :: '+' :: ' ' :: newLabel) :: lines => do
    let (entries, hunks) ← readHunks? lines
    if entries.isEmpty then some ⟨String.ofList oldLabel, String.ofList newLabel, hunks⟩ else none
  | _ => none

/-! ### Applying -/

/-- Applies marked lines to old lines: the lines that come into their place, and the old lines
behind. Common and removed lines have to be the next old ones. -/
def applyEntries : List (Mark × String) → List String → Option (List String × List String)
  | [], old => some ([], old)
  | (.added, line) :: entries, old =>
    (applyEntries entries old).map fun (made, later) => (line :: made, later)
  | (.common, line) :: entries, first :: old =>
    if line = first then (applyEntries entries old).map fun (made, later) => (line :: made, later)
    else none
  | (.removed, line) :: entries, first :: old =>
    if line = first then applyEntries entries old else none
  | _ :: _, [] => none

/-- Applies hunks to the old lines from a position on. A hunk may not start in front of the position
or behind the last line. -/
def applyHunks : (position : Nat) → List PatchHunk → List String → Option (List String)
  | _, [], old => some old
  | position, hunk :: hunks, old =>
    if hunk.oldStart < position ∨ old.length < hunk.oldStart - position then none
    else do
      let (made, later) ← applyEntries hunk.entries (old.drop (hunk.oldStart - position))
      let rest ← applyHunks (hunk.oldStart + hunk.oldLength) hunks later
      some (old.take (hunk.oldStart - position) ++ made ++ rest)

/-- Marked lines are applied where the old ones among them stand. -/
theorem applyEntries_append (entries : List (Mark × String)) (later : List String) :
    applyEntries entries (oldLines entries ++ later) = some (newLines entries, later) := by
  induction entries with
  | nil => rfl
  | cons entry entries ih =>
      obtain ⟨mark, line⟩ := entry
      cases mark with
      | common =>
          have hold : oldLines ((.common, line) :: entries) ++ later
              = line :: (oldLines entries ++ later) := rfl
          rw [hold, applyEntries, if_pos rfl, ih]
          rfl
      | removed =>
          have hold : oldLines ((.removed, line) :: entries) ++ later
              = line :: (oldLines entries ++ later) := rfl
          rw [hold, applyEntries, if_pos rfl, ih]
          rfl
      | added =>
          have hold : oldLines ((.added, line) :: entries) = oldLines entries := rfl
          rw [hold, applyEntries, ih]
          rfl

/-! ### Hunks that are right -/

namespace PatchHunk

/-- The ranges of a hunk are those of its lines: as many, and just these lines of either list. -/
structure Exact (hunk : PatchHunk) (old new : List String) : Prop where
  oldLength : (oldLines hunk.entries).length = hunk.oldLength
  newLength : (newLines hunk.entries).length = hunk.newLength
  oldLines : (old.drop hunk.oldStart).take hunk.oldLength = oldLines hunk.entries
  newLines : (new.drop hunk.newStart).take hunk.newLength = newLines hunk.entries

/-- A hunk ends in front of another one, in both lists, and with a line in between. -/
def Before (hunk next : PatchHunk) : Prop :=
  hunk.oldStart + hunk.oldLength < next.oldStart ∧ hunk.newStart + hunk.newLength < next.newStart

/-- A hunk shows three common lines in front of its first change and behind its last one, or as many
as there are at the front and at the end of the lists. -/
inductive Framed (hunk : PatchHunk) (oldCount newCount : Nat) : Prop
  | intro (before after : List String) (changes : List (Mark × String))
      (entries : hunk.entries
        = before.map (.common, ·) ++ changes ++ after.map (.common, ·))
      (starts : ∃ entry ∈ changes.head?, entry.1 ≠ .common)
      (ends : ∃ entry ∈ changes.getLast?, entry.1 ≠ .common)
      (inFront : before.length = 3 ∨
        before.length < 3 ∧ hunk.oldStart = 0 ∧ hunk.newStart = 0)
      (behind : after.length = 3 ∨
        after.length < 3 ∧ hunk.oldStart + hunk.oldLength = oldCount ∧
          hunk.newStart + hunk.newLength = newCount)

end PatchHunk

end HeaderBind.Diff
