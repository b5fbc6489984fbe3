/-!
# `HeaderBind.Diff.Script`: what changed between two lists of lines

A script cuts two lists of lines into segments: lines that both have, and lines of the old list
that give way to lines of the new one. The old sides of the segments together are the old list,
the new sides the new list.

The cut is made at the longest run of lines that both lists have, the earliest one in the old list
and then in the new list among the longest; what lies before and behind it is cut the same way.
In a long new list the lines that occur very often say little about what belongs together. The
search for a run does not start from them, though a run may grow over them at either end.
-/

set_option autoImplicit false

namespace HeaderBind.Diff

/-- A piece of a script. -/
inductive Segment where
  /-- Lines that both lists have. -/
  | same (lines : List String)
  /-- Lines that are removed and lines that come into their place. -/
  | change (removed added : List String)
  deriving DecidableEq, Repr

namespace Segment

/-- The lines of the old list. -/
def old : Segment → List String
  | same lines => lines
  | change removed _ => removed

/-- The lines of the new list. -/
def new : Segment → List String
  | same lines => lines
  | change _ added => added

end Segment

/-- The number of lines in front that two lists have in common. -/
def commonLength : List String → List String → Nat
  | x :: xs, y :: ys => if x = y then commonLength xs ys + 1 else 0
  | _, _ => 0

/-- The length from which on a new list has lines that occur too often. -/
def longList : Nat := 200

/-- The lines of a new list that occur too often to start from: in a long list, those that make up
more than about a hundredth of it. -/
def frequentLines (new : List String) : List String :=
  if new.length < longList then []
  else new.eraseDups.filter fun line => new.length / 100 + 1 < new.count line

/-- For each line of the new list the length of the run that ends there and at the line `x` of the
old list, from the lengths for the line before `x`. `diagonal` is the length that ends one line
earlier in both lists. -/
def nextLengths (x : String) : (diagonal : Nat) → List String → List Nat → List Nat
  | _, [], _ => []
  | diagonal, y :: ys, lengths =>
    (if x = y then diagonal + 1 else 0) :: nextLengths x (lengths.headD 0) ys lengths.tail

/-- Where a run ends, and its length. -/
structure Run where
  oldEnd : Nat
  newEnd : Nat
  length : Nat
  deriving DecidableEq, Repr

/-- The longer of the best run so far and those that end at a line of the old list; of equally
long ones the first. -/
def betterRun (oldEnd : Nat) : (newEnd : Nat) → Run → List Nat → Run
  | _, best, [] => best
  | newEnd, best, length :: lengths =>
    betterRun oldEnd (newEnd + 1)
      (if best.length < length then ⟨oldEnd, newEnd, length⟩ else best) lengths

/-- The longest run without frequent lines, the lines of the old list being numbered from
`oldEnd`. -/
def searchRun (frequent new : List String) : (oldEnd : Nat) → (lengths : List Nat) → Run →
    List String → Run
  | _, _, best, [] => best
  | oldEnd, lengths, best, x :: xs =>
    if frequent.contains x then searchRun frequent new (oldEnd + 1) [] best xs
    else
      let lengths := nextLengths x 0 new lengths
      searchRun frequent new (oldEnd + 1) lengths (betterRun oldEnd 1 best lengths) xs

/-- Where the longest run starts in both lists, grown backwards over frequent lines. -/
def runStart (frequent old new : List String) : Nat × Nat :=
  let run := searchRun frequent new 1 [] ⟨0, 0, 0⟩ old
  let oldStart := run.oldEnd - run.length
  let newStart := run.newEnd - run.length
  let back := commonLength (old.take oldStart).reverse (new.take newStart).reverse
  (oldStart - back, newStart - back)

/-- The segment that replaces one list by another; none if there is nothing in either. -/
def replace (old new : List String) : List Segment :=
  if old.isEmpty && new.isEmpty then [] else [.change old new]

/-- Cuts two lists at the longest run. The fuel bounds the number of cuts on top of each other;
the length of the old list is always enough, as every cut takes a line from it. -/
def cut (frequent : List String) : (fuel : Nat) → (old new : List String) → List Segment
  | 0, old, new => replace old new
  | fuel + 1, old, new =>
    let (i, j) := runStart frequent old new
    let length := commonLength (old.drop i) (new.drop j)
    if length = 0 then replace old new
    else
      cut frequent fuel (old.take i) (new.take j) ++
        .same ((old.drop i).take length) ::
        cut frequent fuel (old.drop (i + length)) (new.drop (j + length))

/-- Puts a segment in front of others: runs that touch make one. -/
def consSegment : Segment → List Segment → List Segment
  | .same lines, .same more :: rest => .same (lines ++ more) :: rest
  | segment, rest => segment :: rest

/-- What changed between two lists of lines. -/
def script (old new : List String) : List Segment :=
  (cut (frequentLines new) old.length old new).foldr consSegment []

end HeaderBind.Diff
