import HeaderBind.Schema.Basic

/-!
# `HeaderBind.Schema.Relevance`: the violation to report

Of all violations of a schema one is reported. Violations are ranked: a longer path ranks below a
shorter one; of paths of one length the smaller ranks below the greater; then a value that fits no
alternative ranks below any other problem, and a value of the type that the shape asks for ranks
below one that is not. The highest rank is chosen, the first one in case of a tie.

A value that fits no alternative says little, so the choice goes on inside its context, now to the
lowest rank, as long as the two lowest do not tie: the deepest violation tells which alternative
was meant.

As `HeaderBind.Schema.Basic`, this stands for the validator of a library and follows its
documentation.
-/

set_option autoImplicit false

namespace HeaderBind.Schema

/-- The order of steps: keys by code points, items by number. A value has either keys or items, so
the two kinds never meet at one place. -/
def Step.compare : Step → Step → Ordering
  | .key first, .key second => Ord.compare first second
  | .index first, .index second => Ord.compare first second
  | .key _, .index _ => .lt
  | .index _, .key _ => .gt

/-- The order of paths, step by step. -/
def comparePaths : List Step → List Step → Ordering
  | [], [] => .eq
  | [], _ :: _ => .lt
  | _ :: _, [] => .gt
  | first :: firsts, second :: seconds => (first.compare second).then (comparePaths firsts seconds)

namespace Violation

/-- Whether the value fits no alternative. -/
def isWeak (violation : Violation) : Bool :=
  violation.problem == .noAlternative

/-- The order of ranks. -/
def compareRank (first second : Violation) : Ordering :=
  (Ord.compare second.path.length first.path.length).then <|
  (comparePaths first.path second.path).then <|
  (Ord.compare (!first.isWeak) (!second.isWeak)).then <|
  Ord.compare (!first.ofKind) (!second.ofKind)

/-- The first violation of the highest rank. -/
def highest (first : Violation) (others : List Violation) : Violation :=
  others.foldl (fun best other => if compareRank best other = .lt then other else best) first

/-- The first violation of the lowest rank, unless another one ties with it. -/
def lowest? : List Violation → Option Violation
  | [] => none
  | first :: others =>
    let best :=
      others.foldl (fun best other => if compareRank other best = .lt then other else best) first
    if 1 < (first :: others).countP fun other => compareRank other best == .eq then none
    else some best

/-- The violation with its path seen from the value that the given path leads to. -/
def seenFrom (place : List Step) : Violation → Violation
  | mk path value problem ofKind context => mk (place ++ path) value problem ofKind context

/-- Goes on inside the context of a violation as long as it singles one out. The fuel bounds the
nesting of contexts. -/
def narrow : (fuel : Nat) → Violation → Violation
  | 0, violation => violation
  | fuel + 1, violation =>
    match lowest? violation.context with
    | none => violation
    | some inner => (narrow fuel inner).seenFrom violation.path

mutual

/-- How deep the contexts of a violation are nested. -/
def depth : Violation → Nat
  | mk _ _ _ _ context => depths context + 1

/-- How deep the contexts of some violations are nested. -/
def depths : List Violation → Nat
  | [] => 0
  | violation :: violations => max (depth violation) (depths violations)

end

/-- The violation to report, if there is any. -/
def best? : List Violation → Option Violation
  | [] => none
  | first :: others =>
    let chosen := highest first others
    some (narrow chosen.depth chosen)

/-- The place of a violation in messages. -/
def location (violation : Violation) : String :=
  if violation.path.isEmpty then "<root>"
  else "/".intercalate (violation.path.map Step.text)

end Violation

end HeaderBind.Schema
