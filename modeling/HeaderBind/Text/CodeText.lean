import HeaderBind.Text.Hex

/-!
# `HeaderBind.Text.CodeText`: texts by their code points

A running program holds a text as a list of code points, and among them may be halves of the pairs
of units that UTF-16 spells a character past U+FFFF with. Such a half is no character. A text
without one is a `String`; a text with one cannot be encoded, and `firstHalves` finds the place
that the refusal names.
-/

set_option autoImplicit false

namespace HeaderBind

/-- A text by its code points. -/
structure CodeText where
  points : List Nat
  inRange : ∀ point ∈ points, point < 0x110000
  deriving DecidableEq

namespace CodeText

open HeaderBind.Text

/-- Whether a code point is half of a pair. -/
def isHalf (point : Nat) : Bool :=
  0xd800 ≤ point && point < 0xe000

/-- The text of a string. -/
def ofString (s : String) : CodeText where
  points := s.toList.map Char.toNat
  inRange := by
    intro point hpoint
    obtain ⟨c, -, rfl⟩ := List.mem_map.mp hpoint
    rcases c.valid with h | ⟨-, h⟩
    · exact Nat.lt_trans h (by decide)
    · exact h

/-- Why a text cannot be encoded: halves of pairs in a row, the first of them and their number. -/
structure Fault where
  start : Nat
  point : Nat
  count : Nat
  deriving DecidableEq, Repr

/-- The wording of a refusal. -/
def Fault.message (fault : Fault) : String :=
  let what :=
    if fault.count = 1 then
      let digits := String.ofList (hexDigits 4 fault.point)
      s!"character '\\u{digits}' in position {fault.start}"
    else s!"characters in position {fault.start}-{fault.start + fault.count - 1}"
  s!"'utf-8' codec can't encode {what}: surrogates not allowed"

/-- The first halves of pairs in a row. -/
def firstHalves (points : List Nat) : Fault :=
  let rest := points.dropWhile fun point => !isHalf point
  ⟨points.length - rest.length, rest.headD 0, (rest.takeWhile isHalf).length⟩

/-- The string with the same code points. There is one if no code point is half of a pair, and only
such a text can be encoded. -/
def asString (text : CodeText) : Except Fault String :=
  if text.points.any isHalf then .error (firstHalves text.points)
  else .ok (String.ofList (text.points.map Char.ofNat))

end CodeText

end HeaderBind
