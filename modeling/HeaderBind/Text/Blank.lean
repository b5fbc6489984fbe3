import HeaderBind.Text.Range

/-!
# `HeaderBind.Text.Blank`: white space and trimming

White space is the Unicode property of that name together with the four separators U+001C to
U+001F. Names, paths and probe lines are compared without the white space at their ends.
-/

set_option autoImplicit false

namespace HeaderBind.Text

/-- The code points of white space. -/
def blankRanges : List (Nat × Nat) := [
  (0x09, 0x0d), (0x1c, 0x20), (0x85, 0x85), (0xa0, 0xa0), (0x1680, 0x1680), (0x2000, 0x200a),
  (0x2028, 0x2029), (0x202f, 0x202f), (0x205f, 0x205f), (0x3000, 0x3000)]

/-- Whether `c` is white space. -/
def isBlank (c : Char) : Bool :=
  inRanges blankRanges c

/-- The characters without those at both ends that `strip` picks. -/
def trimBy (strip : Char → Bool) (cs : List Char) : List Char :=
  ((cs.dropWhile strip).reverse.dropWhile strip).reverse

/-- The characters without the white space at both ends. -/
def trimChars (cs : List Char) : List Char :=
  trimBy isBlank cs

/-- The text without the white space at both ends. -/
def trim (s : String) : String :=
  String.ofList (trimChars s.toList)

/-- Whether nothing but white space stands in the text. -/
def isBlankText (s : String) : Bool :=
  s.toList.all isBlank

end HeaderBind.Text
