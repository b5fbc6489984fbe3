/-!
# `HeaderBind.Text.Range`: classes of characters given by code point ranges

Unicode properties are kept as lists of code point ranges with both ends included. `inRanges`
is the only reader of such a list, so a property is exactly what its table says.
-/

set_option autoImplicit false

namespace HeaderBind.Text

/-- Whether the code point of `c` lies in one of the ranges, ends included. -/
def inRanges (ranges : List (Nat × Nat)) (c : Char) : Bool :=
  ranges.any fun range => range.1 ≤ c.toNat && c.toNat ≤ range.2

end HeaderBind.Text
