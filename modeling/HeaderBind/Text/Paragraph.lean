/-!
# `HeaderBind.Text.Paragraph`: lines of a limited width

A text is laid out in lines that hold as many of its pieces as fit. A piece is what is never
divided: a word, or a part of a hyphenated word up to and including a hyphen. A piece that is wider
than a line stands on a line of its own, so every piece is shown whole.
-/

set_option autoImplicit false

namespace HeaderBind.Text

/-- A number of blanks. -/
def blanks (count : Nat) : String :=
  String.ofList (List.replicate count ' ')

/-- A part of a text that stays on one line. -/
structure Piece where
  /-- Whether a blank stands in front of it unless it starts a line. -/
  spaced : Bool
  text : String
  deriving DecidableEq, Repr

namespace Piece

/-- A piece that is a whole word. -/
def word (text : String) : Piece :=
  ⟨true, text⟩

/-- A line with a piece behind it. -/
def behind (piece : Piece) (line : String) : String :=
  if piece.spaced then line ++ " " ++ piece.text else line ++ piece.text

end Piece

/-- The parts of a word, which may be divided behind a hyphen with two letters on either side.
`before` holds the characters of the part at hand, the last one in front. -/
def wordParts : (before : List Char) → List Char → List (List Char)
  | before, [] => [before.reverse]
  | before, c :: rest =>
    let isDivided := c = '-' && 2 ≤ (before.takeWhile Char.isAlpha).length &&
      2 ≤ (rest.takeWhile Char.isAlpha).length
    if isDivided then (c :: before).reverse :: wordParts [] rest else wordParts (c :: before) rest

/-- The pieces of a word. -/
def wordPieces (word : List Char) : List Piece :=
  match wordParts [] word with
  | [] => []
  | first :: rest =>
    .word (String.ofList first) :: rest.map fun part => ⟨false, String.ofList part⟩

/-- The pieces of a text. -/
def pieces (text : String) : List Piece :=
  ((text.toList.splitOn ' ').filter (· ≠ [])).flatMap wordPieces

/-- Lines of pieces that start behind what the first line holds already. Each further line starts
with an indent. A piece goes onto the line at hand if the line stays within the width. -/
def fillFrom (width : Nat) (indent : String) : (line : String) → List Piece → List String
  | line, [] => [line]
  | line, piece :: rest =>
    let longer := piece.behind line
    if longer.length ≤ width then fillFrom width indent longer rest
    else line :: fillFrom width indent (indent ++ piece.text) rest

/-- Lines of pieces, each line with an indent. -/
def fill (width : Nat) (indent : String) : List Piece → List String
  | [] => []
  | first :: rest => fillFrom width indent (indent ++ first.text) rest

end HeaderBind.Text
