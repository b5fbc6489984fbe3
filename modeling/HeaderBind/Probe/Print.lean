/-!
# `HeaderBind.Probe.Print`: what a probe program prints

A probe program answers by `printf`. A format is kept as its pieces, so the same value says both
how the format is spelled in the program (`literal`) and what a run of the program prints for it
once the values of its conversions are known.
-/

set_option autoImplicit false

namespace HeaderBind.Probe

/-- A conversion of a format. -/
inductive Conversion where
  | signedLongLong
  | unsignedLongLong
  | signedLong
  | unsignedLong
  | character
  deriving DecidableEq, Repr

/-- The spelling of a conversion. -/
def Conversion.spelling : Conversion → String
  | signedLongLong => "%lld"
  | unsignedLongLong => "%llu"
  | signedLong => "%ld"
  | unsignedLong => "%lu"
  | character => "%c"

/-- A piece of a format. -/
inductive Piece where
  /-- Characters that are printed as they are. -/
  | text (content : String)
  /-- The end of a line. -/
  | newline
  /-- The value of the next argument. -/
  | value (conversion : Conversion)
  deriving DecidableEq, Repr

/-- The spelling of a piece inside a literal. -/
def Piece.spelling : Piece → String
  | text content => content
  | newline => "\\n"
  | value conversion => conversion.spelling

/-- A call of `printf`: its format, and the expressions for the conversions in it. -/
structure Print where
  pieces : List Piece
  arguments : List String
  deriving DecidableEq, Repr

namespace Print

/-- The format as it stands between quotes in the program. -/
def literal (print : Print) : String :=
  String.join (print.pieces.map Piece.spelling)

/-- The call as a statement of the program. -/
def statement (print : Print) : String :=
  "printf(\"" ++ print.literal ++ "\"" ++ String.join (print.arguments.map (", " ++ ·)) ++ ");"

end Print

end HeaderBind.Probe
