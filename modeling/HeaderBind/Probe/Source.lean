import HeaderBind.Declaration
import HeaderBind.Include
import HeaderBind.Probe.Print

/-!
# `HeaderBind.Probe.Source`: the probe program

The program prints one line for each declaration. For a constant that is its name and its value;
values above the signed range fit only the unsigned conversion, so the sign decides which of two
calls runs. For a structure it is the name, the size, and for each member the offset, the width
and a letter for the sign: the program stores minus one and looks whether it reads back negative.
-/

set_option autoImplicit false

namespace HeaderBind.Probe

/-- The calls for a constant: when its value is negative, and when it is not. -/
structure ConstantPrints where
  negative : Print
  nonNegative : Print
  deriving DecidableEq, Repr

/-- The calls that print the value of a constant. -/
def constantPrints (name : String) : ConstantPrints where
  negative := ⟨[.text s!"{name}=", .value .signedLongLong, .newline], [s!"(long long)({name})"]⟩
  nonNegative :=
    ⟨[.text s!"{name}=", .value .unsignedLongLong, .newline], [s!"(unsigned long long)({name})"]⟩

/-- The variable that holds a structure in the program. -/
def variableName (base : String) : String :=
  s!"probe_{base}"

/-- The call that prints the size of a structure. -/
def sizePrint (base : String) : Print :=
  ⟨[.text s!"{base}=", .value .unsignedLong], [s!"(unsigned long)sizeof({variableName base})"]⟩

/-- The call that prints where a member lies. -/
def memberPrint (base member : String) : Print :=
  let object := variableName base
  let place := s!"{object}.{member}"
  ⟨[.text s!",{member}@", .value .signedLong, .text "+", .value .unsignedLong, .value .character],
    [s!"(long)((char *)&{place} - (char *)&{object})",
      s!"(unsigned long)sizeof({place})",
      s!"(({place} = -1) < 0 ? 's' : 'u')"]⟩

/-- The call that ends the line of a structure. -/
def endPrint : Print :=
  ⟨[.newline], []⟩

/-- The calls for a structure, in order. -/
def structPrints (s : Struct) : List Print :=
  sizePrint s.base :: s.members.map (memberPrint s.base) ++ [endPrint]

/-- The lines of the program for a constant. -/
def constantLines (c : Constant) : List String :=
  let prints := constantPrints c.source
  [s!"  if (({c.source}) < 0)",
    "    " ++ prints.negative.statement,
    "  else",
    "    " ++ prints.nonNegative.statement]

/-- The lines of the program for a structure. -/
def structLines (s : Struct) : List String :=
  ["  \x7b", s!"    {s.name} {variableName s.base};"] ++
    (structPrints s).map (fun print => "    " ++ print.statement) ++ ["  \x7d"]

/-- The lines of the program for a declaration. -/
def declarationLines : Declaration → List String
  | .constant c => constantLines c
  | .struct s => structLines s

/-- The lines of the program. -/
def sourceLines (includes : List Include) (declarations : List Declaration) : List String :=
  "#include <stdio.h>" :: includes.map Include.directive ++
    ["", "int main(void) \x7b"] ++ declarations.flatMap declarationLines ++ ["  return 0;", "\x7d"]

/-- The text of the program. -/
def source (includes : List Include) (declarations : List Declaration) : String :=
  "\n".intercalate (sourceLines includes declarations) ++ "\n"

end HeaderBind.Probe
