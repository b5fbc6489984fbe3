/-!
# `HeaderBind.Include`: headers that a probe needs

A probe program includes the headers that define what it asks about, from the directories of the
system or beside the program.
-/

set_option autoImplicit false

namespace HeaderBind

/-- A header to include. -/
structure Include where
  path : String
  /-- Whether the header is looked up beside the program first. -/
  isLocal : Bool
  deriving DecidableEq, Repr

/-- The line that includes the header. -/
def Include.directive (header : Include) : String :=
  if header.isLocal then "#include \"" ++ header.path ++ "\"" else s!"#include <{header.path}>"

end HeaderBind
