import HeaderBind.Schema.Basic

/-!
# `HeaderBind.Config.Shape`: the shape of a configuration

A configuration names targets. A target is a module to generate: its name, possibly the path to
write it to and the toolchain to probe with, and its declarations, each of which is an object that
one of four keys tells apart.
-/

set_option autoImplicit false

namespace HeaderBind.Config

open Schema

/-- An array of non-empty texts. -/
def textListShape : Schema :=
  list 0 (text .nonEmpty)

/-- A declaration that includes a header. -/
def includeShape : Schema :=
  record ["include"] true [("include", text .nonEmpty), ("local", flag)]

/-- A declaration that switches the export mode. -/
def exportShape : Schema :=
  record ["export"] true [("export", choice ["none", "default", "on_request", "on-request"])]

/-- The declaration of a constant. -/
def constantShape : Schema :=
  record ["constant"] true [("constant", text .identifier), ("name", text .identifier)]

/-- The declaration of a structure. -/
def structShape : Schema :=
  record ["structure", "members"] true
    [("structure", text .structName), ("members", list 1 (text .identifier)),
      ("encode_func", text .identifier), ("decode_func", text .identifier), ("with_tail", flag)]

/-- The settings of a toolchain. -/
def toolchainShape : Schema :=
  record [] true
    [("compiler", text .nonEmpty), ("compiler_candidates", textListShape),
      ("cflags", textListShape), ("ldflags", textListShape), ("include_dirs", textListShape)]

/-- A target. -/
def targetShape : Schema :=
  record ["module", "declarations"] true
    [("module", text .moduleName), ("output_path", text .nonEmpty),
      ("toolchain", toolchainShape),
      ("declarations", list 1 (oneOf [includeShape, exportShape, constantShape, structShape]))]

/-- A configuration. Keys beside the targets are left alone. -/
def shape : Schema :=
  record ["targets"] false [("targets", table 1 targetShape)]

end HeaderBind.Config
