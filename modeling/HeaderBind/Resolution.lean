import HeaderBind.Declaration
import HeaderBind.Probe.Output

/-!
# `HeaderBind.Resolution`: declarations with what the probe found

A declaration is resolved by the result of its own key and by nothing else: a constant by its
value, a structure by the facts about it and the layout that follows from them.
-/

set_option autoImplicit false

namespace HeaderBind

/-- A declaration with what the probe found. -/
inductive Resolved where
  | constant (declared : Constant) (value : Int)
  | struct (declared : Struct) (facts : Probe.StructFacts) (layout : Layout)
  deriving DecidableEq, Repr

namespace Resolution

/-- Why a declaration cannot be resolved. -/
inductive Fault where
  | probe (fault : Probe.Fault)
  | numeral (fault : Numeral.Fault)
  | layout (fault : Layout.Fault)
  deriving DecidableEq, Repr

/-- A refusal of a layout, unless its wording would show a number that is too long to write. -/
def ofLayoutFault (fault : Layout.Fault) : Fault :=
  if fault.numbers.all Numeral.isWritable then .layout fault else .numeral .tooLongToWrite

/-- A refusal of the value of a structure. -/
def ofStructFault : Probe.StructFault → Fault
  | .form fault => .probe fault
  | .numeral fault => .numeral fault

/-- Resolves one declaration by the results of a probe. -/
def resolveOne (found : Entries String) (declaration : Declaration) : Except Fault Resolved := do
  let value ← (Probe.require found declaration.key).mapError .probe
  match declaration with
  | .constant c =>
    let n ← (Probe.readConstant c.source value).mapError .probe
    .ok (.constant c n)
  | .struct s =>
    let facts ← (Probe.readStruct s.base value (some s.members)).mapError ofStructFault
    let layout ←
      (Layout.synthesize s.base facts.members s.hasTail (some facts.size)).mapError ofLayoutFault
    .ok (.struct s facts layout)

/-- Resolves declarations in order; the first one that cannot be resolved decides. -/
def resolveAll (found : Entries String) : List Declaration → Except Fault (List Resolved)
  | [] => .ok []
  | declaration :: declarations => do
    let first ← resolveOne found declaration
    let rest ← resolveAll found declarations
    .ok (first :: rest)

/-- Resolves declarations by the output of a probe. -/
def resolve (declarations : List Declaration) (output : String) : Except Fault (List Resolved) :=
  resolveAll (Probe.results output) declarations

end Resolution

namespace Resolved

/-- The declaration that was resolved. -/
def declaration : Resolved → Declaration
  | constant c _ => .constant c
  | struct s _ _ => .struct s

end Resolved

end HeaderBind
