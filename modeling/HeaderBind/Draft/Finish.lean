import HeaderBind.Error

/-!
# `HeaderBind.Draft.Finish`: from a draft to a module

A draft is finished by running its probe program, resolving its declarations by what the program
printed, and writing them down. How the program is run is left open: `run` may be any computation
that can fail, be it a toolchain or a fixed answer.
-/

set_option autoImplicit false

namespace HeaderBind.Draft

variable {m : Type → Type} [Monad m] [MonadExceptOf Error m]

/-- The result of a computation that may fail. -/
def lift {α ε : Type} (wrap : ε → Error) : Except ε α → m α
  | .ok value => pure value
  | .error fault => throw (wrap fault)

/-- The declarations that wait, resolved. The probe is run only if there are any. -/
def resolve (run : String → m String) (draft : Draft) : m (List Resolved) :=
  if draft.isPending then do
    let output ← run draft.probeSource
    lift .ofResolution (Resolution.resolve draft.declarations output)
  else pure []

/-- The text of the module, and the draft for the next one. -/
def finish (run : String → m String) (draft : Draft) : m (String × Draft) :=
  match draft.name with
  | none => throw (.ofDraft .noName)
  | some name => do
    let resolved ← resolve run draft
    let text ← lift .numeral (Module.render name draft.label (resolved.map Module.Entry.ofResolved))
    pure (text, draft.cleared)

end HeaderBind.Draft
