import HeaderBind.Proofs.Config.Load
import HeaderBind.Proofs.Artifact

/-!
# `HeaderBind.Proofs.Escape.Files`: errors that are about something else than the user's input

Three kinds of errors end a command with a message. The others are refusals of numbers, of texts and
of files that no step of the program has given a wording of its own. They escape: every action hands
them on, and so does a command.

Where they come from is told step by step, and completely: for each action there is a condition on
what it is given that holds exactly when such an error comes out of it. This module has the steps
that work on files: reading a document (`Json.Unreadable`) and a configuration
(`Config.Unloadable`), and bringing a file up to date (`Artifact.Unwritable`).
-/

set_option autoImplicit false

namespace HeaderBind

open Effect

namespace Error

/-- An error that no command turns into a message. -/
def Escapes (error : Error) : Prop :=
  error.isReported = false

/-- What is said of a target is about the configuration, apart from a path that can lead nowhere. -/
theorem escapes_ofTarget_iff {fault : Target.Fault} :
    (ofTarget fault).Escapes ↔ ∃ cause, fault = .path cause := by
  cases fault with
  | path cause => exact iff_of_true rfl ⟨cause, rfl⟩
  | _ => exact iff_of_false nofun nofun

/-- What is said of an output is about the probe or a layout, apart from its numbers. -/
theorem escapes_ofResolution_iff {fault : Resolution.Fault} :
    (ofResolution fault).Escapes ↔ ∃ cause, fault = .numeral cause := by
  cases fault with
  | numeral cause => exact iff_of_true rfl ⟨cause, rfl⟩
  | _ => exact iff_of_false nofun nofun

end Error

/-! ### Paths and files -/

namespace Action

variable {α ε : Type} {host : Host}

theorem escapes_ofExcept_iff {wrap : ε → Error} {result : Except ε α} :
    RefusedBy Error.Escapes (ofExcept wrap result) host
      ↔ ∃ fault, result = .error fault ∧ (wrap fault).Escapes := by
  cases result with
  | ok value =>
      refine iff_of_false (not_refusedBy_of_ok rfl) ?_
      rintro ⟨fault, h, -⟩
      cases h
  | error fault =>
      refine refusedBy_throw_iff.trans ⟨fun h => ⟨fault, rfl, h⟩, ?_⟩
      rintro ⟨_, h, hescapes⟩
      cases h
      exact hescapes

theorem escapes_resolve_iff {text : String} :
    RefusedBy Error.Escapes (resolve text) host ↔ '\x00' ∈ text.toList := by
  show RefusedBy Error.Escapes
    (ofExcept Error.ofPath ((Path.ofString text).resolve host.workingDirectory)) host ↔ _
  rw [escapes_ofExcept_iff, Path.resolve_eq]
  cases husable : (Path.ofString text).isUsable with
  | true =>
      refine iff_of_false ?_ (Path.isUsable_ofString_iff.mp husable)
      rintro ⟨fault, h, -⟩
      cases h
  | false =>
      refine iff_of_true ⟨_, rfl, rfl⟩ (Decidable.byContradiction fun h => ?_)
      rw [Path.isUsable_ofString_iff.mpr h] at husable
      cases husable

/-- Two changes of the files in a row are one change. -/
theorem change_bind {β : Type} (first : FileTree.Change α) (next : α → FileTree.Change β) :
    change (first >>= next) = change first >>= fun value => change (next value) := by
  funext host
  simp only [change, bind_apply]
  cases first host.tree with
  | ok value tree => rfl
  | error fault tree => rfl

end Action

/-! ### Configurations -/

section

variable [Interpreter]

namespace Json

/-- Why a document in a file is refused in words that are not the program's own. -/
inductive Unreadable (path : Path) (host : Host) : Prop
  /-- The path of the file can lead nowhere. -/
  | place {fault : Path.Fault} (read : host.readBytes path = .error (.unusable fault)) :
      Unreadable path host
  /-- Its bytes are no text. -/
  | bytes {content : ByteArray} {fault : Utf8.Fault} (read : host.readBytes path = .ok content)
      (refused : Utf8.decode content = .error fault) : Unreadable path host
  /-- An integer in it has too many digits. -/
  | number {content : ByteArray} {text : String} {fault : Numeral.Fault}
      (read : host.readBytes path = .ok content) (decoded : decodeText content = .ok text)
      (refused : parse text = .error (.numeral fault)) : Unreadable path host
  /-- Its arrays and objects stand too deep inside one another. -/
  | depth {content : ByteArray} {text : String} {descent : Descent}
      (read : host.readBytes path = .ok content) (decoded : decodeText content = .ok text)
      (refused : parse text = .error (.tooDeep descent)) : Unreadable path host

end Json

namespace Config

/-- Why a configuration is refused in words that are not the program's own. -/
inductive Unloadable (path : Path) (host : Host) : Prop
  /-- There is no document. -/
  | unreadable (unreadable : Json.Unreadable path host) : Unloadable path host
  /-- The document violates the shape, and a value that a message about it would show has no
  text. -/
  | unshown {document : Json} {fault : Json.TextFault}
      (read : Json.load path host = .ok document host) (walked : PassesWalk document)
      (refused : Schema.Violation.faults? [] (shape.check document) = some fault) :
      Unloadable path host

end Config

end

/-! ### Files that are brought up to date -/

namespace Artifact

/-- Why a file cannot be brought up to date, in words that are not the program's own. -/
inductive Unwritable [Interpreter] (tree : FileTree) (workingDirectory : Location) (path : Path)
    (content : String) (mode : WriteMode) : Prop
  /-- The path of the file is too long to be looked up. -/
  | long {fault : FileTree.Fault} (looked : tree.pathExists workingDirectory path = .error fault) :
      Unwritable tree workingDirectory path content mode
  /-- The bytes of the file are no text. -/
  | bytes {held : ByteArray} {fault : Utf8.Fault}
      (read : tree.read workingDirectory path = .ok held)
      (refused : Utf8.decode held = .error fault) :
      Unwritable tree workingDirectory path content mode
  /-- The text has changed, and something is in the way of the file or there is no room for the
  directories in front of it. -/
  | blocked {before : String} {fault : FileTree.Fault} {after : FileTree}
      (current : tree.currentText workingDirectory path = .ok before) (changed : before ≠ content)
      (applied : mode = .apply)
      (refused : FileTree.write workingDirectory path (Utf8.encode content) tree
        = .error fault after) : Unwritable tree workingDirectory path content mode

end Artifact

/-! ### Documents that are written -/

namespace Json

/-- A document that can be written is written like any other text. -/
theorem save_eq_writeText [Interpreter] {value : Json}
    (h : value.sortKeys.textFault? Interpreter.writeRoom = none) (path : Path) :
    save path value = Action.writeText path (value.render ++ "\n") := by
  have hrender : value.renderChecked = .ok value.render := spellIn_eq_ok_iff.mpr ⟨h, rfl⟩
  unfold save Action.writeText FileTree.write
  simp only [hrender, Action.change_bind]
  rfl

end Json

end HeaderBind
