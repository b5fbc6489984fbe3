import HeaderBind.Proofs.Compiler
import HeaderBind.Proofs.Config.Reordered
import HeaderBind.Proofs.Escape.Files
import HeaderBind.Proofs.FileTree.ReadBack
import HeaderBind.Proofs.Json.Printed
import HeaderBind.Proofs.Json.ReadBack
import HeaderBind.Proofs.Module.ReadBack

/-!
# `HeaderBind.Proofs.Config.Saved`: documents that were written are loaded

Between a value and the value that is loaded from its file lie four steps and their inverses: the
keys are put in order, the value becomes a text, the text becomes bytes, and the bytes are put into
a file. Only the first one is not undone, so what is loaded is the value with its keys in order
(`Json.load_eq_sortKeys`). A configuration is checked without regard to the order of keys, and that
carries `Config.load_of_save`.

All of this is for values that the interpreter has room for. One whose values stand too deep inside
one another is not written (`Json.save_of_tooDeep`), and if there is less room to read than there
was to write, it is written and not read (`Json.load_of_tooDeep`).
-/

set_option autoImplicit false

namespace HeaderBind

open Effect

variable {host after : Host} {path : Path}

/-- A text without a carriage return is read from the file that it was written to. -/
theorem Action.readText_of_writeText [Interpreter] (hclosed : host.tree.Closed) {text : String}
    (htext : Lacks '\r' text) (wrap : FileTree.Fault → Error)
    (h : Action.writeText path text host = .ok () after) :
    Action.readText path wrap after = .ok text after := by
  rw [Artifact.writeText_apply] at h
  cases hwrite : FileTree.write host.workingDirectory path (Utf8.encode text) host.tree with
  | error fault tree =>
      rw [hwrite] at h
      cases h
  | ok value tree =>
      rw [hwrite] at h
      cases h
      exact Action.readText_eq_ok_iff.mpr
        ⟨_, FileTree.read_of_write hclosed hwrite, decodeText_encode htext, rfl⟩

namespace Json

variable {value : Json}

/-- No line of a written document ends with a carriage return. -/
theorem Plain.lacks_return (h : Plain value) : Lacks '\r' (value.render ++ "\n") := by
  rw [Lacks.append_iff]
  constructor
  · rw [Lacks, render, String.toList_ofList]
    exact (h.sortKeys.printed_write 0).return_notMem
  · show '\r' ∉ ['\n']
    decide

section

variable [Interpreter]

/-- A plain value that there is room to write is written like any other text. -/
theorem Plain.save_eq_writeText (h : Plain value) (hroom : value.height ≤ Interpreter.writeRoom)
    (path : Path) : save path value = Action.writeText path (value.render ++ "\n") := by
  refine Json.save_eq_writeText (h.sortKeys.textFault?_eq_none_iff.mpr ?_) path
  rwa [height, h.depth_sortKeys]

/-- Of a plain value that there is no room to write nothing comes but the directories that lead to
its file. -/
theorem save_of_tooDeep (h : Plain value) (hdeep : Interpreter.writeRoom < value.height)
    (path : Path) :
    save path value host
      = (do
          Action.change (FileTree.makeDirectories host.workingDirectory path.parent)
          throw (.depth .writing) : Action Unit) host := by
  have hrender : value.renderChecked = .error .tooDeep := by
    refine spellIn_eq_error_iff.mpr (h.sortKeys.textFault?_eq_tooDeep ?_)
    rwa [height, h.depth_sortKeys]
  rw [save, get_bind_apply, hrender]
  rfl

/-- What was saved is what there was room to write. -/
theorem Plain.height_le_of_save (h : Plain value) (hsave : save path value host = .ok () after) :
    value.height ≤ Interpreter.writeRoom := by
  by_contra hdeep
  rw [save_of_tooDeep h (Nat.lt_of_not_le hdeep)] at hsave
  obtain ⟨_, middle, -, hthrow⟩ := of_bind_ok hsave
  cases hthrow

/-- A document that was saved is loaded by parsing its text. -/
theorem load_eq_parse (hclosed : host.tree.Closed) (hplain : value.Plain)
    (hsave : save path value host = .ok () after) :
    Action.readText path (fun fault => .configuration (.unreadableDocument path.text fault)) after
      = .ok (value.render ++ "\n") after := by
  rw [hplain.save_eq_writeText (hplain.height_le_of_save hsave)] at hsave
  exact Action.readText_of_writeText hclosed hplain.lacks_return _ hsave

/-- What is loaded from the file of a plain value is the value with its keys in order. -/
theorem load_eq_sortKeys (hclosed : host.tree.Closed) (hplain : value.Plain)
    (hsave : save path value host = .ok () after)
    (hroom : value.nesting ≤ Interpreter.readRoom) :
    load path after = .ok value.sortKeys after := by
  rw [load, bind_apply, load_eq_parse hclosed hplain hsave]
  simp only [(parse_render hplain).1 hroom]
  rfl

/-- Where there is less room to read a plain value than there was to write it, it is not loaded. -/
theorem load_of_tooDeep (hclosed : host.tree.Closed) (hplain : value.Plain)
    (hsave : save path value host = .ok () after)
    (hdeep : Interpreter.readRoom < value.nesting) :
    ∃ descent, load path after = .error (.depth descent) after := by
  obtain ⟨descent, hparse⟩ := (parse_render hplain).2 hdeep
  refine ⟨descent, ?_⟩
  rw [load, bind_apply, load_eq_parse hclosed hplain hsave]
  simp only [hparse]
  rfl

end

end Json

namespace Config

variable {value : Json}

section

variable [Interpreter]

/-- A configuration is loaded by checking what is in the file. -/
theorem load_eq_of_document {document : Json} (h : Json.load path host = .ok document host) :
    load path host = match check document with
      | .ok _ => .ok document host
      | .error fault => .error (.ofDocument fault) host := by
  rw [load, bind_apply, h]
  cases hcheck : check document with
  | ok _ =>
      simp only [hcheck]
      rfl
  | error fault =>
      simp only [hcheck]
      rfl

/-- Where no document can be loaded, neither can a configuration. -/
theorem load_of_document_error {error : Error} (h : Json.load path host = .error error host) :
    load path host = .error error host := by
  rw [load, bind_apply, h]

/-- Where the files are a tree, a plain value that there is room to write is saved as its text, so
only the files that are there can refuse it; another one is not saved. Once it is saved and there is
room to read it, what is loaded from its file is the value with nothing changed but the order of
keys. As a configuration the file is then accepted, and the same value returned, exactly when the
value itself passes the check; otherwise it is refused. If there is no room to read the value, both
are refused for that reason. -/
theorem load_of_save (hclosed : host.tree.Closed) (hplain : value.Plain) (path : Path) :
    (value.height ≤ Interpreter.writeRoom →
        Json.save path value host = Action.writeText path (value.render ++ "\n") host) ∧
      (Interpreter.writeRoom < value.height →
        Json.save path value host
          = (do
              Action.change (FileTree.makeDirectories host.workingDirectory path.parent)
              throw (.depth .writing) : Action Unit) host) ∧
      ∀ after, Json.save path value host = .ok () after →
        value.Reordered value.sortKeys ∧
        (value.nesting ≤ Interpreter.readRoom →
          Json.load path after = .ok value.sortKeys after ∧
          (load path after = .ok value.sortKeys after ↔ check value = .ok ()) ∧
          (check value ≠ .ok () → ∃ fault, load path after = .error (.ofDocument fault) after)) ∧
        (Interpreter.readRoom < value.nesting →
          ∃ descent, Json.load path after = .error (.depth descent) after ∧
            load path after = .error (.depth descent) after) := by
  refine ⟨fun hroom => congrFun (hplain.save_eq_writeText hroom path) host,
    fun hdeep => Json.save_of_tooDeep hplain hdeep path, fun after hsave => ?_⟩
  have hreordered := Json.reordered_sortKeys hplain.tidy
  refine ⟨hreordered, fun hroom => ?_, fun hdeep => ?_⟩
  · have hload := Json.load_eq_sortKeys hclosed hplain hsave hroom
    -- The value in the file is checked target by target in another order than the value itself, so
    -- the faults may differ, but not whether there is one.
    have hchecked := check_iff_of_reordered hreordered
    refine ⟨hload, ?_⟩
    rw [load_eq_of_document hload, ne_eq, hchecked]
    cases check value.sortKeys with
    | ok _ => exact ⟨iff_of_true rfl rfl, fun h => absurd rfl h⟩
    | error fault => exact ⟨iff_of_false nofun nofun, fun _ => ⟨fault, rfl⟩⟩
  · obtain ⟨descent, hload⟩ := Json.load_of_tooDeep hclosed hplain hsave hdeep
    exact ⟨descent, hload, load_of_document_error hload⟩

end

/-- A configuration with a note beside its targets. In the note there are escapes, a character past
U+FFFF, an integer of many digits, and empty containers inside others. -/
def annotatedConfig : Json :=
  .object [("targets", .object [("demo", .object
      [("module", .string "demo"), ("declarations", .array [.object
        [("constant", .string "LIMIT"), ("name", .string "MAX")]])])]),
    ("note", .array [.string "\"back\\slash\"\r\n\x01é𝄞", .integer (-12345678901234567890),
      .array [.array [], .object []], .null, .bool false])]

theorem plain_annotatedConfig : annotatedConfig.Plain := by
  have hsmall : Int.natAbs (-12345678901234567890) < Nat.pow 10 20 := by decide
  have hshort : Numeral.isWritable (-12345678901234567890) = true :=
    Numeral.isWritable_of_natAbs_lt hsmall (by decide)
  simp [annotatedConfig, hshort]

/-- The directory of the file does not exist yet, and the path leads out of it and back. -/
theorem load_of_save_annotated :
    Compiler.bareHost.tree.Closed ∧ annotatedConfig.Plain ∧
      ∃ after, Json.save ⟨.relative, ["etc", "..", "etc", "demo.json"]⟩ annotatedConfig
          Compiler.bareHost = .ok () after ∧
        Json.load ⟨.relative, ["etc", "..", "etc", "demo.json"]⟩ after
          = .ok annotatedConfig.sortKeys after ∧
        load ⟨.relative, ["etc", "..", "etc", "demo.json"]⟩ after
          = .ok annotatedConfig.sortKeys after := by
  have hclosed : Compiler.bareHost.tree.Closed := by decide +kernel
  obtain ⟨hfits, -, hback⟩ := load_of_save hclosed plain_annotatedConfig
    ⟨.relative, ["etc", "..", "etc", "demo.json"]⟩
  have hsave := hfits (by decide)
  have hwritten : ∀ text, ∃ after, Action.writeText ⟨.relative, ["etc", "..", "etc", "demo.json"]⟩
      text Compiler.bareHost = .ok () after := fun text => ⟨_, rfl⟩
  obtain ⟨after, hdone⟩ := hwritten (annotatedConfig.render ++ "\n")
  have hcheck : check annotatedConfig = .ok () := by decide +kernel
  obtain ⟨-, hread, -⟩ := hback after (hsave.trans hdone)
  obtain ⟨hload, hiff, -⟩ := hread (by decide)
  exact ⟨hclosed, plain_annotatedConfig, after, hsave.trans hdone, hload, hiff.mpr hcheck⟩

/-- A text inside so many arrays. -/
def nested : (depth : Nat) → Json
  | 0 => .string "x"
  | depth + 1 => .array [nested depth]

theorem plain_nested (depth : Nat) : (nested depth).Plain := by
  induction depth with
  | zero => exact .string "x"
  | succ depth ih => simpa [nested] using ih

theorem height_nested (depth : Nat) : (nested depth).height = depth + 1 := by
  induction depth with
  | zero => rfl
  | succ depth ih =>
      rw [Json.height] at ih
      rw [nested, Json.height, Json.depth, Json.itemsDepth, Json.itemsDepth, ih, Nat.max_zero]

/-- A configuration with a note beside its targets that is nested as deep as one likes. -/
def deepConfig (depth : Nat) : Json :=
  .object [("targets", .object [("demo", .object
      [("module", .string "demo"), ("declarations", .array [.object
        [("constant", .string "LIMIT"), ("name", .string "MAX")]])])]),
    ("note", nested depth)]

theorem plain_deepConfig (depth : Nat) : (deepConfig depth).Plain := by
  simp [deepConfig, plain_nested]

theorem height_deepConfig (depth : Nat) : depth < (deepConfig depth).height := by
  have hnote := height_nested depth
  rw [Json.height] at hnote
  simp only [deepConfig, Json.height, Json.depth, Json.fieldsDepth, hnote]
  omega

theorem check_deepConfig (depth : Nat) : check (deepConfig depth) = .ok () := rfl

/-- A configuration that passes the check need not be saved: there may be no room for its text. -/
theorem not_save_deepConfig :
    (deepConfig 1000).Plain ∧ check (deepConfig 1000) = .ok () ∧
      ∀ path host after, Json.save path (deepConfig 1000) host ≠ .ok () after := by
  refine ⟨plain_deepConfig 1000, check_deepConfig 1000, fun path host after hsave => ?_⟩
  have hheight := (plain_deepConfig 1000).height_le_of_save hsave
  exact absurd (Nat.lt_of_lt_of_le (height_deepConfig 1000) hheight) (by decide)

end Config

end HeaderBind
