import HeaderBind.Artifact
import HeaderBind.Proofs.FileTree.Write
import HeaderBind.Proofs.Host
import HeaderBind.Proofs.Result

/-!
# `HeaderBind.Proofs.Artifact`: what bringing a file up to date depends on

`Artifact.write` reads a file, compares, and writes or reports. `write_apply` gives the whole
operation as a function of the files and of the working directory: nothing else of a host decides
what comes of it, and nothing else is changed. Everything that is known about writing a file starts
from there.

Three consequences. Unless the file is to be written, the host is left as it was
(`host_left_write`), and two hosts with the same files come to the same result (`related_write`).
Where it is written, `BroughtUp` says what becomes of the files: the file holds the text, or no file
has changed.
-/

set_option autoImplicit false

namespace HeaderBind

open Effect

/-- The text of the file where a path leads, or the empty text if nothing lies there. -/
def FileTree.currentText (tree : FileTree) (workingDirectory : Location) (path : Path) :
    Except Error String :=
  match tree.pathExists workingDirectory path with
  | .error fault => .error (.file fault)
  | .ok false => .ok ""
  | .ok true =>
    match tree.read workingDirectory path with
    | .ok content => (decodeText content).mapError .encoding
    | .error (.unusable fault) => .error (.ofPath fault)
    | .error fault => .error (.configuration (.unreadableFile path.text fault))

namespace Artifact

/-- Reading the file looks at the files and changes nothing. -/
theorem current_apply (path : Path) (host : Host) :
    current path host
      = match host.tree.currentText host.workingDirectory path with
        | .ok text => .ok text host
        | .error error => .error error host := by
  simp only [current, get_bind_apply, FileTree.currentText]
  show (Action.ofExcept Error.file (host.tree.pathExists host.workingDirectory path) >>= _) host = _
  rw [bind_apply]
  cases host.tree.pathExists host.workingDirectory path with
  | error fault => rfl
  | ok found =>
      cases found with
      | false => rfl
      | true =>
          show (match host.tree.read host.workingDirectory path with
            | .ok content => Action.ofExcept Error.encoding (decodeText content)
            | .error (.unusable fault) => throw (.ofPath fault)
            | .error fault => throw (.configuration (.unreadableFile path.text fault)) :
              Action String) host = _
          cases host.tree.read host.workingDirectory path with
          | ok content => cases hdecode : decodeText content <;> simp [hdecode] <;> rfl
          | error fault => cases fault <;> rfl

/-- Writing into the files of a host is writing into its tree. -/
theorem writeText_apply [Interpreter] (path : Path) (text : String) (host : Host) :
    Action.writeText path text host
      = match FileTree.write host.workingDirectory path (Utf8.encode text) host.tree with
        | .ok value tree => .ok value { host with tree := tree }
        | .error fault tree => .error (.file fault) { host with tree := tree } := by
  rw [Action.writeText, get_bind_apply, Action.change]
  cases FileTree.write host.workingDirectory path (Utf8.encode text) host.tree <;> rfl

/-- What comes of writing a file: the comparison with what is there decides, and only a file that
differs and is to be written is touched. -/
theorem write_apply [Interpreter] (path : Path) (content : String) (mode : WriteMode)
    (host : Host) :
    write path content mode host
      = match host.tree.currentText host.workingDirectory path with
        | .error error => .error error host
        | .ok before =>
          if before = content then .ok (.unchanged, "") host
          else if mode = .apply then
            match FileTree.write host.workingDirectory path (Utf8.encode content) host.tree with
            | .ok () tree =>
              .ok (.updated, difference path before content) { host with tree := tree }
            | .error fault tree => .error (.file fault) { host with tree := tree }
          else .ok (mode.status, difference path before content) host := by
  simp only [write]
  rw [bind_apply, current_apply]
  cases host.tree.currentText host.workingDirectory path with
  | error error => rfl
  | ok before =>
      by_cases hsame : before = content
      · simp only [if_pos hsame]
        rfl
      · simp only [if_neg hsame]
        by_cases hmode : mode = .apply
        · subst hmode
          simp only [if_true, bind_apply, writeText_apply]
          cases FileTree.write host.workingDirectory path (Utf8.encode content) host.tree <;> rfl
        · simp only [if_neg hmode]
          rfl

section Current

variable {host : Host} {path : Path} {before content : String} {mode : WriteMode}

/-- A file that holds the text is left alone. -/
theorem write_of_eq [Interpreter]
    (hcurrent : host.tree.currentText host.workingDirectory path = .ok content) :
    write path content mode host = .ok (.unchanged, "") host := by
  rw [write_apply, hcurrent]
  simp only [if_true]

/-- What comes of a file that is only asked about and whose text is another one. -/
theorem write_of_ne [Interpreter] (hmode : mode ≠ .apply)
    (hcurrent : host.tree.currentText host.workingDirectory path = .ok before)
    (hne : before ≠ content) :
    write path content mode host
      = .ok (mode.status, difference path before content) host := by
  rw [write_apply, hcurrent]
  simp only [if_neg hne, if_neg hmode]

/-- A file whose text is another one is written. -/
theorem write_of_written [Interpreter] {tree : FileTree}
    (hcurrent : host.tree.currentText host.workingDirectory path = .ok before)
    (hne : before ≠ content)
    (hwrite : FileTree.write host.workingDirectory path (Utf8.encode content) host.tree
      = .ok () tree) :
    write path content .apply host
      = .ok (.updated, difference path before content) { host with tree := tree } := by
  rw [write_apply, hcurrent]
  simp only [if_neg hne, if_true, hwrite]

end Current

/-- A file that is only asked about is not touched, and nothing else is either. -/
theorem host_left_write [Interpreter] {mode : WriteMode} (hmode : mode ≠ .apply) (path : Path)
    (content : String) (host : Host) : left (write path content mode host) = host := by
  rw [write_apply]
  cases host.tree.currentText host.workingDirectory path with
  | error error => rfl
  | ok before =>
      simp only [if_neg hmode]
      split <;> rfl

/-- The status of a file that is previewed, by its status when it is checked. -/
def previewed : ArtifactStatus → ArtifactStatus
  | .drift => .wouldWrite
  | status => status

/-- Checking a file and previewing it come to the same, but for the name of what is out of date. -/
theorem related_verify_preview [Interpreter] (path : Path) (content : String) :
    Related Host.Alike
      (fun made made' => (made.1 = .unchanged ∨ made.1 = .drift) ∧
        made' = (previewed made.1, made.2))
      (write path content .verify) (write path content .preview) := by
  rintro host _ ⟨printed, rfl⟩
  have halike : host.Alike { host with printed := printed } := ⟨printed, rfl⟩
  rw [write_apply, write_apply]
  show Matched _ _ _ (match host.tree.currentText host.workingDirectory path with
    | .error error => .error error { host with printed := printed }
    | .ok before => _)
  cases host.tree.currentText host.workingDirectory path with
  | error error => exact .error halike
  | ok before =>
      by_cases hsame : before = content
      · simp only [if_pos hsame]
        exact .ok ⟨.inl rfl, rfl⟩ halike
      · simp only [if_neg hsame]
        exact .ok ⟨.inr rfl, rfl⟩ halike

/-! ### What is left of a file that is brought up to date -/

/-- What the file where a path leads holds when a text was to be written to it. -/
inductive Holds (host : Host) (path : Path) (text : String) : ArtifactStatus → Prop
  /-- The file holds the text already, up to the ends of lines. -/
  | unchanged {content : ByteArray} (read : host.readBytes path = .ok content)
      (same : decodeText content = .ok text) : Holds host path text .unchanged
  /-- The file holds the text, byte by byte. -/
  | updated (read : host.readBytes path = .ok (Utf8.encode text)) : Holds host path text .updated

/-- What becomes of the files when a file is brought up to date. -/
inductive BroughtUp (host : Host) (path : Path) (text : String) :
    EStateM.Result Error Host (ArtifactStatus × String) → Prop
  | done {status : ArtifactStatus} {difference : String} {after : Host}
      (holds : Holds after path text status) (closed : after.tree.Closed) :
      BroughtUp host path text (.ok (status, difference) after)
  /-- No file has changed. Directories were added only in front of a name that is too long. -/
  | refused {error : Error} {places : List Location} {after : Host}
      (paved : FileTree.Paved host.tree path.parent.parts places after.tree)
      (reason : places ≠ [] → ∃ part ∈ path.parts, FileTree.nameLimit < part.utf8ByteSize) :
      BroughtUp host path text (.error error after)

/-- A text that is not empty was read from a file. -/
theorem read_of_currentText {tree : FileTree} {workingDirectory : Location} {path : Path}
    {text : String} (h : tree.currentText workingDirectory path = .ok text) (htext : text ≠ "") :
    ∃ content, tree.read workingDirectory path = .ok content ∧ decodeText content = .ok text := by
  unfold FileTree.currentText at h
  split at h
  · cases h
  · cases h
    exact absurd rfl htext
  · split at h
    · rename_i content hread
      exact ⟨content, hread, mapError_eq_ok_iff.mp h⟩
    · cases h
    · cases h

/-- A file that can be read is there. -/
theorem pathExists_of_read {tree : FileTree} {workingDirectory : Location} {path : Path}
    {content : ByteArray} (h : tree.read workingDirectory path = .ok content) :
    tree.pathExists workingDirectory path = .ok true := by
  rw [FileTree.read] at h
  rw [FileTree.pathExists]
  split at h
  · rename_i hlocate
    rw [hlocate]
  · cases h
  · cases h

/-- What is read from a file is its current text. -/
theorem currentText_of_read {tree : FileTree} {workingDirectory : Location} {path : Path}
    {content : ByteArray} {text : String} (hread : tree.read workingDirectory path = .ok content)
    (hdecode : decodeText content = .ok text) :
    tree.currentText workingDirectory path = .ok text := by
  rw [FileTree.currentText, pathExists_of_read hread, hread]
  exact mapError_eq_ok_iff.mpr hdecode

/-- The file was looked for, so its path is not too long. -/
theorem admitted_of_currentText {tree : FileTree} {workingDirectory : Location} {path : Path}
    {text : String} (h : tree.currentText workingDirectory path = .ok text)
    (hpath : path.IsResolved) : FileTree.Admitted path where
  toIsResolved := hpath
  fits := by
    refine Decidable.byContradiction fun hlong => ?_
    have hexists : tree.pathExists workingDirectory path = .error (.tooLong path.text) := by
      rw [FileTree.pathExists, FileTree.locate, hpath.usable, if_neg (by simp),
        if_pos (Nat.lt_of_not_le hlong)]
      rfl
    rw [FileTree.currentText, hexists] at h
    cases h

/-- Bringing a file up to date leaves its text in it, or no file changed. -/
theorem broughtUp_write [Interpreter] {host : Host} (hclosed : host.tree.Closed) {path : Path}
    (hpath : path.IsResolved) {text : String} (htext : text ≠ "") :
    BroughtUp host path text (write path text .apply host) := by
  have hnothing := FileTree.Paved.nothing hclosed path.parent.parts
  rw [write_apply]
  cases hcurrent : host.tree.currentText host.workingDirectory path with
  | error error => exact .refused hnothing fun h => absurd rfl h
  | ok before =>
      by_cases hsame : before = text
      · -- The text is not empty, so it is that of a file and not of a missing one.
        subst hsame
        obtain ⟨content, hread, hdecode⟩ := read_of_currentText hcurrent htext
        simp only [if_true]
        exact .done (.unchanged hread hdecode) hclosed
      · simp only [if_neg hsame, if_true]
        have hwritten := FileTree.written_write host.workingDirectory hclosed
          (admitted_of_currentText hcurrent hpath) (Utf8.encode text)
        generalize FileTree.write host.workingDirectory path (Utf8.encode text) host.tree = result
          at hwritten ⊢
        cases hwritten with
        | done paved closed holds => exact .done (.updated (holds _)) closed
        | stopped paved reason => exact .refused paved reason

/-- Bringing a file up to date leaves every other file as it was. -/
theorem read_of_write [Interpreter] {host after : Host} {path other : Path} {text : String}
    {made : ArtifactStatus × String} {kept : ByteArray}
    (h : write path text .apply host = .ok made after) (hclosed : host.tree.Closed)
    (hpath : path.IsResolved) (hother : FileTree.Admitted other) (hne : other ≠ path)
    (hread : host.readBytes other = .ok kept) : after.readBytes other = .ok kept := by
  rw [write_apply] at h
  cases hcurrent : host.tree.currentText host.workingDirectory path with
  | error error => rw [hcurrent] at h; cases h
  | ok before =>
      rw [hcurrent] at h
      simp only [if_true] at h
      split at h
      · cases h
        exact hread
      · have hadmitted := admitted_of_currentText hcurrent hpath
        have hwritten := FileTree.written_write host.workingDirectory hclosed hadmitted
          (Utf8.encode text)
        generalize FileTree.write host.workingDirectory path (Utf8.encode text) host.tree = result
          at hwritten h
        cases result with
        | error fault tree => cases h
        | ok value tree =>
            cases h
            exact hwritten.read_of_ne hclosed hadmitted hother hne hread

/-- Bringing a file up to date changes nothing but files. -/
theorem keeps_withoutFiles_write [Interpreter] (path : Path) (text : String) (mode : WriteMode) :
    Keeps Host.withoutFiles (write path text mode) := by
  intro host
  rw [write_apply]
  cases host.tree.currentText host.workingDirectory path with
  | error error => rfl
  | ok before =>
      by_cases hsame : before = text
      · simp only [if_pos hsame]
        rfl
      · by_cases hmode : mode = .apply
        · simp only [if_neg hsame, if_pos hmode]
          cases FileTree.write host.workingDirectory path (Utf8.encode text) host.tree <;> rfl
        · simp only [if_neg hsame, if_neg hmode]
          rfl

/-- The processes to come are the same when a file was brought up to date, and the directory is. -/
theorem rest_of_write [Interpreter] {host after : Host} {path : Path} {text : String}
    {mode : WriteMode} {made : ArtifactStatus × String}
    (h : write path text mode host = .ok made after) :
    after.answers = host.answers ∧ after.workingDirectory = host.workingDirectory := by
  have hkept := (keeps_withoutFiles_write path text mode).of_ok h
  have hanswers := congrArg Host.answers hkept
  have hdirectory := congrArg Host.workingDirectory hkept
  exact ⟨hanswers, hdirectory⟩

/-! ### Two hosts with the same files -/

/-- Hosts with the same files, seen from the same working directory. -/
def SameFiles (host other : Host) : Prop :=
  host.tree = other.tree ∧ host.workingDirectory = other.workingDirectory

/-- What comes of writing a file is the same on hosts with the same files. -/
theorem related_write [Interpreter] (path : Path) (content : String) (mode : WriteMode) :
    Related SameFiles Eq (write path content mode) (write path content mode) := by
  rintro host other ⟨htree, hdirectory⟩
  have hsame : SameFiles host other := ⟨htree, hdirectory⟩
  rw [write_apply, write_apply, ← htree, ← hdirectory]
  cases host.tree.currentText host.workingDirectory path with
  | error error => exact .error hsame
  | ok before =>
      by_cases hcontent : before = content
      · simp only [if_pos hcontent]
        exact .ok rfl hsame
      · simp only [if_neg hcontent]
        by_cases hmode : mode = .apply
        · simp only [if_pos hmode]
          cases FileTree.write host.workingDirectory path (Utf8.encode content) host.tree with
          | ok value tree => exact .ok rfl ⟨rfl, rfl⟩
          | error fault tree => exact .error ⟨rfl, rfl⟩
        · simp only [if_neg hmode]
          exact .ok rfl hsame

end Artifact

end HeaderBind
