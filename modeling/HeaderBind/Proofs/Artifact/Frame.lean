import HeaderBind.Proofs.Compiler
import HeaderBind.Proofs.FileTree.Lookup
import HeaderBind.Proofs.Artifact
import HeaderBind.Proofs.Text.CodeText

/-!
# `HeaderBind.Proofs.Artifact.Frame`: what bringing a file up to date touches

There are three ends to it, and what lies at the place of the file and in front of it decides which
one. The file is left alone exactly when what lies there shows the text (`Shows`). It is refused
exactly when something is in the way or more directories are missing than there is room to make
(`Obstructed`). Otherwise it is written, and then it holds the text, directories lead to it, and
every other place is as it was (`Updated`). A text that cannot be encoded is always refused.

A refusal leaves everything as it was, but for two cases. On the way to a name that is too long
directories may have been made, if nothing was there (`Strayed`). And a file that was opened for a
text that cannot be encoded is left empty. `writeCode_framed` is all of this.
`directory_left_strayPath` has both exceptions.
-/

set_option autoImplicit false

namespace HeaderBind.Artifact

/-- What lies at the place of a path shows a text: a file does that holds it, up to the ends of
lines, and nothing shows the empty text. -/
inductive Shows (tree : FileTree) (path : Path) (text : String) : Prop
  | file {held : ByteArray} (there : tree.node? path.parts = some (.file held))
      (decoded : decodeText held = .ok text) : Shows tree path text
  | nothing (free : tree.node? path.parts = none) (empty : text = "") : Shows tree path text

/-- Why a file cannot be brought up to date. -/
inductive Obstructed [Interpreter] (tree : FileTree) (path : Path) (content : String) : Prop
  /-- The path is too long to be looked up. -/
  | long (tooLong : tree.TooLong path) : Obstructed tree path content
  | directory (there : tree.node? path.parts = some .directory) : Obstructed tree path content
  /-- The bytes of the file are no text. -/
  | bytes {held : ByteArray} {fault : Utf8.Fault}
      (there : tree.node? path.parts = some (.file held))
      (refused : decodeText held = .error fault) : Obstructed tree path content
  /-- There is something to write, and a file is in front of the place. -/
  | file {place : Location} {held : ByteArray} (inFront : place <+: path.parts)
      (other : place ≠ path.parts) (there : tree.node? place = some (.file held))
      (changed : content ≠ "") : Obstructed tree path content
  /-- There is something to write where nothing is, and a name is too long. -/
  | name {part : String} (mem : part ∈ path.parts) (long : FileTree.nameLimit < part.utf8ByteSize)
      (free : tree.node? path.parts = none) (changed : content ≠ "") : Obstructed tree path content
  /-- There is something to write, and more directories are missing in front of the place than there
  is room to make. -/
  | room (nested : tree.TooNested Interpreter.makeRoom path.parent.parts) (changed : content ≠ "") :
      Obstructed tree path content

/-- A host on which a file was written, and nothing else changed but directories that were missing
in front of it. -/
structure Updated (host : Host) (path : Path) (content : String) (after : Host) : Prop where
  rest : after = { host with tree := after.tree }
  node : ∀ place, after.tree.node? place
    = if place = path.parts then some (.file (Utf8.encode content))
      else if place <+: path.parts then some .directory else host.tree.node? place
  front : ∀ place, place <+: path.parts → place ≠ path.parts →
    host.tree.node? place = some .directory ∨ host.tree.node? place = none

/-- A host on which directories were made in front of a file that was not: the name of one of them,
or that of the file, is too long. -/
structure Strayed (host : Host) (path : Path) (places : List Location) (after : Host) : Prop where
  made : after = { host with tree := host.tree.withDirectories places }
  missing : ∀ place ∈ places, host.tree.node? place = none
  inFront : ∀ place ∈ places, place <+: path.parts ∧ place ≠ path.parts
  free : host.tree.node? path.parts = none
  clear : ∀ place held, place <+: path.parts → host.tree.node? place ≠ some (.file held)
  long : ∃ part ∈ path.parts, FileTree.nameLimit < part.utf8ByteSize

namespace Shows

variable {tree : FileTree} {path : Path} {text : String} (h : Shows tree path text)
include h

theorem ne_directory : tree.node? path.parts ≠ some .directory := by
  cases h with
  | file there decoded => simp [there]
  | nothing free empty => simp [free]

theorem of_file {held : ByteArray} (hnode : tree.node? path.parts = some (.file held)) :
    decodeText held = .ok text := by
  cases h with
  | file there decoded =>
      rw [there] at hnode
      cases hnode
      exact decoded
  | nothing free empty =>
      rw [free] at hnode
      cases hnode

theorem of_none (hnode : tree.node? path.parts = none) : text = "" := by
  cases h with
  | file there decoded =>
      rw [there] at hnode
      cases hnode
  | nothing free empty => exact empty

end Shows

section

variable {tree : FileTree} (hclosed : tree.Closed) {path : Path} (hpath : path.IsResolved)
  {workingDirectory : Location}
include hclosed hpath

/-! ### Reading -/

/-- A text is read exactly when what lies there shows it. -/
theorem currentText_eq_ok_iff {text : String} :
    tree.currentText workingDirectory path = .ok text
      ↔ ¬ tree.TooLong path ∧ Shows tree path text := by
  by_cases hlong : tree.TooLong path
  · have hlocate : tree.locate workingDirectory path = .error .tooLong :=
      FileTree.locate_of_tooLong hclosed hpath hlong
    refine iff_of_false (fun h => ?_) fun h => h.1 hlong
    rw [FileTree.currentText, FileTree.pathExists, hlocate] at h
    cases h
  cases hnode : tree.node? path.parts with
  | none =>
      have hcurrent : tree.currentText workingDirectory path = .ok "" := by
        rcases FileTree.locate_of_none hpath hlong hnode with hlocate | hlocate <;>
          rw [FileTree.currentText, FileTree.pathExists, hlocate]
      rw [hcurrent]
      constructor
      · intro h
        cases h
        exact ⟨hlong, .nothing hnode rfl⟩
      · rintro ⟨-, hshown⟩
        rw [hshown.of_none hnode]
  | some node =>
      have hlocate : tree.locate workingDirectory path = .ok (path.parts, node) :=
        FileTree.locate_of_node hclosed hpath hlong hnode
      rw [FileTree.currentText, FileTree.pathExists, FileTree.read, hlocate]
      cases node with
      | directory =>
          refine iff_of_false (fun h => ?_) fun h => h.2.ne_directory hnode
          cases h
      | file held =>
          exact mapError_eq_ok_iff.trans
            ⟨fun h => ⟨hlong, .file hnode h⟩, fun h => h.2.of_file hnode⟩

/-- What cannot be read is in the way, whatever is to be written. -/
theorem obstructed_of_currentText [Interpreter] {error : Error}
    (h : tree.currentText workingDirectory path = .error error) (content : String) :
    Obstructed tree path content := by
  have hread : ∀ text, ¬ (¬ tree.TooLong path ∧ Shows tree path text) := by
    intro text hshown
    rw [(currentText_eq_ok_iff hclosed hpath).mpr hshown] at h
    cases h
  by_cases hlong : tree.TooLong path
  · exact .long hlong
  cases hnode : tree.node? path.parts with
  | none => exact absurd ⟨hlong, .nothing hnode rfl⟩ (hread "")
  | some node =>
      cases node with
      | directory => exact .directory hnode
      | file held =>
          cases hdecode : decodeText held with
          | error fault => exact .bytes hnode hdecode
          | ok text => exact absurd ⟨hlong, .file hnode hdecode⟩ (hread text)

/-! ### Writing -/

variable {before content : String} (hshort : ¬ tree.TooLong path) (hshown : Shows tree path before)
  (hchanged : before ≠ content)
include hshort hshown hchanged

/-- What keeps a text from being written is in the way, or it is the room. -/
theorem obstructed_of_write [Interpreter] {fault : FileTree.Fault} {after : FileTree}
    (h : FileTree.write workingDirectory path (Utf8.encode content) tree = .error fault after) :
    Obstructed tree path content := by
  have hfront : ∀ {place : Location}, place <+: path.parent.parts → place <+: path.parts :=
    fun hplace => hplace.trans (List.dropLast_prefix _)
  have hbarred := FileTree.barred_of_write hclosed (FileTree.admitted_of_not_tooLong hpath hshort) h
  cases hshown with
  | nothing free empty =>
      have hcontent : content ≠ "" := fun hnone => hchanged (empty.trans hnone.symm)
      rcases hbarred with ((⟨mem, long⟩ | ⟨onTheWay, there⟩) | nested) | ⟨part, mem, long⟩ | there
      · exact .name ((List.dropLast_subset _) mem) long free hcontent
      · refine .file (hfront onTheWay) ?_ there hcontent
        rintro rfl
        rw [free] at there
        cases there
      · exact .room nested hcontent
      · exact .name mem long free hcontent
      · exact .directory there
  | file there decoded =>
      -- Everything in front of a file is a directory, and no name on the way to it is too long.
      have hnames := FileTree.utf8ByteSize_le_of_node hclosed hshort there
      rcases hbarred with ((⟨mem, long⟩ | ⟨onTheWay, inFront⟩) | nested) | ⟨part, mem, long⟩ |
        hdirectory
      · exact absurd long (Nat.not_lt_of_le (hnames _ ((List.dropLast_subset _) mem)))
      · rw [hclosed.directory_of_prefix_dropLast there onTheWay] at inFront
        cases inFront
      · rw [nested.node?_eq_none hclosed (List.dropLast_prefix _)] at there
        cases there
      · exact absurd long (Nat.not_lt_of_le (hnames _ mem))
      · exact .directory hdirectory

end

/-! ### The three ends -/

section

variable {tree : FileTree} {path : Path} {content : String} (hshort : ¬ tree.TooLong path)
include hshort

/-- Nothing is in the way of a text that is there. -/
theorem Shows.not_obstructed [Interpreter] (hclosed : tree.Closed)
    (hshown : Shows tree path content) : ¬ Obstructed tree path content := by
  rintro (hlong | there | ⟨there, refused⟩ | ⟨inFront, other, there, changed⟩ |
    ⟨-, -, free, changed⟩ | ⟨nested, changed⟩)
  · exact hshort hlong
  · exact hshown.ne_directory there
  · rw [hshown.of_file there] at refused
    cases refused
  · -- A text that is not empty is that of a file, and a file is in front of no other one.
    cases hshown with
    | nothing free empty => exact changed empty
    | @file held atEnd decoded =>
        obtain ⟨back, hback⟩ := inFront
        have hdirectory := hclosed.directory_of_node (by rwa [hback])
          fun hnil => other (by rw [← hback, hnil, List.append_nil])
        rw [hdirectory] at there
        cases there
  · exact changed (hshown.of_none free)
  · exact changed (hshown.of_none (nested.node?_eq_none hclosed (List.dropLast_prefix _)))

/-- Nothing was in the way of a file that was written where a text could be read. -/
theorem not_obstructed_of_written [Interpreter] {before : String} {after : FileTree}
    (hpath : path.IsResolved) (hshown : Shows tree path before)
    (h : FileTree.Written tree Interpreter.makeRoom path (Utf8.encode content) (.ok () after)) :
    ¬ Obstructed tree path content := by
  have hadmitted := FileTree.admitted_of_not_tooLong hpath hshort
  rintro (hlong | there | ⟨there, refused⟩ | ⟨inFront, other, there, -⟩ | ⟨mem, long, -, -⟩ |
    ⟨nested, -⟩)
  · exact hshort hlong
  · exact hshown.ne_directory there
  · rw [hshown.of_file there] at refused
    cases refused
  · rcases h.front_before hadmitted inFront other with hbefore | hbefore <;>
      · rw [hbefore] at there
        cases there
  · exact absurd long (Nat.not_lt_of_le (h.short hadmitted _ mem))
  · exact h.not_tooNested nested

end

/-- A file that was written is the only thing that is new, apart from directories in front of it. -/
theorem updated_of_written {host : Host} {room : Nat} {path : Path} {content : String}
    {after : FileTree} (hpath : FileTree.Admitted path)
    (h : FileTree.Written host.tree room path (Utf8.encode content) (.ok () after)) :
    Updated host path content { host with tree := after } where
  rest := rfl
  node := h.node?_eq hpath
  front := fun _ hfront hne => h.front_before hpath hfront hne

/-- Directories that are left behind are the only thing that is new. -/
theorem strayed_of_paved {host : Host} (hclosed : host.tree.Closed) {path : Path}
    {places : List Location} {after : FileTree}
    (hpaved : FileTree.Paved host.tree path.parent.parts places after) (hplaces : places ≠ [])
    (hlong : ∃ part ∈ path.parts, FileTree.nameLimit < part.utf8ByteSize) :
    Strayed host path places { host with tree := after } := by
  have hway : path.parent.parts <+: path.parts := List.dropLast_prefix _
  obtain ⟨made, hmade⟩ := List.exists_mem_of_ne_nil places hplaces
  have hmissing := hpaved.missing made hmade
  have hfree : host.tree.node? path.parts = none :=
    hclosed.node?_eq_none_of_prefix hmissing ((hpaved.onTheWay made hmade).trans hway)
  refine ⟨by rw [hpaved.added], hpaved.missing, fun place hplace => ⟨?_, ?_⟩, hfree,
    fun place held hfront => hpaved.ne_file hclosed hmade hway hfront held, hlong⟩
  · exact (hpaved.onTheWay place hplace).trans hway
  · -- Only the root is not in front of itself, and it is never missing.
    rintro rfl
    have hlength := (hpaved.onTheWay _ hplace).length_le
    rw [Path.parent, List.length_dropLast] at hlength
    have hroot : path.parts = [] := List.length_eq_zero_iff.mp (by omega)
    rw [hroot] at hfree
    cases hfree

/-- A refusal leaves everything as it was, or directories behind. -/
theorem kept_or_strayed_of_write [Interpreter] {host : Host} (hclosed : host.tree.Closed)
    {path : Path} (hpath : FileTree.Admitted path) {content : ByteArray} {fault : FileTree.Fault}
    {after : FileTree}
    (h : FileTree.write host.workingDirectory path content host.tree = .error fault after) :
    { host with tree := after } = host ∨
      ∃ places, Strayed host path places { host with tree := after } := by
  have hstopped := FileTree.written_write host.workingDirectory hclosed hpath content
  rw [h] at hstopped
  cases hstopped with
  | @stopped _ places _ paved reason =>
      by_cases hplaces : places = []
      · left
        rw [paved.added, hplaces, FileTree.withDirectories_nil]
      · exact .inr ⟨places, strayed_of_paved hclosed paved hplaces (reason hplaces)⟩

/-- The three ends, each with what lies in the tree then. -/
inductive Ended [Interpreter] (host : Host) (path : Path) (content : String) :
    EStateM.Result Error Host (ArtifactStatus × String) → Prop
  | unchanged (short : ¬ host.tree.TooLong path) (shows : Shows host.tree path content) :
      Ended host path content (.ok (.unchanged, "") host)
  | updated {shown : String} {after : Host} (clear : ¬ Obstructed host.tree path content)
      (changed : ¬ Shows host.tree path content) (updated : Updated host path content after) :
      Ended host path content (.ok (.updated, shown) after)
  | refused {error : Error} {after : Host} (reason : Obstructed host.tree path content)
      (left : after = host ∨ ∃ places, Strayed host path places after) :
      Ended host path content (.error error after)

theorem ended_write [Interpreter] {host : Host} (hclosed : host.tree.Closed) {path : Path}
    (hpath : path.IsResolved) (content : String) :
    Ended host path content (write path content .apply host) := by
  rw [write_apply]
  cases hcurrent : host.tree.currentText host.workingDirectory path with
  | error error =>
      exact .refused (obstructed_of_currentText hclosed hpath hcurrent content) (.inl rfl)
  | ok before =>
      obtain ⟨hshort, hbefore⟩ := (currentText_eq_ok_iff hclosed hpath).mp hcurrent
      by_cases hsame : before = content
      · subst hsame
        simp only [if_true]
        exact .unchanged hshort hbefore
      · have hadmitted := FileTree.admitted_of_not_tooLong hpath hshort
        have hnot : ¬ Shows host.tree path content := by
          -- What lies there shows one text only.
          intro hshown
          have hread : host.tree.currentText host.workingDirectory path = .ok content :=
            (currentText_eq_ok_iff hclosed hpath).mpr ⟨hshort, hshown⟩
          rw [hcurrent] at hread
          exact hsame (Except.ok.inj hread)
        have hwritten := FileTree.written_write host.workingDirectory hclosed hadmitted
          (Utf8.encode content)
        simp only [if_neg hsame, if_true]
        cases hwrite : FileTree.write host.workingDirectory path (Utf8.encode content)
            host.tree with
        | ok value tree =>
            rw [hwrite] at hwritten
            exact .updated (not_obstructed_of_written hshort hpath hbefore hwritten) hnot
              (updated_of_written hadmitted hwritten)
        | error fault tree =>
            exact .refused (obstructed_of_write hclosed hpath hshort hbefore hsame hwrite)
              (kept_or_strayed_of_write hclosed hadmitted hwrite)

namespace Ended

variable [Interpreter] {host : Host} {path : Path} {content : String}
  {result : EStateM.Result Error Host (ArtifactStatus × String)}
  (h : Ended host path content result)
include h

theorem unchanged_iff (hclosed : host.tree.Closed) {shown : String} {after : Host} :
    result = .ok (.unchanged, shown) after ↔
      ¬ host.tree.TooLong path ∧ Shows host.tree path content ∧ shown = "" ∧ after = host := by
  cases h with
  | unchanged short shows =>
      constructor
      · intro hresult
        cases hresult
        exact ⟨short, shows, rfl, rfl⟩
      · rintro ⟨-, -, rfl, rfl⟩
        rfl
  | updated clear changed updated =>
      refine iff_of_false (fun hresult => ?_) fun hleft => changed hleft.2.1
      cases hresult
  | refused reason left =>
      refine iff_of_false (fun hresult => ?_) fun hleft => ?_
      · cases hresult
      · exact hleft.2.1.not_obstructed hleft.1 hclosed reason

theorem updated_of_ok {status : ArtifactStatus} {shown : String} {after : Host}
    (hresult : result = .ok (status, shown) after) :
    status = .unchanged ∨ status = .updated ∧ Updated host path content after := by
  cases h with
  | unchanged short shows =>
      cases hresult
      exact .inl rfl
  | updated clear changed updated =>
      cases hresult
      exact .inr ⟨rfl, updated⟩
  | refused reason left => cases hresult

theorem error_iff (hclosed : host.tree.Closed) :
    (∃ error after, result = .error error after) ↔ Obstructed host.tree path content := by
  cases h with
  | unchanged short shows =>
      refine iff_of_false ?_ (shows.not_obstructed short hclosed)
      rintro ⟨error, after, hresult⟩
      cases hresult
  | updated clear changed updated =>
      refine iff_of_false ?_ clear
      rintro ⟨error, after, hresult⟩
      cases hresult
  | refused reason left => exact iff_of_true ⟨_, _, rfl⟩ reason

theorem kept_or_strayed_of_error {error : Error} {after : Host}
    (hresult : result = .error error after) :
    after = host ∨ ∃ places, Strayed host path places after := by
  cases h with
  | unchanged short shows => cases hresult
  | updated clear changed updated => cases hresult
  | refused reason left =>
      cases hresult
      exact left

end Ended

/-! ### Texts that cannot be encoded -/

/-- For a string, its code points do what the string does. -/
theorem writeCode_ofString [Interpreter] (path : Path) (text : String) (host : Host) :
    writeCode path (.ofString text) host = write path text .apply host := by
  have hwritten : Action.writeCode path (.ofString text) = (do
      Action.writeText path text
      pure text : Action String) := by
    rw [Action.writeCode, CodeText.asString_ofString]
  rw [writeCode, write, Effect.bind_apply, Effect.bind_apply, current_apply]
  cases host.tree.currentText host.workingDirectory path with
  | error error => rfl
  | ok before =>
      by_cases hsame : before = text
      · subst hsame
        simp only [if_true]
      · have hcode : ¬ CodeText.ofString before = .ofString text :=
          fun h => hsame (CodeText.ofString_injective h)
        simp only [if_neg hsame, if_neg hcode, if_true, hwritten, Effect.bind_apply]
        cases Action.writeText path text host <;> rfl

/-- A text that cannot be encoded is refused. Either it is not even tried, or the file is opened
first: then a refusal leaves what it leaves for any text, and otherwise the file is empty. -/
theorem refused_writeCode [Interpreter] {host : Host} (hclosed : host.tree.Closed) {path : Path}
    (hpath : path.IsResolved) {content : CodeText} {fault : CodeText.Fault}
    (hfault : content.asString = .error fault) :
    ∃ error after, writeCode path content host = .error error after ∧
      (after = host ∨ (∃ places, Strayed host path places after) ∨ Updated host path "" after) := by
  have hopened : Action.writeCode path content = (do
      Action.writeText path ""
      throw (.unencodable fault) : Action String) := by
    rw [Action.writeCode, hfault]
  rw [writeCode, Effect.bind_apply, current_apply]
  cases hcurrent : host.tree.currentText host.workingDirectory path with
  | error error => exact ⟨error, host, rfl, .inl rfl⟩
  | ok before =>
      have hadmitted := admitted_of_currentText hcurrent hpath
      have hcode : ¬ CodeText.ofString before = content := by
        rintro rfl
        rw [CodeText.asString_ofString] at hfault
        cases hfault
      have hwritten := FileTree.written_write host.workingDirectory hclosed hadmitted
        (Utf8.encode "")
      simp only [if_neg hcode, hopened, Effect.bind_apply, writeText_apply]
      cases hwrite : FileTree.write host.workingDirectory path (Utf8.encode "") host.tree with
      | ok value tree =>
          rw [hwrite] at hwritten
          exact ⟨_, _, rfl, .inr (.inr (updated_of_written hadmitted hwritten))⟩
      | error stopped tree =>
          refine ⟨_, _, rfl, ?_⟩
          exact (kept_or_strayed_of_write hclosed hadmitted hwrite).imp_right .inl

/-- A text is that of a string, and then it comes to what the string does, or it is refused. -/
theorem writeCode_cases [Interpreter] {host : Host} (hclosed : host.tree.Closed) {path : Path}
    (hpath : path.IsResolved) (content : CodeText) :
    (∃ text, content = .ofString text ∧ Ended host path text (writeCode path content host)) ∨
      (∀ text, content ≠ .ofString text) ∧
        ∃ error after, writeCode path content host = .error error after ∧
          (after = host ∨ (∃ places, Strayed host path places after) ∨
            Updated host path "" after) := by
  cases hstring : content.asString with
  | ok text =>
      obtain rfl : content = .ofString text := CodeText.asString_eq_ok_iff.mp hstring
      refine .inl ⟨text, rfl, ?_⟩
      rw [writeCode_ofString]
      exact ended_write hclosed hpath text
  | error fault =>
      refine .inr ⟨?_, refused_writeCode hclosed hpath hstring⟩
      rintro text rfl
      rw [CodeText.asString_ofString] at hstring
      cases hstring

/-- What comes of bringing a file up to date with any text. It is left alone exactly when what lies
at its place shows the text and can be looked up; it is refused exactly when the text cannot be
encoded, something is in the way, or there is no room for the directories; in all other cases it is
written, with the directories that are missing in front of it. Where it is refused, all is as it
was, unless nothing was there and directories were made in front of a name that is too long, or the
text cannot be encoded and the file was opened for it. -/
theorem writeCode_framed [Interpreter] {host : Host} (hclosed : host.tree.Closed) {path : Path}
    (hpath : path.IsResolved) (content : CodeText) :
    (∀ shown after, writeCode path content host = .ok (.unchanged, shown) after ↔
      ∃ text, content = .ofString text ∧
        ¬ host.tree.TooLong path ∧ Shows host.tree path text ∧ shown = "" ∧ after = host) ∧
    (∀ status shown after, writeCode path content host = .ok (status, shown) after →
      status = .unchanged ∨
        status = .updated ∧ ∃ text, content = .ofString text ∧ Updated host path text after) ∧
    ((∃ error after, writeCode path content host = .error error after) ↔
      (∀ text, content ≠ .ofString text) ∨
        ∃ text, content = .ofString text ∧ Obstructed host.tree path text) ∧
    (∀ error after, writeCode path content host = .error error after →
      after = host ∨ (∃ places, Strayed host path places after) ∨
        (∀ text, content ≠ .ofString text) ∧ Updated host path "" after) := by
  rcases writeCode_cases hclosed hpath content with
    ⟨text, rfl, hended⟩ | ⟨hnone, refusal, left, hrefused, hleft⟩
  · -- The text is that of one string only.
    have honly : ∀ {p : String → Prop},
        (∃ other, CodeText.ofString text = .ofString other ∧ p other) ↔ p text := by
      intro p
      constructor
      · rintro ⟨other, hother, hp⟩
        rwa [CodeText.ofString_injective hother]
      · exact fun hp => ⟨text, rfl, hp⟩
    refine ⟨fun shown after => ?_, fun status shown after hresult => ?_, ?_,
      fun error after hresult => ?_⟩
    · rw [honly]
      exact hended.unchanged_iff hclosed
    · exact (hended.updated_of_ok hresult).imp_right fun h => ⟨h.1, honly.mpr h.2⟩
    · rw [hended.error_iff hclosed, honly]
      exact ⟨.inr, fun h => h.resolve_left fun hnone => hnone text rfl⟩
    · exact (hended.kept_or_strayed_of_error hresult).imp_right .inl
  · rw [hrefused]
    refine ⟨fun shown after => iff_of_false (fun h => ?_) fun h => ?_,
      fun status shown after hresult => ?_, iff_of_true ⟨_, _, rfl⟩ (.inl hnone),
      fun error after hresult => ?_⟩
    · cases h
    · obtain ⟨text, htext, -⟩ := h
      exact hnone text htext
    · cases hresult
    · cases hresult
      exact hleft.imp_right fun h => h.imp_right fun hupdated => ⟨hnone, hupdated⟩

/-- A file is written into a directory that is not there yet. -/
theorem writeCode_framed_newDirectory :
    Compiler.bareHost.tree.Closed ∧ (⟨.root, ["new", "m.py"]⟩ : Path).IsResolved ∧
      ∃ shown after,
        writeCode ⟨.root, ["new", "m.py"]⟩ (.ofString "A = 1\n") Compiler.bareHost
            = .ok (.updated, shown) after ∧
          after.tree.node? ["new"] = some .directory ∧
          after.tree.node? ["new", "m.py"] = some (.file (Utf8.encode "A = 1\n")) ∧
          after.tree.node? ["other"] = none := by
  have hclosed : Compiler.bareHost.tree.Closed := by decide +kernel
  have hpath : (⟨.root, ["new", "m.py"]⟩ : Path).IsResolved := ⟨rfl, by decide, by decide⟩
  have hstatus : (match writeCode ⟨.root, ["new", "m.py"]⟩ (.ofString "A = 1\n")
        Compiler.bareHost with
      | .ok made _ => decide (made.1 = .updated)
      | .error _ _ => false) = true := by decide +kernel
  obtain ⟨-, hmade, -, -⟩ := writeCode_framed hclosed hpath (.ofString "A = 1\n")
  cases hwrite : writeCode ⟨.root, ["new", "m.py"]⟩ (.ofString "A = 1\n") Compiler.bareHost with
  | error error after =>
      rw [hwrite] at hstatus
      cases hstatus
  | ok made after =>
      obtain ⟨status, shown⟩ := made
      rw [hwrite] at hstatus
      obtain rfl : status = .updated := of_decide_eq_true hstatus
      rcases hmade _ shown after hwrite with hunchanged | ⟨-, text, htext, hupdated⟩
      · cases hunchanged
      · rw [← CodeText.ofString_injective htext] at hupdated
        refine ⟨hclosed, hpath, shown, after, rfl, ?_, ?_, ?_⟩ <;>
          rw [hupdated.node] <;> decide +kernel

/-- A path to a name that is too long, in a directory that is not there. -/
def strayPath : Path :=
  ⟨.root, ["new", Compiler.longLetters]⟩

theorem long_longLetters : FileTree.nameLimit < Compiler.longLetters.utf8ByteSize := by
  decide +kernel

theorem notMem_longLetters : '\x00' ∉ Compiler.longLetters.toList := by
  rw [Compiler.toList_longLetters]
  decide +kernel

theorem admitted_strayPath : FileTree.Admitted strayPath := by
  have hresolved : strayPath.IsResolved := by
    refine ⟨rfl, by decide +kernel, ?_⟩
    simp [strayPath, Path.isUsable, notMem_longLetters]
  have hsize : Compiler.longLetters.utf8ByteSize = 256 := by decide +kernel
  refine ⟨hresolved, ?_⟩
  rw [hresolved.text_eq, strayPath, String.intercalate_cons_cons, String.intercalate_singleton]
  simp only [String.utf8ByteSize_append, hsize]
  decide

/-- The path can be looked up: only its first component is looked up in a directory that is
there. -/
theorem not_tooLong_strayPath : ¬ Compiler.bareHost.tree.TooLong strayPath := by
  intro hlong
  cases hlong with
  | whole long => exact absurd long (Nat.not_lt_of_le admitted_strayPath.fits)
  | @component front back part split there long =>
      cases front with
      | nil =>
          cases split
          exact absurd long (by decide)
      | cons first front => cases there

/-- The directory is made, and then the name is found to be too long. -/
theorem write_strayPath (content : ByteArray) :
    ∃ fault, FileTree.write [] strayPath content ⟨[]⟩
      = .error fault ⟨[(["new"], .directory)]⟩ := by
  have hmade : FileTree.makeDirectories [] strayPath.parent ⟨[]⟩
      = .ok () ⟨[(["new"], .directory)]⟩ := rfl
  have hleads : FileTree.walk ⟨[(["new"], .directory)]⟩ [] ["new"]
      = .ok (["new"], .directory) := by decide
  have hadmitted : FileTree.Admitted ⟨.root, ["new"] ++ [Compiler.longLetters]⟩ :=
    admitted_strayPath
  have hrefused : FileTree.overwrite [] strayPath content ⟨[(["new"], .directory)]⟩ = _ :=
    FileTree.overwrite_concat hadmitted hleads content
  rw [if_pos long_longLetters] at hrefused
  rw [FileTree.write, Effect.bind_apply, hmade]
  exact ⟨_, hrefused⟩

/-- A text that is half of a pair. -/
def half : CodeText :=
  ⟨[0xd800], by decide⟩

/-- In front of a name that is too long a directory is made and left behind; such a name is refused
where there is nothing to be written at all; and a text that cannot be encoded leaves an empty file
behind. -/
theorem directory_left_strayPath :
    Compiler.bareHost.tree.Closed ∧ strayPath.IsResolved ∧
      (∃ error after,
        writeCode strayPath (.ofString "x\n") Compiler.bareHost = .error error after ∧
          after.tree.node? ["new"] = some .directory ∧
          Compiler.bareHost.tree.node? ["new"] = none) ∧
      Shows Compiler.bareHost.tree ⟨.root, [Compiler.longLetters]⟩ "" ∧
      (∃ error after,
        writeCode ⟨.root, [Compiler.longLetters]⟩ (.ofString "") Compiler.bareHost
          = .error error after) ∧
      ∃ error after,
        writeCode ⟨.root, ["m.py"]⟩ half Compiler.bareHost = .error error after ∧
          after.tree.node? ["m.py"] = some (.file (Utf8.encode "")) ∧
          Compiler.bareHost.tree.node? ["m.py"] = none := by
  have hclosed : Compiler.bareHost.tree.Closed := by decide
  have hpath := admitted_strayPath.toIsResolved
  have hname : (⟨.root, [Compiler.longLetters]⟩ : Path).IsResolved := by
    refine ⟨rfl, by decide +kernel, ?_⟩
    simp [Path.isUsable, notMem_longLetters]
  refine ⟨hclosed, hpath, ?_, .nothing (by decide +kernel) rfl, ?_, ?_⟩
  · obtain ⟨fault, hwrite⟩ := write_strayPath (Utf8.encode "x\n")
    have hcurrent : Compiler.bareHost.tree.currentText Compiler.bareHost.workingDirectory strayPath
        = .ok "" :=
      (currentText_eq_ok_iff hclosed hpath).mpr ⟨not_tooLong_strayPath, .nothing rfl rfl⟩
    refine ⟨.file fault, { Compiler.bareHost with tree := ⟨[(["new"], .directory)]⟩ }, ?_,
      by decide, by decide⟩
    have hchanged : ¬ "" = "x\n" := by decide
    have hstopped : FileTree.write Compiler.bareHost.workingDirectory strayPath
        (Utf8.encode "x\n") Compiler.bareHost.tree = _ := hwrite
    rw [writeCode_ofString, write_apply, hcurrent]
    simp only [if_neg hchanged, if_true, hstopped]
  · have hlong : Compiler.bareHost.tree.TooLong ⟨.root, [Compiler.longLetters]⟩ :=
      .component (List.nil_append _).symm rfl long_longLetters
    rw [writeCode_ofString]
    exact ((ended_write hclosed hname "").error_iff hclosed).mpr (.long hlong)
  · exact ⟨.unencodable ⟨0, 0xd800, 1⟩,
      { Compiler.bareHost with tree := ⟨[(["m.py"], .file (Utf8.encode ""))]⟩ }, by rfl,
      by decide, by decide⟩

end HeaderBind.Artifact
