import HeaderBind.Module.Text
import HeaderBind.Proofs.Text.Numeral

/-!
# `HeaderBind.Proofs.Module.Lines`: a module is the list of its lines

The text of a module is put together from parts, and the parts from lines, with two different
separators. `text_eq_intercalate` says that it is nothing but a list of lines in the end:
`titleLines`, which are about the name and the label alone, then the `body`, then `endLines`.

The name and the label are any texts, so they may have line feeds in them. The lines of the body
have none if the declared names have none (`oneLine_of_mem_body`). Two texts with the same name and
label are therefore equal only if their bodies are, line by line: `body_eq_of_text_eq`.
-/

set_option autoImplicit false

namespace HeaderBind

open HeaderBind.Text

theorem toString_text (s : String) : toString s = s := rfl

/-! ### Texts that lack a character -/

/-- Whether a character is nowhere in a text. -/
def Lacks (c : Char) (s : String) : Prop :=
  c ∉ s.toList

instance (c : Char) (s : String) : Decidable (Lacks c s) :=
  inferInstanceAs (Decidable (c ∉ s.toList))

/-- Whether `c` is a visible character of ASCII or the space. -/
def isInk (c : Char) : Bool :=
  c == ' ' || isVisible c

namespace Lacks

variable {c : Char}

@[simp] theorem append_iff {s t : String} : Lacks c (s ++ t) ↔ Lacks c s ∧ Lacks c t := by
  simp only [Lacks, String.toList_append, List.mem_append, not_or]

@[simp] theorem toString_iff {s : String} : Lacks c (toString s) ↔ Lacks c s := Iff.rfl

/-- What is written in ink lacks every other character. -/
theorem of_ink (hc : isInk c = false) {s : String} (h : s.toList.all isInk = true) :
    Lacks c s := by
  intro hmem
  rw [List.all_eq_true.mp h c hmem] at hc
  cases hc

theorem of_visible (hc : isInk c = false) {s : String} (h : Visible s.toList) : Lacks c s := by
  refine of_ink hc (List.all_eq_true.mpr fun d hd => ?_)
  rw [isInk, h d hd, Bool.or_true]

theorem of_isIdentifier (hc : isInk c = false) {s : String}
    (h : Name.isIdentifier s.toList = true) : Lacks c s :=
  of_visible hc (visible_of_isIdentifier h)

theorem int (hc : isInk c = false) (n : Int) : Lacks c n.repr := by
  rw [← Int.toString_eq_repr]
  exact of_visible hc (Numeral.visible_toString n)

theorem nat (hc : isInk c = false) (n : Nat) : Lacks c n.repr := by
  refine of_visible hc ?_
  rw [Nat.toList_repr]
  exact (Numeral.isDigits_toDigits n).visible

/-- Texts in a row lack what each of them lacks. -/
theorem join_iff {texts : List String} :
    Lacks c (String.join texts) ↔ ∀ text ∈ texts, Lacks c text := by
  simp [Lacks, String.toList_join]

/-- Joined texts lack what the texts and the separator lack. -/
theorem intercalate_iff {separator : String} {texts : List String} (h : Lacks c separator) :
    Lacks c (separator.intercalate texts) ↔ ∀ text ∈ texts, Lacks c text := by
  induction texts with
  | nil =>
      rw [String.intercalate_nil]
      exact ⟨fun _ text hmem => absurd hmem List.not_mem_nil, fun _ => List.not_mem_nil⟩
  | cons text texts ih =>
      cases texts with
      | nil => rw [String.intercalate_singleton, List.forall_mem_singleton]
      | cons other texts =>
          rw [String.intercalate_cons_cons, append_iff, append_iff, ih,
            List.forall_mem_cons (a := text)]
          exact and_congr_left fun _ => and_iff_left h

end Lacks

/-- Whether a text has no line feed in it. -/
def OneLine (s : String) : Prop :=
  '\n' ∉ s.toList

instance (s : String) : Decidable (OneLine s) :=
  inferInstanceAs (Decidable ('\n' ∉ s.toList))

theorem OneLine.of_isIdentifier {s : String} (h : Name.isIdentifier s.toList = true) :
    OneLine s :=
  Lacks.of_isIdentifier (by decide) h

/-- The texts of a declaration that a module shows. -/
def Declaration.shown : Declaration → List String
  | .constant c => [c.exposed]
  | .struct s => s.name :: s.base :: s.encoder :: s.decoder :: s.members

/-- The declared names are ASCII identifiers, and the name of a structure is on one line. -/
inductive Declaration.Plain : Declaration → Prop
  | constant {c : Constant} (exposed : Name.isIdentifier c.exposed.toList = true) :
      Plain (.constant c)
  | struct {s : Struct} (name : OneLine s.name) (base : Name.isIdentifier s.base.toList = true)
      (encoder : Name.isIdentifier s.encoder.toList = true)
      (decoder : Name.isIdentifier s.decoder.toList = true)
      (members : ∀ member ∈ s.members, Name.isIdentifier member.toList = true) : Plain (.struct s)

namespace Module

/-! ### The lines of a module -/

/-- The first lines, about the name and the label. -/
def titleLines (name label : String) : List String :=
  headerLines name label false

/-- The lines about what structures need. -/
def importLines (withStructs : Bool) : List String :=
  (headerLines "" "" withStructs).drop 3

/-- The lines of an export list with the empty ones in front of it. -/
def exportBlock (listName : String) (names : List String) : List String :=
  if names.isEmpty then [] else "" :: "" :: exportLines listName names

/-- The lines of entries with the empty ones between them. There are none between constants. -/
def blocks : (afterConstant : Bool) → List Entry → List String
  | _, [] => []
  | afterConstant, entry :: entries =>
    (if afterConstant && entry.isConstant then [] else ["", ""]) ++ entryLines entry ++
      blocks entry.isConstant entries

/-- The lines that the entries decide. -/
def body (entries : List Entry) : List String :=
  importLines (entries.any fun entry => !entry.isConstant) ++
    exportBlock exportList (exportedUnder .always entries) ++
    exportBlock requestList (exportedUnder .onRequest entries) ++ blocks false entries

/-- The last lines. -/
def endLines (name : String) : List String :=
  ["", "", lastLine name]

theorem headerLines_eq (name label : String) (withStructs : Bool) :
    headerLines name label withStructs = titleLines name label ++ importLines withStructs := by
  cases withStructs <;> rfl

theorem entryLines_ne_nil (entry : Entry) : entryLines entry ≠ [] := by
  cases entry <;> exact List.cons_ne_nil _ _

/-- Two empty lines in front of others. -/
theorem intercalate_blank {lines : List String} (h : lines ≠ []) :
    "\n".intercalate ("" :: "" :: lines) = "\n\n" ++ "\n".intercalate lines := by
  rw [String.intercalate_cons_cons, String.intercalate_cons_of_ne_nil h]
  rw [String.empty_append, ← String.append_assoc]
  rfl

/-- Parts with two empty lines between them are their lines with two empty ones between. -/
theorem intercalate_parts {first : List String} {rest : List (List String)} (hfirst : first ≠ [])
    (hrest : ∀ part ∈ rest, part ≠ []) :
    "\n\n\n".intercalate ((first :: rest).map ("\n".intercalate ·))
      = "\n".intercalate (first ++ rest.flatMap fun part => "" :: "" :: part) := by
  induction rest generalizing first with
  | nil => rw [List.map_singleton, String.intercalate_singleton, List.flatMap_nil, List.append_nil]
  | cons part rest ih =>
      have hpart := hrest part List.mem_cons_self
      have hparts := ih hpart fun other hother => hrest other (List.mem_cons_of_mem part hother)
      have hlines : part ++ rest.flatMap (fun part => "" :: "" :: part) ≠ [] :=
        List.append_ne_nil_of_left_ne_nil hpart _
      have hbreaks : ("\n\n\n" : String) = "\n" ++ "\n\n" := rfl
      rw [List.map_cons, List.map_cons, String.intercalate_cons_cons, ← List.map_cons, hparts,
        List.flatMap_cons, List.cons_append, List.cons_append,
        String.intercalate_append_of_ne_nil hfirst (List.cons_ne_nil _ _),
        intercalate_blank hlines, hbreaks]
      simp only [String.append_assoc]

/-- The lines of parts, two empty ones in front of each part but a first one of constants: that one
goes on with the constants in front of it. -/
def joinedLines : List (Bool × List String) → List String
  | (true, lines) :: rest => lines ++ rest.flatMap fun part => "" :: "" :: part.2
  | parts => parts.flatMap fun part => "" :: "" :: part.2

/-- The parts of entries have the lines of their blocks, whatever stands in front. -/
theorem flatMap_entryParts (entries : List Entry) :
    (entryParts entries).flatMap (fun part => "" :: "" :: part.2) = blocks false entries ∧
      joinedLines (entryParts entries) = blocks true entries := by
  induction entries with
  | nil => exact ⟨rfl, rfl⟩
  | cons entry entries ih =>
      obtain ⟨hapart, hjoined⟩ := ih
      have hparts : entryParts (entry :: entries) = consEntry entry (entryParts entries) := rfl
      rw [hparts]
      cases entry with
      | struct s layout =>
          -- A structure has a part of its own, wherever it stands.
          have hnew : consEntry (.struct s layout) (entryParts entries)
              = (false, entryLines (.struct s layout)) :: entryParts entries := by
            unfold consEntry
            rfl
          rw [hnew]
          constructor
          · rw [List.flatMap_cons, hapart]
            rfl
          · show ("" :: "" :: entryLines (.struct s layout)) ++
              (entryParts entries).flatMap (fun part => "" :: "" :: part.2) = _
            rw [hapart]
            rfl
      | constant c value =>
          -- A constant joins a part of constants behind it, and starts one otherwise.
          have hnew : ∃ lines rest, consEntry (.constant c value) (entryParts entries)
              = (true, entryLines (.constant c value) ++ lines) :: rest ∧
                lines ++ rest.flatMap (fun part => "" :: "" :: part.2)
                  = joinedLines (entryParts entries) := by
            cases hentries : entryParts entries with
            | nil => exact ⟨[], [], rfl, rfl⟩
            | cons part rest =>
                obtain ⟨isConstant, lines⟩ := part
                cases isConstant with
                | true => exact ⟨lines, rest, rfl, rfl⟩
                | false => exact ⟨[], (false, lines) :: rest, rfl, rfl⟩
          obtain ⟨lines, rest, hnew, hlines⟩ := hnew
          rw [hnew]
          constructor
          · rw [List.flatMap_cons]
            show ("" :: "" :: (entryLines (.constant c value) ++ lines)) ++ _ = _
            rw [List.cons_append, List.cons_append, List.append_assoc, hlines, hjoined]
            rfl
          · show (entryLines (.constant c value) ++ lines) ++ _ = _
            rw [List.append_assoc, hlines, hjoined]
            rfl

/-- The lines of the export lists that are not empty, each list with two empty lines in front. -/
theorem flatMap_exportLines (first second : String) (names others : List String) :
    ([exportLines first names, exportLines second others].filter fun lines =>
        !lines.isEmpty).flatMap (fun part => "" :: "" :: part)
      = exportBlock first names ++ exportBlock second others := by
  cases names <;> cases others <;> simp [exportLines, exportBlock]

theorem entryPart_ne_nil {entries : List Entry} :
    ∀ part ∈ entryParts entries, part.2 ≠ [] := by
  induction entries with
  | nil => exact fun part hpart => nomatch hpart
  | cons entry entries ih =>
      intro part hpart
      have hparts : entryParts (entry :: entries) = consEntry entry (entryParts entries) := rfl
      rw [hparts] at hpart
      unfold consEntry at hpart
      split at hpart
      · rename_i lines rest hkind hentries
        rcases List.mem_cons.mp hpart with rfl | hpart
        · exact List.append_ne_nil_of_left_ne_nil (entryLines_ne_nil entry) _
        · exact ih part (hentries ▸ List.mem_cons_of_mem _ hpart)
      · rcases List.mem_cons.mp hpart with rfl | hpart
        · exact entryLines_ne_nil entry
        · exact ih part hpart

/-- The text of a module is its lines, each ended by a line feed. -/
theorem text_eq_intercalate (name label : String) (entries : List Entry) :
    text name label entries
      = "\n".intercalate (titleLines name label ++ body entries ++ endLines name) ++ "\n" := by
  have hexports := flatMap_exportLines exportList requestList (exportedUnder .always entries)
    (exportedUnder .onRequest entries)
  have hblocks : ((entryParts entries).map Prod.snd).flatMap (fun part => "" :: "" :: part)
      = blocks false entries := by
    rw [List.flatMap_map]
    exact (flatMap_entryParts entries).1
  rw [text, parts, List.append_assoc, List.cons_append, List.append_assoc]
  have hheader : headerLines name label (entries.any fun entry => !entry.isConstant) ≠ [] :=
    List.cons_ne_nil _ _
  rw [intercalate_parts hheader]
  · rw [List.flatMap_append, List.flatMap_append, hexports, hblocks, headerLines_eq, body]
    simp only [List.append_assoc]
    rfl
  · intro part hpart
    rcases List.mem_append.mp hpart with hpart | hpart
    · have hnonempty := (List.mem_filter.mp hpart).2
      rintro rfl
      cases hnonempty
    · rcases List.mem_append.mp hpart with hpart | hpart
      · obtain ⟨entryPart, hentryPart, rfl⟩ := List.mem_map.mp hpart
        exact entryPart_ne_nil entryPart hentryPart
      · rw [List.mem_singleton.mp hpart]
        exact List.cons_ne_nil _ _

/-- Two texts for the same name and label have the same body, if its lines have no line feed. -/
theorem body_eq_of_text_eq {name label : String} {entries others : List Entry}
    (hentries : ∀ line ∈ body entries, OneLine line) (hothers : ∀ line ∈ body others, OneLine line)
    (h : text name label entries = text name label others) : body entries = body others := by
  have hsplit : ∀ entries : List Entry, (∀ line ∈ body entries, OneLine line) →
      ("\n".intercalate (titleLines name label ++ body entries ++ endLines name)).toList.splitOn
          '\n'
        = (titleLines name label).flatMap (fun line => line.toList.splitOn '\n') ++
          (body entries).map String.toList ++
          (endLines name).flatMap (fun line => line.toList.splitOn '\n') := by
    intro entries hbody
    have hlines : (titleLines name label ++ body entries ++ endLines name).map String.toList
        ≠ [] := by
      rw [List.append_assoc]
      exact List.cons_ne_nil _ _
    have hbreak : ("\n" : String).toList = ['\n'] := rfl
    rw [String.toList_intercalate, hbreak, splitOn_intercalate_flatMap hlines, List.flatMap_map,
      List.flatMap_append, List.flatMap_append]
    congr 2
    rw [List.map_eq_flatMap, List.flatMap_def, List.flatMap_def]
    exact congrArg List.flatten (List.map_congr_left fun line hline =>
      List.splitOn_eq_singleton (hbody line hline))
  rw [text_eq_intercalate, text_eq_intercalate, String.append_left_inj] at h
  have hlists := congrArg (fun s : String => s.toList.splitOn '\n') h
  rw [hsplit entries hentries, hsplit others hothers, List.append_left_inj, List.append_right_inj]
    at hlists
  exact (List.map_inj_right fun _ _ => String.toList_inj.mp).mp hlists

/-! ### Lines without line feeds -/

theorem visible_code (field : Field) : Visible field.spelled.toList := by
  cases field with
  | integer name type =>
      have hcode : isVisible type.code = true := by
        obtain ⟨width, signed⟩ := type
        cases width <;> cases signed <;> decide
      show Visible (String.singleton type.code).toList
      rw [String.toList_singleton]
      exact .cons hcode .nil
  | padding count =>
      show Visible (if count = 1 then "x" else s!"{count}x").toList
      split
      · exact .cons (by decide) .nil
      · rw [String.toList_append]
        refine .append ?_ (.cons (by decide) .nil)
        show Visible count.repr.toList
        rw [Nat.toList_repr]
        exact (Numeral.isDigits_toDigits count).visible
  | trailing => exact .nil

/-- The format of a layout is written in visible characters. -/
theorem visible_format (layout : Layout) : Visible layout.spelledFormat.toList := by
  have hcodes : ∀ fields : List Field, Visible (String.join (fields.map Field.spelled)).toList := by
    intro fields
    rw [String.toList_join, List.flatMap_map]
    exact .flatMap fun field _ => visible_code field
  rw [Layout.spelledFormat, String.toList_append]
  exact .append (.cons (by decide) .nil) (hcodes _)

/-- The lines of an entry lack a character exactly when the texts of its declaration do: all the
rest is written in ink. -/
theorem lacks_entryLines_iff {c : Char} (hc : isInk c = false) {entry : Entry} :
    (∀ line ∈ entryLines entry, Lacks c line)
      ↔ ∀ text ∈ entry.declaration.shown, Lacks c text := by
  cases entry with
  | constant d value =>
      simp (disch := decide +kernel) [entryLines, constantLine, Entry.declaration,
        Declaration.shown, Lacks.of_ink hc, Lacks.int hc]
  | struct s layout =>
      have hparameters : Lacks c (", ".intercalate s.parameters)
          ↔ ∀ member ∈ s.members, Lacks c member := by
        rw [Lacks.intercalate_iff (.of_ink hc (by decide)), Struct.parameters]
        split
        · simp (disch := decide) [or_imp, forall_and, Lacks.of_ink hc]
        · exact Iff.rfl
      have hformat : Lacks c layout.spelledFormat := .of_visible hc (visible_format layout)
      cases htail : layout.hasTail
      all_goals
        simp (disch := decide +kernel) [entryLines, structLines, encoderLines, decoderLines,
          Struct.formatName, Entry.declaration, Declaration.shown, htail, hparameters, hformat,
          Lacks.of_ink hc, Lacks.nat hc]
        -- What is left says the same of the decoding routine and the members on both sides.
        intro _ hbase hencoder
        simp only [hbase, hencoder, true_and, and_true]
        exact and_comm

theorem oneLine_of_mem_entryLines {entry : Entry} (h : entry.declaration.Plain) :
    ∀ line ∈ entryLines entry, OneLine line := by
  refine (lacks_entryLines_iff (by decide)).mpr ?_
  cases entry with
  | constant c value =>
      cases h with
      | constant exposed =>
          exact List.forall_mem_singleton.mpr (OneLine.of_isIdentifier exposed)
  | struct s layout =>
      cases h with
      | struct name base encoder decoder members =>
          simp only [Entry.declaration, Declaration.shown, List.forall_mem_cons]
          exact ⟨name, OneLine.of_isIdentifier base, OneLine.of_isIdentifier encoder,
            OneLine.of_isIdentifier decoder, fun member hmember =>
              OneLine.of_isIdentifier (members member hmember)⟩

/-- An export list lacks what its name and the names in it lack. -/
theorem lacks_of_mem_exportLines {c : Char} (hc : isInk c = false) {listName : String}
    {names : List String} (hlist : Lacks c listName) (hnames : ∀ name ∈ names, Lacks c name) :
    ∀ line ∈ exportLines listName names, Lacks c line := by
  intro line hline
  unfold exportLines at hline
  split at hline
  · cases hline
  · simp only [List.mem_cons, List.cons_append, List.mem_append, List.mem_map, List.not_mem_nil,
      or_false] at hline
    rcases hline with rfl | ⟨name, hname, rfl⟩ | rfl
    · simp (disch := decide) [hlist, Lacks.of_ink hc]
    · simp (disch := decide) [hnames name hname, Lacks.of_ink hc]
    · exact .of_ink hc (by decide)

theorem oneLine_of_mem_exportBlock {listName : String} {names : List String}
    (hlist : OneLine listName) (hnames : ∀ name ∈ names, OneLine name) :
    ∀ line ∈ exportBlock listName names, OneLine line := by
  intro line hline
  unfold exportBlock at hline
  split at hline
  · cases hline
  · -- Two empty lines in front, then the list.
    rcases List.mem_cons.mp hline with rfl | hline
    · decide
    · rcases List.mem_cons.mp hline with rfl | hline
      · decide
      · exact lacks_of_mem_exportLines (by decide) hlist hnames line hline

theorem oneLine_of_mem_blocks {entries : List Entry} (afterConstant : Bool)
    (h : ∀ entry ∈ entries, entry.declaration.Plain) :
    ∀ line ∈ blocks afterConstant entries, OneLine line := by
  induction entries generalizing afterConstant with
  | nil => exact fun line hline => nomatch hline
  | cons entry entries ih =>
      intro line hline
      rw [blocks, List.mem_append, List.mem_append] at hline
      rcases hline with (hblank | hentry) | hrest
      · split at hblank
        · cases hblank
        · simp only [List.mem_cons, List.not_mem_nil, or_false, or_self] at hblank
          rw [hblank]
          decide
      · exact oneLine_of_mem_entryLines (h entry List.mem_cons_self) line hentry
      · exact ih _ (fun other hother => h other (List.mem_cons_of_mem entry hother)) line hrest

theorem isIdentifier_exportedName {declaration : Declaration} (h : declaration.Plain) :
    ∀ name ∈ declaration.exportedNames, Name.isIdentifier name.toList = true := by
  intro name hname
  cases h with
  | constant exposed =>
      rw [List.mem_singleton.mp hname]
      exact exposed
  | struct _ base encoder decoder members =>
      simp only [Declaration.exportedNames, List.mem_cons, List.not_mem_nil, or_false] at hname
      rcases hname with rfl | rfl
      · exact encoder
      · exact decoder

/-- The lines of the body of plain entries are single lines. -/
theorem oneLine_of_mem_body {entries : List Entry}
    (h : ∀ entry ∈ entries, entry.declaration.Plain) : ∀ line ∈ body entries, OneLine line := by
  have hexported : ∀ mode, ∀ name ∈ exportedUnder mode entries, OneLine name := by
    intro mode name hname
    obtain ⟨entry, hentry, hname⟩ := List.mem_flatMap.mp hname
    have hplain := h entry (List.mem_filter.mp hentry).1
    exact OneLine.of_isIdentifier (isIdentifier_exportedName hplain name hname)
  have himports : ∀ withStructs, ∀ line ∈ importLines withStructs, OneLine line := by
    intro withStructs
    cases withStructs <;> decide
  intro line hline
  rw [body, List.mem_append, List.mem_append, List.mem_append] at hline
  rcases hline with ((himport | halways) | hrequest) | hblock
  · exact himports _ line himport
  · exact oneLine_of_mem_exportBlock (by decide) (hexported _) line halways
  · exact oneLine_of_mem_exportBlock (by decide) (hexported _) line hrequest
  · exact oneLine_of_mem_blocks false h line hblock

end Module

end HeaderBind
