import HeaderBind.Draft.Finish
import HeaderBind.Proofs.Draft.Replay
import HeaderBind.Proofs.Module.Injective

/-!
# `HeaderBind.Proofs.Module.Unbroken`: which configured texts stay on their lines

A module is written line by line, and configured texts go into comments, literals and code. A text
with a line break in it breaks out of its line. `unbroken_parts_iff` says of any module that its
lines are unbroken exactly when the texts in it are.

For a checked configuration three kinds of texts are left that can break a line, and
`unbroken_iff_of_check` names them. The name of a target only has to be there. Names of modules,
constants and routines may have one line feed behind them. Between the word `struct` and the name of
a structure any white space may stand. Everything else is closed: the base of a structure's name is
an identifier, and a probe can only report on members with identifiers for names.
-/

set_option autoImplicit false

namespace HeaderBind

open HeaderBind.Text

/-! ### Texts without line breaks -/

/-- Whether a text has neither a line feed nor a carriage return in it. -/
def Unbroken (s : String) : Prop :=
  '\n' ∉ s.toList ∧ '\r' ∉ s.toList

instance (s : String) : Decidable (Unbroken s) :=
  inferInstanceAs (Decidable ('\n' ∉ s.toList ∧ '\r' ∉ s.toList))

namespace Unbroken

@[simp] theorem append_iff {s t : String} : Unbroken (s ++ t) ↔ Unbroken s ∧ Unbroken t := by
  simp only [Unbroken, String.toList_append, List.mem_append, not_or]
  exact and_and_and_comm

@[simp] theorem toString_iff {s : String} : Unbroken (toString s) ↔ Unbroken s := Iff.rfl

theorem of_visible {s : String} (h : Visible s.toList) : Unbroken s :=
  ⟨Lacks.of_visible (by decide) h, Lacks.of_visible (by decide) h⟩

theorem of_isIdentifier {s : String} (h : Name.isIdentifier s.toList = true) : Unbroken s :=
  of_visible (visible_of_isIdentifier h)

/-- Texts are unbroken exactly when none of them has either of the two breaks. -/
theorem forall_iff {texts : List String} :
    (∀ text ∈ texts, Unbroken text)
      ↔ (∀ text ∈ texts, Lacks '\n' text) ∧ ∀ text ∈ texts, Lacks '\r' text :=
  forall₂_and

end Unbroken

namespace Name

/-- A name stays on its line exactly when it is an identifier, nothing behind it. -/
theorem unbroken_iff_of_isName {s : String} (h : isName s = true) :
    Unbroken s ↔ isIdentifier s.toList = true := by
  refine ⟨fun hunbroken => ?_, Unbroken.of_isIdentifier⟩
  rcases isName_iff.mp h with hname | ⟨cs, hcs, -⟩
  · exact hname
  · exact absurd (by rw [hcs]; simp) hunbroken.1

/-- What is judged of the name of a module is names and points. -/
theorem visible_of_isModuleName {s : String} (h : isModuleName s = true) :
    Visible (dropFinalNewline s.toList) := by
  rw [isModuleName, List.all_eq_true] at h
  have hjoined : ['.'].intercalate ((dropFinalNewline s.toList).splitOn '.')
      = dropFinalNewline s.toList := List.intercalate_splitOn '.'
  rw [← hjoined]
  exact .intercalate (.cons (by decide) .nil) fun part hpart =>
    visible_of_isIdentifier (h part hpart)

/-- The name of a module stays on its line exactly when it does not end with a line feed. -/
theorem unbroken_iff_of_isModuleName {s : String} (h : isModuleName s = true) :
    Unbroken s ↔ s.toList.getLast? ≠ some '\n' := by
  constructor
  · exact fun hunbroken hlast => hunbroken.1 (List.mem_of_getLast? hlast)
  · -- Without a line feed at the end the whole text is judged.
    intro hlast
    have hvisible := visible_of_isModuleName h
    rw [dropFinalNewline, if_neg hlast] at hvisible
    exact .of_visible hvisible

end Name

/-! ### The texts in a module -/

namespace Module

/-- The parts of entries have the lines of the entries and no others. -/
theorem flatten_entryParts (entries : List Entry) :
    ((entryParts entries).map Prod.snd).flatten = entries.flatMap entryLines := by
  induction entries with
  | nil => rfl
  | cons entry entries ih =>
      have hparts : entryParts (entry :: entries) = consEntry entry (entryParts entries) := rfl
      rw [hparts, List.flatMap_cons, ← ih]
      unfold consEntry
      split
      · rename_i lines rest hkind hentries
        rw [hentries]
        simp only [List.map_cons, List.flatten_cons, List.append_assoc]
      · rfl

theorem mem_shown_of_mem_exportedNames {declaration : Declaration} {name : String}
    (h : name ∈ declaration.exportedNames) : name ∈ declaration.shown := by
  cases declaration with
  | constant c => exact h
  | struct s =>
      simp only [Declaration.exportedNames, List.mem_cons, List.not_mem_nil, or_false] at h
      rcases h with rfl | rfl <;> simp [Declaration.shown]

section

variable {c : Char} {name label : String} {entries : List Entry}

theorem lacks_headerLines_iff (hc : isInk c = false) {withStructs : Bool} :
    (∀ line ∈ headerLines name label withStructs, Lacks c line)
      ↔ Lacks c label ∧ Lacks c name := by
  cases withStructs <;>
    simp (disch := decide +kernel) [headerLines, toolName, Lacks.of_ink hc]

/-- The lines of a module lack a character that is not ink exactly when its name, its label and the
texts of its declarations do. -/
theorem lacks_parts_iff (hc : isInk c = false) :
    (∀ line ∈ (parts name label entries).flatten, Lacks c line)
      ↔ Lacks c label ∧ Lacks c name ∧
        ∀ entry ∈ entries, ∀ text ∈ entry.declaration.shown, Lacks c text := by
  have hentryLines : (∀ line ∈ entries.flatMap entryLines, Lacks c line)
      ↔ ∀ entry ∈ entries, ∀ text ∈ entry.declaration.shown, Lacks c text := by
    simp only [List.forall_mem_flatMap, lacks_entryLines_iff hc]
  have hlast : Lacks c (lastLine name) ↔ Lacks c name := by
    have hwords : Lacks c "# end of generated module " := .of_ink hc (by decide)
    show Lacks c ("# end of generated module " ++ name) ↔ _
    rw [Lacks.append_iff, and_iff_right hwords]
  rw [parts, List.flatten_append, List.flatten_append, List.flatten_cons, flatten_entryParts,
    List.flatten_singleton]
  simp only [List.forall_mem_append, List.forall_mem_singleton, lacks_headerLines_iff hc,
    hentryLines, hlast]
  constructor
  · rintro ⟨⟨⟨⟨hlabel, hname⟩, -⟩, hentries⟩, -⟩
    exact ⟨hlabel, hname, hentries⟩
  · rintro ⟨hlabel, hname, hentries⟩
    refine ⟨⟨⟨⟨hlabel, hname⟩, fun line hline => ?_⟩, hentries⟩, hname⟩
    -- The names in the export lists are texts of the declarations.
    have hexported : ∀ mode, ∀ exported ∈ exportedUnder mode entries, Lacks c exported := by
      intro mode exported hmem
      obtain ⟨entry, hentry, hmem⟩ := List.mem_flatMap.mp hmem
      exact hentries entry (List.mem_filter.mp hentry).1 exported
        (mem_shown_of_mem_exportedNames hmem)
    obtain ⟨lines, hlines, hline⟩ := List.mem_flatten.mp hline
    have hlist := (List.mem_filter.mp hlines).1
    simp only [List.mem_cons, List.not_mem_nil, or_false] at hlist
    rcases hlist with rfl | rfl
    · exact lacks_of_mem_exportLines hc (.of_ink hc (by decide)) (hexported _) line hline
    · exact lacks_of_mem_exportLines hc (.of_ink hc (by decide)) (hexported _) line hline

/-- The lines of a module are unbroken exactly when its name, its label and the texts of its
declarations are. -/
theorem unbroken_parts_iff :
    (∀ line ∈ (parts name label entries).flatten, Unbroken line)
      ↔ Unbroken label ∧ Unbroken name ∧
        ∀ entry ∈ entries, ∀ text ∈ entry.declaration.shown, Unbroken text := by
  rw [Unbroken.forall_iff, lacks_parts_iff (by decide), lacks_parts_iff (by decide)]
  simp only [Unbroken.forall_iff, forall_and]
  constructor
  · rintro ⟨⟨hlabel, hname, hentries⟩, hlabel', hname', hentries'⟩
    exact ⟨⟨hlabel, hlabel'⟩, ⟨hname, hname'⟩, hentries, hentries'⟩
  · rintro ⟨⟨hlabel, hlabel'⟩, ⟨hname, hname'⟩, hentries, hentries'⟩
    exact ⟨⟨hlabel, hname, hentries⟩, hlabel', hname', hentries'⟩

end

end Module

/-! ### What a probe reports -/

namespace Probe

/-- The member that a fact is about has a name that stays on its line: no word has a break in it. -/
theorem unbroken_of_readMember {base : String} {token : List Char} {fact : MemberFact}
    (h : readMember base token = .ok fact) : Unbroken fact.name := by
  unfold readMember at h
  split at h
  · cases h
  · rename_i parts hparts
    obtain ⟨offset, -, h⟩ := bind_eq_ok_iff.mp h
    obtain ⟨width, -, h⟩ := bind_eq_ok_iff.mp h
    cases h
    have hword := (wellFormed_of_memberToken? hparts).name
    exact ⟨fun hmem => absurd (hword '\n' hmem) (by decide),
      fun hmem => absurd (hword '\r' hmem) (by decide)⟩

theorem unbroken_of_readMembers {base : String} {tokens : List (List Char)}
    {facts : List MemberFact} (h : readMembers base tokens = .ok facts) :
    ∀ fact ∈ facts, Unbroken fact.name := by
  induction tokens generalizing facts with
  | nil =>
      cases h
      exact fun fact hfact => absurd hfact List.not_mem_nil
  | cons token tokens ih =>
      obtain ⟨first, hfirst, h⟩ := bind_eq_ok_iff.mp h
      obtain ⟨rest, hrest, h⟩ := bind_eq_ok_iff.mp h
      cases h
      exact List.forall_mem_cons.mpr ⟨unbroken_of_readMember hfirst, ih hrest⟩

/-- A structure that was reported on has members with names that stay on their lines. -/
theorem unbroken_of_readStruct {base value : String} {names : List String} {facts : StructFacts}
    (h : readStruct base value (some names) = .ok facts) : ∀ name ∈ names, Unbroken name := by
  have hnames := name_of_readStruct h
  simp only [readStruct] at h
  split at h
  · cases h
  · split at h
    · cases h
    · obtain ⟨members, hmembers, h⟩ := bind_eq_ok_iff.mp h
      obtain ⟨_, -, h⟩ := bind_eq_ok_iff.mp h
      obtain ⟨size, -, h⟩ := bind_eq_ok_iff.mp h
      cases h
      rw [← hnames]
      exact List.forall_mem_map.mpr (unbroken_of_readMembers hmembers)

end Probe

/-- What is resolved are the declarations, and a probe reported on the members of the structures
among them. -/
theorem Resolution.declaration_of_resolve {declarations : List Declaration} {output : String}
    {resolved : List Resolved} (h : resolve declarations output = .ok resolved) :
    resolved.map Resolved.declaration = declarations ∧
      ∀ s, .struct s ∈ declarations → ∀ member ∈ s.members, Unbroken member := by
  obtain ⟨hdeclarations, hresolved⟩ := resolveAll_eq_ok_iff.mp h
  refine ⟨hdeclarations, fun s hs => ?_⟩
  rw [← hdeclarations] at hs
  obtain ⟨r, hr, hrs⟩ := List.mem_map.mp hs
  have hone := hresolved r hr
  rw [hrs] at hone
  obtain ⟨value, facts, layout, -, hread, -, -⟩ := resolveOne_struct_eq_ok_iff.mp hone
  exact Probe.unbroken_of_readStruct hread

/-! ### Checked configurations -/

/-- The names of a declaration that a module shows pass the test of names, and the base of the name
of a structure is an identifier. -/
def Declaration.Named : Declaration → Prop
  | .constant c => Name.isName c.exposed = true
  | .struct s =>
    Name.isIdentifier s.base.toList = true ∧ Name.isName s.encoder = true ∧
      Name.isName s.decoder = true

/-- The names of a declaration that a module shows are identifiers in their entirety, and the name
of a structure is on one line. -/
def Declaration.KeepsLines : Declaration → Prop
  | .constant c => Name.isIdentifier c.exposed.toList = true
  | .struct s =>
    Unbroken s.name ∧ Name.isIdentifier s.encoder.toList = true ∧
      Name.isIdentifier s.decoder.toList = true

/-- A target that is found is a target of the configuration. -/
theorem Target.mem_keys_of_find {config target : Json} {name : String}
    (h : find config (some name) = .ok target) : name ∈ Entries.keys (Config.targets config) := by
  unfold find at h
  split at h
  · rename_i fields htargets
    split at h
    · rename_i target hget
      rw [Config.targets, htargets]
      exact Entries.isSome_get?_iff.mp (Option.isSome_iff_exists.mpr ⟨_, hget⟩)
    · cases h
  · cases h

namespace Draft

open Config (Item)

/-- What fitting items declare has names that pass the test. -/
theorem named_of_mem_declared {mode : ExportMode} {items : List Item}
    (hfits : ∀ item ∈ items, item.Fits) {d : Declaration} (hd : d ∈ declared mode items) :
    d.Named := by
  induction items generalizing mode with
  | nil => cases hd
  | cons item items ih =>
      obtain ⟨hitem, hitems⟩ := List.forall_mem_cons.mp hfits
      rcases List.mem_append.mp hd with hown | hlater
      · cases item with
        | header path isLocal => cases hown
        | mode chosen => cases hown
        | constant source exposed =>
            obtain rfl := List.mem_singleton.mp hown
            exact chosenName_of_forall hitem.2 hitem.1
        | struct name members encoder decoder hasTail =>
            obtain rfl := List.mem_singleton.mp hown
            obtain ⟨hname, -, -, hencoder, hdecoder⟩ := hitem
            -- The base comes from the name and is an identifier, whatever stands in front of it.
            exact ⟨Name.isIdentifier_structBase hname,
              Struct.isName_routines_ofNames hname hencoder hdecoder⟩
      · exact ih hitems hlater

/-- The texts of a declaration with such names are unbroken exactly when it keeps its lines, given
that its members do. -/
theorem unbroken_shown_iff {d : Declaration} (hd : d.Named)
    (hmembers : ∀ s, d = .struct s → ∀ member ∈ s.members, Unbroken member) :
    (∀ text ∈ d.shown, Unbroken text) ↔ d.KeepsLines := by
  cases d with
  | constant c =>
      show (∀ text ∈ [c.exposed], Unbroken text) ↔ _
      rw [List.forall_mem_singleton, Name.unbroken_iff_of_isName hd]
      exact Iff.rfl
  | struct s =>
      obtain ⟨hbase, hencoder, hdecoder⟩ := hd
      simp only [Declaration.shown, List.forall_mem_cons, Declaration.KeepsLines,
        Name.unbroken_iff_of_isName hencoder, Name.unbroken_iff_of_isName hdecoder]
      exact ⟨fun h => ⟨h.1, h.2.2.1, h.2.2.2.1⟩, fun h =>
        ⟨h.1, .of_isIdentifier hbase, h.2.1, h.2.2, hmembers s rfl⟩⟩

theorem lift_eq_ok_iff {α ε : Type} {wrap : ε → Error} {result : Except ε α} {value : α} :
    (lift wrap result : Except Error α) = .ok value ↔ result = .ok value := by
  cases result with
  | error fault => exact ⟨fun h => (nomatch h), fun h => (nomatch h)⟩
  | ok other => exact ⟨fun h => by cases h; rfl, fun h => by cases h; rfl⟩

/-- A draft is resolved to its declarations, and a probe reported on the members of the structures
among them. -/
theorem declaration_of_resolve {draft : Draft} {run : String → Except Error String}
    {resolved : List Resolved} (h : draft.resolve run = .ok resolved) :
    resolved.map Resolved.declaration = draft.declarations ∧
      ∀ s, .struct s ∈ draft.declarations → ∀ member ∈ s.members, Unbroken member := by
  unfold resolve at h
  split at h
  · obtain ⟨output, -, h⟩ := bind_eq_ok_iff.mp h
    exact Resolution.declaration_of_resolve (lift_eq_ok_iff.mp h)
  · -- No probe is run where there is nothing to resolve.
    rename_i hpending
    cases h
    have hempty : draft.declarations = [] := by simpa [isPending] using hpending
    exact ⟨hempty.symm, fun s hs => absurd hs (hempty ▸ List.not_mem_nil)⟩

/-- A draft that is finished has a name and is resolved, and what it comes to is the text of what
was resolved. -/
theorem text_of_finish {draft next : Draft} {run : String → Except Error String} {text : String}
    (h : draft.finish run = .ok (text, next)) :
    ∃ name resolved, draft.name = some name ∧ draft.resolve run = .ok resolved ∧
      text = Module.text name draft.label (resolved.map Module.Entry.ofResolved) := by
  unfold finish at h
  split at h
  · cases h
  · rename_i name hname
    obtain ⟨resolved, hresolve, h⟩ := bind_eq_ok_iff.mp h
    obtain ⟨rendered, hrender, h⟩ := bind_eq_ok_iff.mp h
    cases h
    exact ⟨name, resolved, hname, hresolve,
      (Module.text_of_render (lift_eq_ok_iff.mp hrender)).symm⟩

theorem fits_of_written {decls : List Json} {items : List Item}
    (h : List.Forall₂ (fun decl item => Config.Written decl item ∧ item.Fits) decls items) :
    ∀ item ∈ items, item.Fits := by
  induction h with
  | nil => exact fun item hitem => absurd hitem List.not_mem_nil
  | cons hitem _ ih => exact List.forall_mem_cons.mpr ⟨hitem.2, ih⟩

/-- A target that is replayed is a target of the configuration. -/
theorem mem_keys_of_ofTarget [Interpreter] {config : Json} {name : String} {label : Option String}
    {draft : Draft} (h : ofTarget config name label = .ok draft) :
    name ∈ Entries.keys (Config.targets config) := by
  obtain ⟨target, hfind, -⟩ := bind_eq_ok_iff.mp h
  exact Target.mem_keys_of_find (mapError_eq_ok_iff.mp hfind)

/-- Which lines of a module can break. Take a checked configuration, a target of it, and a probe by
whose output the module of the target can be written. All lines of the module are unbroken exactly
when the name of the target is, the name of the module does not end with a line feed, and the
declarations keep their lines. -/
theorem unbroken_iff_of_check [Interpreter] {config : Json} (hcheck : Config.check config = .ok ())
    {name text : String} {draft next : Draft} {run : String → Except Error String}
    (hdraft : ofTarget config name none = .ok draft)
    (hfinish : draft.finish run = .ok (text, next)) :
    ∃ module resolved, draft.name = some module ∧ draft.label = s!"target '{name}'" ∧
      draft.resolve run = .ok resolved ∧
      text = Module.text module draft.label (resolved.map Module.Entry.ofResolved) ∧
      ((∀ line ∈ (Module.parts module draft.label
            (resolved.map Module.Entry.ofResolved)).flatten, Unbroken line)
        ↔ Unbroken name ∧ module.toList.getLast? ≠ some '\n' ∧
          ∀ d ∈ draft.declarations, d.KeepsLines) := by
  obtain ⟨target, module, items, -, -, hmodule, hitems, houtcome⟩ :=
    replayOutcome_ofTarget hcheck (mem_keys_of_ofTarget hdraft) none
  rw [hdraft] at houtcome
  cases houtcome with
  | all clear =>
      obtain ⟨name', resolved, hname', hresolve, htext⟩ := text_of_finish hfinish
      cases hname'
      refine ⟨module, resolved, rfl, rfl, hresolve, htext, ?_⟩
      obtain ⟨hdeclarations, hmembers⟩ := declaration_of_resolve hresolve
      have hlabel : Unbroken s!"target '{name}'" ↔ Unbroken name := by simp +decide
      have hshown : (∀ entry ∈ resolved.map Module.Entry.ofResolved,
          ∀ text ∈ entry.declaration.shown, Unbroken text)
            ↔ ∀ d ∈ declared .onRequest items, d.KeepsLines := by
        have hsame : resolved.map Resolved.declaration = declared .onRequest items := hdeclarations
        rw [← hsame, List.forall_mem_map, List.forall_mem_map]
        refine forall_congr' fun r => forall_congr' fun hr => ?_
        have hd : r.declaration ∈ declared .onRequest items := hsame ▸ List.mem_map_of_mem hr
        rw [Module.declaration_ofResolved]
        exact unbroken_shown_iff (named_of_mem_declared (fits_of_written hitems) hd)
          fun s hs => hmembers s (hs ▸ hd)
      rw [Module.unbroken_parts_iff, Name.unbroken_iff_of_isModuleName hmodule]
      exact and_congr hlabel (and_congr Iff.rfl hshown)

/-- A configuration with one constant, exposed under some name. -/
def limitConfig (exposed : String) : Json :=
  Config.single "demo" [.object [("constant", .string "LIMIT"), ("name", .string exposed)]]

/-- The draft of the constant. -/
def limitDraft (exposed : String) : Draft :=
  replayed "demo" "target 'demo'" [.constant "LIMIT" (some exposed)]

/-- The entry of the constant. -/
def limitEntry (exposed : String) : Module.Entry :=
  .constant ⟨"LIMIT", exposed, .onRequest⟩ 7

theorem unbroken_iff_of_check_limit :
    (Config.check (limitConfig "MAX") = .ok () ∧
        ofTarget (limitConfig "MAX") "demo" none = .ok (limitDraft "MAX") ∧
        (limitDraft "MAX").finish (m := Except Error) (fun _ => .ok "LIMIT=7\n")
          = .ok (Module.text "demo" "target 'demo'" [limitEntry "MAX"],
              (limitDraft "MAX").cleared)) ∧
      ∀ line ∈ (Module.parts "demo" "target 'demo'" [limitEntry "MAX"]).flatten,
        Unbroken line := by
  have hcheck : Config.check (limitConfig "MAX") = .ok () := by decide +kernel
  have hdraft : ofTarget (limitConfig "MAX") "demo" none = .ok (limitDraft "MAX") := by
    decide +kernel
  have hfinish : (limitDraft "MAX").finish (m := Except Error) (fun _ => .ok "LIMIT=7\n")
      = .ok (Module.text "demo" "target 'demo'" [limitEntry "MAX"],
          (limitDraft "MAX").cleared) := by decide +kernel
  have hresolve : (limitDraft "MAX").resolve (m := Except Error) (fun _ => .ok "LIMIT=7\n")
      = .ok [.constant ⟨"LIMIT", "MAX", .onRequest⟩ 7] := by decide +kernel
  obtain ⟨module, resolved, hname, -, hresolve', -, hiff⟩ :=
    unbroken_iff_of_check hcheck hdraft hfinish
  cases hname
  cases hresolve.symm.trans hresolve'
  refine ⟨⟨hcheck, hdraft, hfinish⟩, hiff.mpr ⟨by decide, by decide, ?_⟩⟩
  intro d hd
  rw [List.mem_singleton.mp hd]
  exact (by decide : Name.isIdentifier "MAX".toList = true)

/-- A constant is exposed under a name with a line feed behind it. The configuration is accepted,
and the name breaks the line of the constant in two. -/
theorem not_unbroken_limit :
    Config.check (limitConfig "MAX\n") = .ok () ∧
      ofTarget (limitConfig "MAX\n") "demo" none = .ok (limitDraft "MAX\n") ∧
      (limitDraft "MAX\n").finish (m := Except Error) (fun _ => .ok "LIMIT=7\n")
        = .ok (Module.text "demo" "target 'demo'" [limitEntry "MAX\n"],
            (limitDraft "MAX\n").cleared) ∧
      "MAX\n = 7" ∈ (Module.parts "demo" "target 'demo'" [limitEntry "MAX\n"]).flatten ∧
      ¬ Unbroken "MAX\n = 7" := by
  decide +kernel

end Draft

end HeaderBind
