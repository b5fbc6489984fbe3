import HeaderBind.Error
import HeaderBind.Proofs.Config.Item
import HeaderBind.Proofs.Result
import HeaderBind.Proofs.Schema.Messages

/-!
# `HeaderBind.Proofs.Config.Check`: the two checks of a configuration

A configuration passes a check in words of the domain and then one against `Config.shape`. The
first tolerates more: unknown keys, nulls, any text for a name. Where it is the stricter one is what
this module is about: on documents of the right shape it refuses exactly those that are not `Usual`,
which leave a target without a name, a header without a path, or name a mode by its second name.

The proof goes down the document and up again. `checkDeclaration_eq_ok_iff` opens the check of a
declaration; a declaration that says something passes it (`checkDeclaration_of_written`), and
what passes it is usual (`usual_of_checkDeclaration`). Targets and documents follow.

A document that is refused is not always refused in words: the messages of the second check show
values, and there are values that cannot be shown. `check_agrees_with_shape` says when this happens,
and `not_told_longNumeral` is a document that it happens to.
-/

set_option autoImplicit false

namespace HeaderBind.Config

open Schema

/-! ### Requirements -/

@[simp] theorem require_eq_ok_iff {holds : Bool} {place : String} {requirement : Requirement} :
    require holds place requirement = .ok () ↔ holds = true := by
  cases holds <;> simp [require]

/-- Only objects have keys. -/
theorem isObject_of_field? {value inner : Json} {key : String}
    (h : value.field? key = some inner) : isObject value = true := by
  cases value with
  | object given => rfl
  | _ => cases h

theorem field?_of_given? {value inner : Json} {key : String} (h : value.given? key = some inner) :
    value.field? key = some inner := by
  unfold Json.given? at h
  split at h
  · cases h
  · exact h

/-- Where no null is tolerated, nothing is lost by tolerating it. -/
theorem absentOr_given? {test : Json → Bool} {value : Json} {key : String}
    (h : ∀ inner, value.field? key = some inner → test inner = true) :
    absentOr test (value.given? key) = true :=
  (Option.all_eq_true _ _).mpr fun inner hinner => h inner (field?_of_given? hinner)

theorem textItems_of_ne_empty {place : String} {index : Nat} {texts : List String}
    (h : ∀ s ∈ texts, s ≠ "") : textItems place index (texts.map .string) = .ok texts := by
  induction texts generalizing index with
  | nil => rfl
  | cons s texts ih =>
      have hs : (Json.string s).nonEmptyText? = some s :=
        if_neg fun hempty => h s List.mem_cons_self (String.isEmpty_iff.mp hempty)
      simp only [List.map_cons, textItems, hs]
      rw [ih fun other hother => h other (List.mem_cons_of_mem s hother)]
      rfl

/-- A list of texts is accepted where the shape of one is demanded. -/
theorem textList_of_fits {place : String} {value? : Option Json}
    (h : ∀ inner, value? = some inner → textListShape.fits inner = true) :
    ∃ texts, textList place value? = .ok texts := by
  cases value? with
  | none => exact ⟨[], rfl⟩
  | some inner =>
      obtain ⟨values, rfl, -, hvalues⟩ := fits_list_iff.mp (h inner rfl)
      obtain ⟨texts, rfl, htexts⟩ := exists_texts hvalues
      refine ⟨texts, textItems_of_ne_empty fun s hs => ?_⟩
      simpa [TextForm.admits] using htexts s hs

theorem isNonEmptyText_string {s : String} (h : s ≠ "") :
    isNonEmptyText (.string s) = true := by
  simp [isNonEmptyText, Json.nonEmptyText?, h]

/-! ### Declarations -/

/-- A declaration passes when it is of one kind, the key of the kind has a text that is not blank,
and the settings of the kind pass. -/
theorem checkDeclaration_eq_ok_iff {decl : Json} {place : String} :
    checkDeclaration decl place = .ok ()
      ↔ ∃ kind s, kindsOf decl = [kind] ∧ decl.field? kind = some (.string s) ∧
        Text.isBlankText s = false ∧ checkKindFields decl place kind s = .ok () := by
  unfold checkDeclaration
  rw [check_bind_eq_ok_iff, require_eq_ok_iff]
  constructor
  · rintro ⟨-, h⟩
    split at h
    · rename_i kind hkinds
      split at h
      · rename_i s hs
        rw [check_bind_eq_ok_iff, require_eq_ok_iff] at h
        exact ⟨kind, s, hkinds, hs, by simpa using h.1, h.2⟩
      · cases h
    · cases h
  · -- The key of the kind is there, so the value is an object, as the first requirement wants it.
    rintro ⟨kind, s, hkinds, hs, hblank, hfields⟩
    refine ⟨isObject_of_field? hs, ?_⟩
    rw [show declarationKinds.filter _ = [kind] from hkinds]
    simp only [hs]
    rw [check_bind_eq_ok_iff, require_eq_ok_iff, hblank]
    exact ⟨rfl, hfields⟩

theorem absentOr_flag {decl : Json} {key : String} {setting : Option Bool}
    (h : decl.field? key = setting.map .bool) : absentOr isFlag (decl.given? key) = true := by
  refine absentOr_given? fun inner hinner => ?_
  obtain ⟨b, -, rfl⟩ := Option.map_eq_some_iff.mp (h.symm.trans hinner)
  rfl

theorem absentOr_name {decl : Json} {key : String} {setting : Option String}
    (h : decl.field? key = setting.map .string)
    (hname : ∀ name ∈ setting, Name.isName name = true) :
    absentOr isNonEmptyText (decl.given? key) = true := by
  refine absentOr_given? fun inner hinner => ?_
  obtain ⟨name, hmem, rfl⟩ := Option.map_eq_some_iff.mp (h.symm.trans hinner)
  exact isNonEmptyText_string (Name.ne_empty_of_isName (hname name hmem))

/-- The settings of a declaration that says something pass the check of its kind. -/
theorem checkDeclaration_of_written {decl : Json} {item : Item} {place : String}
    (h : Written decl item) (hfits : item.Fits) : checkDeclaration decl place = .ok () := by
  obtain ⟨hkinds, hsettings⟩ := h
  rw [checkDeclaration_eq_ok_iff]
  cases item with
  | header path isLocal =>
      simp only [Item.settings, List.forall_mem_cons] at hsettings
      obtain ⟨hpath, hlocal, -⟩ := hsettings
      refine ⟨"include", path, hkinds, hpath, hfits, ?_⟩
      show require _ _ _ = .ok ()
      exact require_eq_ok_iff.mpr (absentOr_flag hlocal)
  | mode chosen =>
      simp only [Item.settings, List.forall_mem_cons] at hsettings
      refine ⟨"export", chosen.name, hkinds, hsettings.1, ?_, ?_⟩
      · cases chosen <;> decide
      · cases chosen <;> rfl
  | constant source exposed =>
      simp only [Item.settings, List.forall_mem_cons] at hsettings
      obtain ⟨hsource, hexposed, -⟩ := hsettings
      refine ⟨"constant", source, hkinds, hsource, Name.not_isBlankText_of_isName hfits.1, ?_⟩
      show require _ _ _ = .ok ()
      exact require_eq_ok_iff.mpr (absentOr_name hexposed hfits.2)
  | struct name members encoder decoder hasTail =>
      simp only [Item.settings, List.forall_mem_cons] at hsettings
      obtain ⟨hname, hmembers, hencoder, hdecoder, htail, -⟩ := hsettings
      obtain ⟨hnameForm, hne, hmemberNames, hencoderName, hdecoderName⟩ := hfits
      refine ⟨"structure", name, hkinds, hname, Name.not_isBlankText_of_isStructName hnameForm, ?_⟩
      have hlist : textList s!"{place}.members" (decl.field? "members") = .ok members := by
        rw [hmembers]
        exact textItems_of_ne_empty fun member hmember =>
          Name.ne_empty_of_isName (hmemberNames member hmember)
      have hsome : (!members.isEmpty) = true := by simpa using hne
      -- The members are read before anything is asked of them.
      show (Except.mapError _ (textList _ _) >>= _) = .ok ()
      rw [hlist, bind_eq_ok_iff]
      refine ⟨members, rfl, ?_⟩
      simp only [check_bind_eq_ok_iff, require_eq_ok_iff]
      exact ⟨hsome, absentOr_name hencoder hencoderName, absentOr_name hdecoder hdecoderName,
        absentOr_flag htail⟩

/-- What passes is usual: a blank path does not pass, nor does the second name of a mode. -/
theorem usual_of_checkDeclaration {decl : Json} {place : String}
    (h : checkDeclaration decl place = .ok ()) : UsualDeclaration decl := by
  obtain ⟨kind, s, hkinds, hs, hblank, hfields⟩ := checkDeclaration_eq_ok_iff.mp h
  -- The declaration is of one kind, so a key that is there is the key of this kind.
  have hkind : ∀ other ∈ declarationKinds, ∀ inner, decl.field? other = some inner →
      other = kind := by
    intro other hother inner hinner
    refine Decidable.by_contra fun hne => ?_
    rw [field?_eq_none_of_kindsOf hkinds hother hne] at hinner
    cases hinner
  refine ⟨fun path hpath => ?_, fun hmode => ?_⟩
  · obtain rfl := hkind "include" (by decide) _ hpath
    rw [hs] at hpath
    cases hpath
    exact hblank
  · obtain rfl := hkind "export" (by decide) _ hmode
    rw [hs] at hmode
    cases hmode
    -- No mode has this name, so the settings were refused.
    cases hfields

/-- Of the declarations of the right shape the usual ones pass. -/
theorem checkDeclaration_iff_usual {decl : Json} {place : String}
    (h : declarationShape.fits decl = true) :
    checkDeclaration decl place = .ok () ↔ UsualDeclaration decl := by
  refine ⟨usual_of_checkDeclaration, fun husual => ?_⟩
  -- The check is not compared with the shape rule by rule: both are compared with the item.
  obtain ⟨item, hwritten, hfits⟩ := exists_item h husual
  exact checkDeclaration_of_written hwritten hfits

theorem checkDeclarations_iff_usual {place : String} {index : Nat} {decls : List Json}
    (h : ∀ decl ∈ decls, declarationShape.fits decl = true) :
    checkDeclarations place index decls = .ok () ↔ ∀ decl ∈ decls, UsualDeclaration decl := by
  induction decls generalizing index with
  | nil => simp [checkDeclarations]
  | cons decl decls ih =>
      rw [checkDeclarations, check_bind_eq_ok_iff,
        checkDeclaration_iff_usual (h decl List.mem_cons_self),
        ih fun other hother => h other (List.mem_cons_of_mem decl hother), List.forall_mem_cons]

/-! ### Targets -/

theorem forM_eq_ok {α ε : Type} {items : List α} {check : α → Except ε Unit}
    (h : ∀ item ∈ items, check item = .ok ()) : items.forM check = .ok () := by
  induction items with
  | nil => rfl
  | cons item items ih =>
      show check item >>= (fun _ => items.forM check) = .ok ()
      rw [check_bind_eq_ok_iff]
      exact ⟨h item List.mem_cons_self, ih fun other hother =>
        h other (List.mem_cons_of_mem item hother)⟩

/-- The first check has nothing to say against a toolchain of the right shape. -/
theorem checkToolchain_of_fits {place : String} {toolchain? : Option Json}
    (h : ∀ inner, toolchain? = some inner → toolchainShape.fits inner = true) :
    checkToolchain place toolchain? = .ok () := by
  cases toolchain? with
  | none => rfl
  | some toolchain =>
      obtain ⟨given, rfl, -, -, hfields⟩ := fits_record_iff.mp (h toolchain rfl)
      simp only [checkToolchain, check_bind_eq_ok_iff, require_eq_ok_iff]
      refine ⟨rfl, absentOr_given? fun inner hinner => ?_, forM_eq_ok fun key hkey => ?_⟩
      · obtain ⟨s, rfl, hs⟩ :=
          fits_text_iff.mp (hfields ("compiler", .text .nonEmpty) (by simp) inner hinner)
        exact isNonEmptyText_string (by simpa [TextForm.admits] using hs)
      · -- The keys that the check goes through are those with the shape of a list.
        have hlist : (key, textListShape) ∈ [("compiler", text .nonEmpty),
            ("compiler_candidates", textListShape), ("cflags", textListShape),
            ("ldflags", textListShape), ("include_dirs", textListShape)] := by
          simp only [toolchainLists, List.mem_cons, List.not_mem_nil, or_false] at hkey
          rcases hkey with rfl | rfl | rfl | rfl <;> simp
        obtain ⟨texts, htexts⟩ : ∃ texts,
            textList s!"{place}.{key}" ((Json.object given).field? key) = .ok texts :=
          textList_of_fits (hfields _ hlist)
        rw [htexts]
        rfl

/-- What the first check asks of a target. -/
theorem checkTarget_eq_ok_iff {name : String} {target : Json} :
    checkTarget name target = .ok ()
      ↔ name ≠ "" ∧ isObject target = true ∧
        (target.field? "module").any isNonEmptyText = true ∧
        absentOr isNonEmptyText (target.given? "output_path") = true ∧
        checkToolchain s!"config.targets.{name}.toolchain" (target.given? "toolchain") = .ok () ∧
        ∃ decl decls, target.field? "declarations" = some (.array (decl :: decls)) ∧
          checkDeclarations s!"config.targets.{name}" 0 (decl :: decls) = .ok () := by
  unfold checkTarget
  by_cases hname : name = ""
  · -- A target without a name is refused in front of everything else.
    subst hname
    constructor
    · intro h
      cases h
    · intro h
      exact absurd rfl h.1
  · have hgiven : ¬ name.isEmpty = true := fun hempty => hname (String.isEmpty_iff.mp hempty)
    simp only [if_neg hgiven, check_bind_eq_ok_iff, require_eq_ok_iff]
    constructor
    · rintro ⟨hobject, hmodule, hpath, htoolchain, h⟩
      refine ⟨hname, hobject, hmodule, hpath, htoolchain, ?_⟩
      split at h
      · rename_i decl decls hdecls
        exact ⟨decl, decls, hdecls, h⟩
      · cases h
    · rintro ⟨-, hobject, hmodule, hpath, htoolchain, decl, decls, hdecls, h⟩
      refine ⟨hobject, hmodule, hpath, htoolchain, ?_⟩
      rw [hdecls]
      exact h

/-- A target of the right shape has the name of a module, and declarations of the right shape. -/
theorem target_of_fits {target : Json} (h : targetShape.fits target = true) :
    (∃ module, target.field? "module" = some (.string module) ∧
        Name.isModuleName module = true) ∧
      target.field? "declarations" = some (.array (declarations target)) ∧
      declarations target ≠ [] ∧
      ∀ decl ∈ declarations target, declarationShape.fits decl = true := by
  obtain ⟨given, rfl, hrequired, -, hfields⟩ := fits_record_iff.mp h
  refine ⟨exists_required_text (hrequired "module" (by decide))
    (hfields ("module", .text .moduleName) (by simp)), ?_⟩
  obtain ⟨inner, hinner⟩ := hrequired "declarations" (by decide)
  obtain ⟨decls, rfl, hleast, hdecls⟩ :=
    fits_list_iff.mp (hfields ("declarations", .list 1 declarationShape)
      (by simp [declarationShape]) inner hinner)
  have hall : declarations (.object given) = decls := by
    rw [declarations, show (Json.object given).field? "declarations" = _ from hinner]
  rw [hall]
  refine ⟨hinner, ?_, hdecls⟩
  rintro rfl
  cases hleast

/-- The targets of the right shape that pass are those with a name and usual declarations. -/
theorem checkTarget_iff_usual {name : String} {target : Json}
    (h : targetShape.fits target = true) :
    checkTarget name target = .ok ()
      ↔ name ≠ "" ∧ ∀ decl ∈ declarations target, UsualDeclaration decl := by
  obtain ⟨⟨module, hmodule, hmoduleName⟩, hall, hne, hdecls⟩ := target_of_fits h
  rw [checkTarget_eq_ok_iff]
  constructor
  · rintro ⟨hname, -, -, -, -, first, rest, hsome, hcheck⟩
    have hsame : declarations target = first :: rest :=
      Json.array.inj (Option.some.inj (hall.symm.trans hsome))
    rw [← hsame, checkDeclarations_iff_usual hdecls] at hcheck
    exact ⟨hname, hcheck⟩
  · rintro ⟨hname, husual⟩
    -- All that the first check asks besides is part of the shape.
    obtain ⟨given, rfl, -, -, hfields⟩ := fits_record_iff.mp h
    refine ⟨hname, rfl, ?_, ?_, ?_, ?_⟩
    · rw [hmodule]
      exact isNonEmptyText_string (Name.ne_empty_of_isModuleName hmoduleName)
    · refine absentOr_given? fun inner hinner => ?_
      obtain ⟨s, rfl, hs⟩ :=
        fits_text_iff.mp (hfields ("output_path", .text .nonEmpty) (by simp) inner hinner)
      exact isNonEmptyText_string (by simpa [TextForm.admits] using hs)
    · exact checkToolchain_of_fits fun inner hinner =>
        hfields ("toolchain", toolchainShape) (by simp) inner (field?_of_given? hinner)
    · obtain ⟨first, rest, hcons⟩ := List.exists_cons_of_ne_nil hne
      refine ⟨first, rest, hcons ▸ hall, ?_⟩
      rw [← hcons, checkDeclarations_iff_usual hdecls]
      exact husual

/-! ### Documents -/

/-- What the shape of a configuration leaves out. -/
structure Usual (document : Json) : Prop where
  /-- No target has the empty text for a name. -/
  named : ∀ target ∈ targets document, target.1 ≠ ""
  declarations : ∀ target ∈ targets document, ∀ decl ∈ declarations target.2,
    UsualDeclaration decl

/-- A document of the right shape has targets, each of the right shape. -/
theorem targets_of_fits {document : Json} (h : shape.fits document = true) :
    document.field? "targets" = some (.object (targets document)) ∧ targets document ≠ [] ∧
      ∀ target ∈ targets document, targetShape.fits target.2 = true := by
  obtain ⟨given, rfl, hrequired, -, hfields⟩ := fits_record_iff.mp h
  obtain ⟨inner, hinner⟩ := hrequired "targets" (by decide)
  obtain ⟨fields, rfl, hleast, hall⟩ :=
    fits_table_iff.mp (hfields ("targets", .table 1 targetShape) (by simp) inner hinner)
  have htargets : targets (.object given) = fields := by
    rw [targets, show (Json.object given).field? "targets" = _ from hinner]
  rw [htargets]
  refine ⟨hinner, ?_, hall⟩
  rintro rfl
  cases hleast

theorem checkTargets_iff_usual {fields : List (String × Json)}
    (h : ∀ field ∈ fields, targetShape.fits field.2 = true) :
    checkTargets fields = .ok ()
      ↔ ∀ field ∈ fields, field.1 ≠ "" ∧ ∀ decl ∈ declarations field.2, UsualDeclaration decl := by
  induction fields with
  | nil => simp [checkTargets]
  | cons field fields ih =>
      rw [checkTargets, check_bind_eq_ok_iff, checkTarget_iff_usual (h field List.mem_cons_self),
        ih fun other hother => h other (List.mem_cons_of_mem field hother), List.forall_mem_cons]

/-! ### Refusals in words -/

/-- A check that can say why it refuses. -/
def Tells {α : Type} (made : Except Fault α) : Prop :=
  ∀ fault, made ≠ .error (.unshown fault)

/-- A refusal in words is one of a configuration. -/
theorem ofDocument_of_ne {fault : Fault} (h : ∀ cause, fault ≠ .unshown cause) :
    Error.ofDocument fault = .configuration (.document fault) := by
  cases fault with
  | unshown cause => exact absurd rfl (h cause)
  | _ => rfl

theorem tells_ok {α : Type} (value : α) : Tells (.ok value) :=
  fun _ => nofun

theorem Tells.bind {α β : Type} {first : Except Fault α} {next : α → Except Fault β}
    (h : Tells first) (hnext : ∀ value, Tells (next value)) : Tells (first >>= next) := by
  intro fault hfault
  rcases bind_eq_error_iff.mp hfault with hfirst | ⟨value, -, hlater⟩
  · exact h fault hfirst
  · exact hnext value fault hlater

/-- The refusals of a reader that has words of its own. -/
theorem tells_mapError {α ε : Type} {made : Except ε α} {wrap : ε → Fault}
    (h : ∀ cause fault, wrap cause ≠ .unshown fault) : Tells (made.mapError wrap) := by
  intro fault hfault
  obtain ⟨cause, -, hcause⟩ := mapError_eq_error_iff.mp hfault
  exact h cause fault hcause

theorem tells_textList {place : String} {value? : Option Json} :
    Tells ((textList place value?).mapError .textList) :=
  tells_mapError fun _ _ => nofun

theorem tells_require {holds : Bool} {place : String} {requirement : Requirement} :
    Tells (require holds place requirement) := by
  intro fault h
  cases holds <;> cases h

theorem tells_forM {α : Type} {items : List α} {check : α → Except Fault Unit}
    (h : ∀ item, Tells (check item)) : Tells (items.forM check) := by
  induction items with
  | nil => exact tells_ok ()
  | cons item items ih => exact (h item).bind fun _ => ih

theorem tells_checkKindFields {decl : Json} {place kind s : String} :
    Tells (checkKindFields decl place kind s) := by
  unfold checkKindFields
  split
  · have hmode : Tells ((ExportMode.ofName s).mapError .exportMode) :=
      tells_mapError fun _ _ => nofun
    exact hmode.bind fun _ => tells_ok ()
  · split
    · exact tells_require
    · split
      · exact tells_require
      · refine tells_textList.bind fun members => tells_require.bind fun _ => ?_
        exact tells_require.bind fun _ => tells_require.bind fun _ => tells_require

theorem tells_checkDeclaration {decl : Json} {place : String} :
    Tells (checkDeclaration decl place) := by
  refine tells_require.bind fun _ => ?_
  split
  · split
    · exact tells_require.bind fun _ => tells_checkKindFields
    · exact fun _ => nofun
  · exact fun _ => nofun

theorem tells_checkDeclarations {place : String} {index : Nat} {decls : List Json} :
    Tells (checkDeclarations place index decls) := by
  induction decls generalizing index with
  | nil => exact tells_ok ()
  | cons decl decls ih => exact tells_checkDeclaration.bind fun _ => ih

theorem tells_checkToolchain {place : String} {toolchain? : Option Json} :
    Tells (checkToolchain place toolchain?) := by
  cases toolchain? with
  | none => exact tells_ok ()
  | some toolchain =>
      refine tells_require.bind fun _ => tells_require.bind fun _ => tells_forM fun key => ?_
      exact tells_textList.bind fun _ => tells_ok ()

theorem tells_checkTarget {name : String} {target : Json} : Tells (checkTarget name target) := by
  unfold checkTarget
  by_cases hname : name.isEmpty = true
  · simp only [hname, if_true]
    exact fun _ => nofun
  · simp only [hname]
    refine tells_require.bind fun _ => tells_require.bind fun _ => tells_require.bind fun _ =>
      tells_checkToolchain.bind fun _ => ?_
    split
    · exact tells_checkDeclarations
    · exact fun _ => nofun

/-- The first check has words for whatever it refuses. -/
theorem tells_checkTargets {fields : List (String × Json)} : Tells (checkTargets fields) := by
  induction fields with
  | nil => exact tells_ok ()
  | cons field fields ih => exact tells_checkTarget.bind fun _ => ih

section

variable [Interpreter]

/-- The second check accepts the documents of the right shape: where there are violations one of
them is reported, if their messages can be made. -/
theorem checkShape_eq_ok_iff {document : Json} :
    checkShape "config" document = .ok () ↔ shape.fits document = true := by
  have hunambiguous : shape.isUnambiguous = true := by decide
  rw [← check_eq_nil_iff hunambiguous, checkShape, if_neg (by decide)]
  -- Which violation is chosen does not matter here, only that one is as soon as there are any.
  cases shape.check document with
  | nil => exact ⟨fun _ => rfl, fun _ => rfl⟩
  | cons violation violations =>
      refine iff_of_false ?_ (List.cons_ne_nil _ _)
      cases Violation.faults? [] (violation :: violations) <;> exact nofun

/-- What keeps the second check from a message is what keeps the messages about its violations from
being made. -/
theorem checkShape_eq_unshown_iff {document : Json} {fault : Json.TextFault} :
    checkShape "config" document = .error (.unshown fault) ↔
      Violation.faults? [] (shape.check document) = some fault := by
  rw [checkShape, if_neg (by decide)]
  cases Violation.faults? [] (shape.check document) with
  | some other => simp
  | none => cases Violation.best? (shape.check document) <;> simp

/-- What the first check asks of a document. -/
def PassesWalk (document : Json) : Prop :=
  isObject document = true ∧
    ∃ target rest, document.field? "targets" = some (.object (target :: rest)) ∧
      checkTargets (target :: rest) = .ok ()

/-- The second check is made of what passes the first one. -/
theorem check_eq_checkShape {document : Json} (h : PassesWalk document) :
    check document = checkShape "config" document := by
  obtain ⟨hobject, target, rest, htargets, hcheck⟩ := h
  simp only [check, hobject, htargets, hcheck, Bool.not_true, Bool.false_eq_true, if_false]
  rfl

/-- Anything else is refused in words. -/
theorem exists_error_of_not_passesWalk {document : Json} (h : ¬ PassesWalk document) :
    ∃ fault, check document = .error fault ∧ ∀ cause, fault ≠ .unshown cause := by
  unfold check
  by_cases hobject : isObject document = true
  · simp only [hobject, Bool.not_true, Bool.false_eq_true, if_false]
    split
    · rename_i target rest htargets
      cases hcheck : checkTargets (target :: rest) with
      | ok _ => exact absurd ⟨hobject, target, rest, htargets, hcheck⟩ h
      | error fault =>
          exact ⟨fault, rfl, fun cause hcause => tells_checkTargets cause (hcause ▸ hcheck)⟩
    · exact ⟨.noTargets, rfl, fun _ => nofun⟩
  · have hother : (!isObject document) = true := by simpa using hobject
    simp only [hother, if_true]
    exact ⟨.rootNotAnObject, rfl, fun _ => nofun⟩

/-- What both checks ask of a document. -/
theorem check_eq_ok_iff {document : Json} :
    check document = .ok () ↔ PassesWalk document ∧ checkShape "config" document = .ok () := by
  by_cases hwalk : PassesWalk document
  · rw [check_eq_checkShape hwalk]
    exact (and_iff_right hwalk).symm
  · obtain ⟨fault, hcheck, -⟩ := exists_error_of_not_passesWalk hwalk
    rw [hcheck]
    exact iff_of_false nofun fun h => hwalk h.1

/-- A document passes exactly when it has the shape of a configuration and is usual. -/
theorem check_eq_ok_iff_usual {document : Json} :
    check document = .ok () ↔ shape.fits document = true ∧ Usual document := by
  rw [check_eq_ok_iff, checkShape_eq_ok_iff]
  constructor
  · rintro ⟨⟨-, target, rest, htargets, hcheck⟩, hshape⟩
    obtain ⟨hobject, -, hall⟩ := targets_of_fits hshape
    have hsame : target :: rest = targets document :=
      Json.object.inj (Option.some.inj (htargets.symm.trans hobject))
    rw [hsame, checkTargets_iff_usual hall] at hcheck
    exact ⟨hshape, fun field hfield => (hcheck field hfield).1,
      fun field hfield => (hcheck field hfield).2⟩
  · rintro ⟨hshape, husual⟩
    obtain ⟨hobject, hne, hall⟩ := targets_of_fits hshape
    obtain ⟨target, rest, htargets⟩ := List.exists_cons_of_ne_nil hne
    refine ⟨⟨isObject_of_field? hobject, target, rest, htargets ▸ hobject, ?_⟩, hshape⟩
    rw [← htargets, checkTargets_iff_usual hall]
    exact fun field hfield => ⟨husual.named field hfield, husual.declarations field hfield⟩

/-- How a document of another shape is refused. -/
inductive RefusedAs (document : Json) : Error → Prop
  /-- As a configuration that cannot be used: by the first check, or with a message that can be
  made. -/
  | told (fault : Fault) (can : PassesWalk document →
      Violation.faults? [] (shape.check document) = none) :
      RefusedAs document (.configuration (.document fault))
  /-- By the second check, which finds a value that no message can show. -/
  | untold {fault : Json.TextFault} (walked : PassesWalk document)
      (unshown : Violation.faults? [] (shape.check document) = some fault) :
      RefusedAs document (.ofText .showing fault)

/-- The two checks draw the same line up to what `Usual` names. Of the documents that have the shape
of a configuration the usual ones pass and no others; a document of another shape is refused. It is
refused as a configuration that cannot be used, unless the first check lets it pass and the messages
of the second one cannot be made, and they can be if the document can be shown. -/
theorem check_agrees_with_shape (document : Json) :
    (shape.fits document = true → (check document = .ok () ↔ Usual document)) ∧
      (shape.fits document = false → ∃ error,
        (check document).mapError Error.ofDocument = .error error ∧ RefusedAs document error) ∧
      (shape.fits document = false → document.CanShow → ∃ fault,
        (check document).mapError Error.ofDocument
          = .error (.configuration (.document fault))) := by
  have hrefused : shape.fits document = false → ∃ error,
      (check document).mapError Error.ofDocument = .error error ∧ RefusedAs document error := by
    intro hshape
    by_cases hwalk : PassesWalk document
    · rw [check_eq_checkShape hwalk]
      cases hcheck : checkShape "config" document with
      | ok _ =>
          rw [checkShape_eq_ok_iff.mp hcheck] at hshape
          cases hshape
      | error fault =>
          cases hunshown : Violation.faults? [] (shape.check document) with
          | some cause =>
              obtain rfl := Except.error.inj
                (hcheck.symm.trans (checkShape_eq_unshown_iff.mpr hunshown))
              exact ⟨_, rfl, .untold hwalk hunshown⟩
          | none =>
              have hwords : ∀ cause, fault ≠ .unshown cause := by
                rintro cause rfl
                rw [checkShape_eq_unshown_iff.mp hcheck] at hunshown
                cases hunshown
              exact ⟨_, congrArg _ (ofDocument_of_ne hwords), .told fault fun _ => hunshown⟩
    · obtain ⟨fault, hcheck, hwords⟩ := exists_error_of_not_passesWalk hwalk
      rw [hcheck]
      exact ⟨_, congrArg _ (ofDocument_of_ne hwords), .told fault fun h => absurd h hwalk⟩
  refine ⟨fun hshape => ?_, hrefused, fun hshape hcan => ?_⟩
  · rw [check_eq_ok_iff_usual]
    exact and_iff_right hshape
  · obtain ⟨error, herror, hhow⟩ := hrefused hshape
    cases hhow with
    | told fault _ => exact ⟨fault, herror⟩
    | untold _ unshown =>
        rw [faults?_check_eq_none shape hcan] at unshown
        cases unshown

end

/-- A configuration with a single target, named like its module, with some declarations. -/
def single (name : String) (declarations : List Json) : Json :=
  .object [("targets", .object [(name, .object
    [("module", .string name), ("declarations", .array declarations)])])]

/-- Two documents of the right shape: the path of a header is not blank in the first, which passes,
and blank in the second, which does not. -/
theorem check_agrees_with_shape_header :
    Usual (single "demo" [.object [("include", .string "a.h")]]) ∧
      check (single "demo" [.object [("include", .string " ")]]) ≠ .ok () := by
  have hfirst := (check_agrees_with_shape (single "demo" [.object [("include", .string "a.h")]])).1
    (by decide)
  have hsecond := (check_agrees_with_shape (single "demo" [.object [("include", .string " ")]])).1
    (by decide)
  refine ⟨hfirst.mp (by decide), fun hcheck => ?_⟩
  have husual := (hsecond.mp hcheck).declarations _ List.mem_cons_self _ List.mem_cons_self
  cases husual.path " " rfl

/-- A header with a key that no declaration has, which holds a number of more digits than can be
written. The first check does not look at the key, and the second one refuses the declaration with a
message that would show the number. So the document is not refused as a configuration. -/
theorem not_told_longNumeral :
    let document := single "demo"
      [.object [("include", .string "a.h"), ("page", .integer (Nat.pow 10 Numeral.digitLimit))]]
    shape.fits document = false ∧
      (check document).mapError Error.ofDocument = .error (.numeral .tooLongToWrite) := by
  constructor
  · decide +kernel
  · decide +kernel

end HeaderBind.Config
