import Mathlib.Data.List.Nodup
import HeaderBind.Config.Check
import HeaderBind.Proofs.Name
import HeaderBind.Proofs.Schema.Fits

/-!
# `HeaderBind.Proofs.Config.Item`: what a declaration of a configuration says

A declaration is an object of one of four kinds with settings. `Item` is what it says, and
`Written decl item` that a document value says it: the value is of this kind only, and under each
key of the kind stands the setting, or nothing where the setting is left out.

The shape of declarations allows a little more than can be used. `UsualDeclaration` is what has to
be asked besides: a path that is not blank, and no mode by its second name. `exists_item` says that
these two make a declaration readable, with every text in the form of its place.
-/

set_option autoImplicit false

namespace HeaderBind.Config

open Schema

/-- The targets of a document under their names. -/
def targets (document : Json) : Entries Json :=
  match document.field? "targets" with
  | some (.object fields) => fields
  | _ => []

/-- The declarations of a target. -/
def declarations (target : Json) : List Json :=
  match target.field? "declarations" with
  | some (.array items) => items
  | _ => []

/-- What a declaration says, by its kind. A setting that is left out is `none`. -/
inductive Item where
  | header (path : String) (isLocal : Option Bool)
  | mode (chosen : ExportMode)
  | constant (source : String) (exposed : Option String)
  | struct (name : String) (members : List String) (encoder decoder : Option String)
      (hasTail : Option Bool)
  deriving DecidableEq, Repr

namespace Item

/-- The key that tells the kind. -/
def kind : Item → String
  | header .. => "include"
  | mode .. => "export"
  | constant .. => "constant"
  | struct .. => "structure"

/-- What stands under the keys of the kind. -/
def settings : Item → List (String × Option Json)
  | header path isLocal => [("include", some (.string path)), ("local", isLocal.map .bool)]
  | mode chosen => [("export", some (.string chosen.name))]
  | constant source exposed =>
    [("constant", some (.string source)), ("name", exposed.map .string)]
  | struct name members encoder decoder hasTail =>
    [("structure", some (.string name)), ("members", some (.array (members.map .string))),
      ("encode_func", encoder.map .string), ("decode_func", decoder.map .string),
      ("with_tail", hasTail.map .bool)]

/-- The texts have the forms of their places. -/
def Fits : Item → Prop
  | header path _ => Text.isBlankText path = false
  | mode _ => True
  | constant source exposed =>
    Name.isName source = true ∧ ∀ name ∈ exposed, Name.isName name = true
  | struct name members encoder decoder _ =>
    Name.isStructName name = true ∧ members ≠ [] ∧ (∀ member ∈ members, Name.isName member = true) ∧
      (∀ routine ∈ encoder, Name.isName routine = true) ∧
      ∀ routine ∈ decoder, Name.isName routine = true

end Item

/-- The kinds that a declaration is of. -/
def kindsOf (decl : Json) : List String :=
  declarationKinds.filter fun kind => (decl.field? kind).isSome

/-- A document value that says what an item says. -/
structure Written (decl : Json) (item : Item) : Prop where
  kinds : kindsOf decl = [item.kind]
  settings : ∀ setting ∈ item.settings, decl.field? setting.1 = setting.2

/-- What the shape of a declaration leaves out. -/
structure UsualDeclaration (decl : Json) : Prop where
  /-- The path of a header is not blank. -/
  path : ∀ path, decl.field? "include" = some (.string path) → Text.isBlankText path = false
  /-- No mode is given by its second name. -/
  mode : decl.field? "export" ≠ some (.string "on-request")

/-- The shape of declarations. -/
def declarationShape : Schema :=
  oneOf [includeShape, exportShape, constantShape, structShape]

/-! ### Kinds -/

/-- A value with the key of one kind only is of this kind. -/
theorem kindsOf_eq_singleton {decl : Json} {kind : String} (hkind : kind ∈ declarationKinds)
    (hthere : (decl.field? kind).isSome = true)
    (hothers : ∀ other ∈ declarationKinds, other ≠ kind → decl.field? other = none) :
    kindsOf decl = [kind] := by
  have hnodup : declarationKinds.Nodup := by decide
  -- Asking for the key of a kind comes to asking for the kind, and no kind is listed twice.
  calc kindsOf decl
      = declarationKinds.filter (· == kind) := by
        refine List.filter_congr fun other hother => ?_
        by_cases hsame : other = kind
        · rw [hsame, hthere, beq_self_eq_true]
        · rw [hothers other hother hsame, beq_false_of_ne hsame]
          rfl
    _ = List.replicate (declarationKinds.count kind) kind := List.filter_beq kind
    _ = [kind] := by
        rw [List.count_eq_one_of_mem hnodup hkind]
        rfl

/-- A declaration of a single kind has no key of another one. -/
theorem field?_eq_none_of_kindsOf {decl : Json} {kind other : String}
    (h : kindsOf decl = [kind]) (hother : other ∈ declarationKinds) (hne : other ≠ kind) :
    decl.field? other = none := by
  refine Option.not_isSome_iff_eq_none.mp fun hthere => hne ?_
  have hmem : other ∈ kindsOf decl := List.mem_filter.mpr ⟨hother, hthere⟩
  rw [h] at hmem
  exact List.mem_singleton.mp hmem

/-- The key of the only kind is there. -/
theorem isSome_field?_of_kindsOf {decl : Json} {kind : String} (h : kindsOf decl = [kind]) :
    kind ∈ declarationKinds ∧ (decl.field? kind).isSome = true := by
  have hmem : kind ∈ kindsOf decl := by
    rw [h]
    exact List.mem_singleton_self kind
  exact List.mem_filter.mp hmem

/-- An object that knows the key of one kind only, and has it, is of this kind. -/
theorem kindsOf_of_known {given : List (String × Json)} {kind : String} {known : List String}
    (hthere : ∃ inner, Entries.get? given kind = some inner)
    (hknown : ∀ key, key ∉ known → Entries.get? given key = none)
    (hkind : kind ∈ declarationKinds)
    (hothers : ∀ other ∈ declarationKinds, other ≠ kind → other ∉ known) :
    kindsOf (.object given) = [kind] :=
  kindsOf_eq_singleton hkind (Option.isSome_iff_exists.mpr hthere) fun other hother hne =>
    hknown other (hothers other hother hne)

/-! ### Settings -/

/-- A setting that may be left out is read as one, if whatever stands there is. -/
theorem exists_setting {α : Type} {make : α → Json} {P : α → Prop} {value? : Option Json}
    (h : ∀ inner, value? = some inner → ∃ a, inner = make a ∧ P a) :
    ∃ setting : Option α, value? = setting.map make ∧ ∀ a ∈ setting, P a := by
  cases value? with
  | none => exact ⟨none, rfl, fun _ hmem => nomatch hmem⟩
  | some inner =>
      obtain ⟨a, rfl, ha⟩ := h inner rfl
      refine ⟨some a, rfl, fun other hother => ?_⟩
      cases hother
      exact ha

theorem exists_flag {value? : Option Json}
    (h : ∀ inner, value? = some inner → fits .flag inner = true) :
    ∃ setting : Option Bool, value? = setting.map .bool := by
  obtain ⟨setting, hsetting, -⟩ := exists_setting (P := fun _ : Bool => True)
    fun inner hinner => (fits_flag_iff.mp (h inner hinner)).imp fun _ hb => ⟨hb, trivial⟩
  exact ⟨setting, hsetting⟩

theorem exists_text {form : TextForm} {value? : Option Json}
    (h : ∀ inner, value? = some inner → fits (.text form) inner = true) :
    ∃ setting : Option String, value? = setting.map .string ∧ ∀ s ∈ setting, form.admits s = true :=
  exists_setting fun inner hinner => fits_text_iff.mp (h inner hinner)

/-- Texts of one form are read as a list of them. -/
theorem exists_texts {form : TextForm} {values : List Json}
    (h : ∀ value ∈ values, fits (.text form) value = true) :
    ∃ texts : List String, values = texts.map .string ∧ ∀ s ∈ texts, form.admits s = true := by
  induction values with
  | nil => exact ⟨[], rfl, fun _ hmem => nomatch hmem⟩
  | cons value values ih =>
      obtain ⟨s, rfl, hs⟩ := fits_text_iff.mp (h value List.mem_cons_self)
      obtain ⟨texts, rfl, htexts⟩ := ih fun other hother => h other (List.mem_cons_of_mem _ hother)
      exact ⟨s :: texts, rfl, List.forall_mem_cons.mpr ⟨hs, htexts⟩⟩

/-- A text that a record requires is there in its form. -/
theorem exists_required_text {form : TextForm} {value? : Option Json}
    (hthere : ∃ inner, value? = some inner)
    (h : ∀ inner, value? = some inner → fits (.text form) inner = true) :
    ∃ s, value? = some (.string s) ∧ form.admits s = true := by
  obtain ⟨inner, hinner⟩ := hthere
  obtain ⟨s, rfl, hs⟩ := fits_text_iff.mp (h inner hinner)
  exact ⟨s, hinner, hs⟩

/-! ### The four shapes -/

theorem exists_header {decl : Json} (h : includeShape.fits decl = true)
    (husual : UsualDeclaration decl) : ∃ item, Written decl item ∧ item.Fits := by
  obtain ⟨given, rfl, hrequired, hknown, hfields⟩ := fits_record_iff.mp h
  obtain ⟨path, hpath, -⟩ :=
    exists_required_text (hrequired "include" (by decide))
      (hfields ("include", .text .nonEmpty) (by simp))
  obtain ⟨isLocal, hlocal⟩ := exists_flag (hfields ("local", .flag) (by simp))
  refine ⟨.header path isLocal, ⟨?_, ?_⟩, husual.path path hpath⟩
  · show kindsOf _ = ["include"]
    exact kindsOf_of_known ⟨_, hpath⟩ (hknown rfl) (by decide) (by decide)
  · simp only [Item.settings, List.forall_mem_cons]
    exact ⟨hpath, hlocal, fun _ hmem => nomatch hmem⟩

theorem exists_mode {decl : Json} (h : exportShape.fits decl = true)
    (husual : UsualDeclaration decl) : ∃ item, Written decl item ∧ item.Fits := by
  obtain ⟨given, rfl, hrequired, hknown, hfields⟩ := fits_record_iff.mp h
  obtain ⟨inner, hinner⟩ := hrequired "export" (by decide)
  obtain ⟨name, rfl, hname⟩ :=
    fits_choice_iff.mp (hfields (_, .choice _) List.mem_cons_self inner hinner)
  -- Of the four names one is the second name of a mode.
  have hmode : ∃ mode : ExportMode, name = mode.name := by
    simp only [List.mem_cons, List.not_mem_nil, or_false] at hname
    rcases hname with rfl | rfl | rfl | rfl
    · exact ⟨.hidden, rfl⟩
    · exact ⟨.always, rfl⟩
    · exact ⟨.onRequest, rfl⟩
    · exact absurd hinner husual.mode
  obtain ⟨mode, rfl⟩ := hmode
  refine ⟨.mode mode, ⟨?_, ?_⟩, trivial⟩
  · show kindsOf _ = ["export"]
    exact kindsOf_of_known ⟨_, hinner⟩ (hknown rfl) (by decide) (by decide)
  · simp only [Item.settings, List.forall_mem_cons]
    exact ⟨hinner, fun _ hmem => nomatch hmem⟩

theorem exists_constant {decl : Json} (h : constantShape.fits decl = true) :
    ∃ item, Written decl item ∧ item.Fits := by
  obtain ⟨given, rfl, hrequired, hknown, hfields⟩ := fits_record_iff.mp h
  obtain ⟨source, hsource, hsourceName⟩ :=
    exists_required_text (hrequired "constant" (by decide))
      (hfields ("constant", .text .identifier) (by simp))
  obtain ⟨exposed, hexposed, hexposedName⟩ :=
    exists_text (hfields ("name", .text .identifier) (by simp))
  refine ⟨.constant source exposed, ⟨?_, ?_⟩, hsourceName, hexposedName⟩
  · show kindsOf _ = ["constant"]
    exact kindsOf_of_known ⟨_, hsource⟩ (hknown rfl) (by decide) (by decide)
  · simp only [Item.settings, List.forall_mem_cons]
    exact ⟨hsource, hexposed, fun _ hmem => nomatch hmem⟩

theorem exists_struct {decl : Json} (h : structShape.fits decl = true) :
    ∃ item, Written decl item ∧ item.Fits := by
  obtain ⟨given, rfl, hrequired, hknown, hfields⟩ := fits_record_iff.mp h
  obtain ⟨name, hname, hnameForm⟩ :=
    exists_required_text (hrequired "structure" (by decide))
      (hfields ("structure", .text .structName) (by simp))
  obtain ⟨inner, hinner⟩ := hrequired "members" (by decide)
  obtain ⟨values, rfl, hleast, hvalues⟩ :=
    fits_list_iff.mp (hfields ("members", .list 1 (.text .identifier)) (by simp) inner hinner)
  obtain ⟨members, rfl, hmembers⟩ := exists_texts hvalues
  obtain ⟨encoder, hencoder, hencoderName⟩ :=
    exists_text (hfields ("encode_func", .text .identifier) (by simp))
  obtain ⟨decoder, hdecoder, hdecoderName⟩ :=
    exists_text (hfields ("decode_func", .text .identifier) (by simp))
  obtain ⟨hasTail, htail⟩ := exists_flag (hfields ("with_tail", .flag) (by simp))
  -- The shape counts the values, and there are as many members.
  have hne : members ≠ [] := by
    rintro rfl
    cases hleast
  refine ⟨.struct name members encoder decoder hasTail, ⟨?_, ?_⟩, hnameForm, hne, hmembers,
    hencoderName, hdecoderName⟩
  · show kindsOf _ = ["structure"]
    exact kindsOf_of_known ⟨_, hname⟩ (hknown rfl) (by decide) (by decide)
  · simp only [Item.settings, List.forall_mem_cons]
    exact ⟨hname, hinner, hencoder, hdecoder, htail, fun _ hmem => nomatch hmem⟩

/-- A usual declaration of the right shape says something, and its texts have their forms. -/
theorem exists_item {decl : Json} (h : declarationShape.fits decl = true)
    (husual : UsualDeclaration decl) : ∃ item, Written decl item ∧ item.Fits := by
  obtain ⟨shape, hshape, hfits⟩ := exists_fits_of_oneOf h
  simp only [List.mem_cons, List.not_mem_nil, or_false] at hshape
  rcases hshape with rfl | rfl | rfl | rfl
  · exact exists_header hfits husual
  · exact exists_mode hfits husual
  · exact exists_constant hfits
  · exact exists_struct hfits

end HeaderBind.Config
