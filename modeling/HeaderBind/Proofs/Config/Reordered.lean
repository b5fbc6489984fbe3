import HeaderBind.Proofs.Draft.Replay
import HeaderBind.Proofs.Json.Reordered

/-!
# `HeaderBind.Proofs.Config.Reordered`: configurations up to the order of keys

Two documents that are equal up to the order of their keys are checked in different orders: targets
come in the order of the document, and what is reported first depends on it. Whether anything is
reported does not (`check_iff_of_reordered`), since both checks together ask for a shape and for
usual declarations, and neither of these sees an order.

What is read from a checked configuration does not depend on the order either. Targets are found by
their names and their names are sorted (`find_reordered`, `names_eq_of_reordered`), and whatever is
a setting is a text, a switch or a list of texts, and so the same in both documents. Declarations
are compared through the items that they are written for: both say the same.
-/

set_option autoImplicit false

namespace HeaderBind

open Json (Reordered)

/-! ### Shapes -/

namespace Schema

/-- Items that are related in step are of a shape together. -/
theorem all_eq_of_forall₂ {P : Json → Bool} {items others : List Json}
    (h : List.Forall₂ Reordered items others)
    (hP : ∀ item other, Reordered item other → P item = P other) :
    items.all P = others.all P := by
  induction h with
  | nil => rfl
  | cons hfirst _ ih => rw [List.all_cons, List.all_cons, hP _ _ hfirst, ih]

/-- The values of related objects are of a shape together. -/
theorem all_values_iff {P : Json → Bool} {fields others : List (String × Json)}
    (h : Reordered (.object fields) (.object others))
    (hP : ∀ value other, Reordered value other → P value = P other) :
    (∀ field ∈ fields, P field.2 = true) ↔ ∀ field ∈ others, P field.2 = true := by
  constructor
  · intro hall field hfield
    obtain ⟨value, hvalue, hrelated⟩ := h.exists_of_mem hfield
    rw [← hP _ _ hrelated]
    exact hall _ hvalue
  · intro hall field hfield
    obtain ⟨other, hother, hrelated⟩ := h.symm.exists_of_mem hfield
    rw [← hP _ _ hrelated]
    exact hall _ hother

mutual

/-- A shape does not see the order of keys. -/
theorem fits_eq_of_reordered (schema : Schema) {first second : Json}
    (h : Reordered first second) : schema.fits first = schema.fits second := by
  match schema with
  | .text form => cases h <;> rfl
  | .flag => cases h <;> rfl
  | .choice allowed => cases h <;> rfl
  | .list least item =>
      cases h with
      | array length each =>
          have hitems := Reordered.forall₂ (.array length each)
          rw [fits, fits, length, all_eq_of_forall₂ hitems fun _ _ hrelated =>
            fits_eq_of_reordered item hrelated]
      | _ => rfl
  | .record required closed fields =>
      cases h with
      | object nodup keys each =>
          have hobject := Reordered.object nodup keys each
          have hsome : ∀ key, (Entries.get? _ key).isSome = (Entries.get? _ key).isSome :=
            fun key => Reordered.isSome_eq_of_rel (hobject.get? key)
          simp only [fits, hsome, keys.all_eq, fitsFields_eq_of_reordered fields hobject]
      | _ => rfl
  | .table least entry =>
      cases h with
      | @object given others nodup keys each =>
          have hlength : given.length = others.length := by
            simpa [Entries.keys] using keys.length_eq
          have hvalues := all_values_iff (P := fits entry) (.object nodup keys each)
            fun _ _ hrelated => fits_eq_of_reordered entry hrelated
          rw [fits, fits, hlength, Bool.eq_iff_iff]
          simp only [Bool.and_eq_true, List.all_eq_true, hvalues]
      | _ => rfl
  | .oneOf alternatives => rw [fits, fits, fitCount_eq_of_reordered alternatives h]

theorem fitsFields_eq_of_reordered (fields : List (String × Schema))
    {given others : List (String × Json)} (h : Reordered (.object given) (.object others)) :
    fitsFields fields given = fitsFields fields others := by
  match fields with
  | [] => rfl
  | (key, schema) :: fields =>
      rw [fitsFields, fitsFields, fitsFields_eq_of_reordered fields h]
      rcases Reordered.none_or_some (h.get? key) with
        ⟨hvalue, hother⟩ | ⟨value, other, hvalue, hother, hrelated⟩
      · rw [hvalue, hother]
      · rw [hvalue, hother, Option.all_some, Option.all_some,
          fits_eq_of_reordered schema hrelated]

theorem fitCount_eq_of_reordered (schemas : List Schema) {first second : Json}
    (h : Reordered first second) : fitCount schemas first = fitCount schemas second := by
  match schemas with
  | [] => rfl
  | schema :: schemas =>
      rw [fitCount, fitCount, fits_eq_of_reordered schema h, fitCount_eq_of_reordered schemas h]

end

end Schema

namespace Config

variable {first second : Json}

/-! ### Declarations -/

theorem kindsOf_eq_of_reordered (h : Reordered first second) : kindsOf first = kindsOf second :=
  List.filter_congr fun kind _ => Reordered.isSome_eq_of_rel (h.field? kind)

/-- A setting is a text, a switch or a list of texts. -/
theorem Item.rigid_of_mem_settings {item : Item} {setting : String × Option Json}
    (h : setting ∈ item.settings) : ∀ value ∈ setting.2, value.Rigid := by
  have htext : ∀ (text? : Option String), ∀ value ∈ text?.map Json.string, value.Rigid := by
    intro text? value hvalue
    obtain ⟨text, -, rfl⟩ := Option.map_eq_some_iff.mp hvalue
    exact Json.rigid_string text
  have hswitch : ∀ (switch? : Option Bool), ∀ value ∈ switch?.map Json.bool, value.Rigid := by
    intro switch? value hvalue
    obtain ⟨switch, -, rfl⟩ := Option.map_eq_some_iff.mp hvalue
    exact Json.rigid_bool switch
  have htexts : ∀ texts : List String, (Json.array (texts.map .string)).Rigid := fun texts =>
    Json.rigid_array (List.forall_mem_map.mpr fun text _ => Json.rigid_string text)
  cases item with
  | header path isLocal =>
      simp only [settings, List.mem_cons, List.not_mem_nil, or_false] at h
      rcases h with rfl | rfl
      · exact htext (some path)
      · exact hswitch isLocal
  | mode chosen =>
      simp only [settings, List.mem_cons, List.not_mem_nil, or_false] at h
      subst h
      exact htext (some chosen.name)
  | constant source exposed =>
      simp only [settings, List.mem_cons, List.not_mem_nil, or_false] at h
      rcases h with rfl | rfl
      · exact htext (some source)
      · exact htext exposed
  | struct name members encoder decoder hasTail =>
      simp only [settings, List.mem_cons, List.not_mem_nil, or_false] at h
      rcases h with rfl | rfl | rfl | rfl | rfl
      · exact htext (some name)
      · rintro value hvalue
        cases hvalue
        exact htexts members
      · exact htext encoder
      · exact htext decoder
      · exact hswitch hasTail

/-- What a declaration says does not depend on the order of its keys. -/
theorem Written.reordered {item : Item} (h : Written first item)
    (hreordered : Reordered first second) : Written second item where
  kinds := kindsOf_eq_of_reordered hreordered ▸ h.kinds
  settings setting hsetting :=
    hreordered.field?_eq (h.settings setting hsetting) (Item.rigid_of_mem_settings hsetting)

/-- A text stands under a key in both documents. -/
theorem field?_string_of_reordered (h : Reordered first second) {key text : String}
    (htext : first.field? key = some (.string text)) :
    second.field? key = some (.string text) := by
  refine h.field?_eq htext ?_
  rintro value hvalue
  cases hvalue
  exact Json.rigid_string text

theorem UsualDeclaration.reordered (h : UsualDeclaration first)
    (hreordered : Reordered first second) : UsualDeclaration second where
  path path hpath := h.path path (field?_string_of_reordered hreordered.symm hpath)
  mode hmode := h.mode (field?_string_of_reordered hreordered.symm hmode)

/-! ### Documents -/

/-- Declarations are in an array, and so in one order. -/
theorem declarations_reordered (h : Reordered first second) :
    List.Forall₂ Reordered (declarations first) (declarations second) := by
  unfold declarations
  rcases Reordered.none_or_some (h.field? "declarations") with
    ⟨hvalue, hother⟩ | ⟨value, other, hvalue, hother, hrelated⟩
  · rw [hvalue, hother]
    exact .nil
  · rw [hvalue, hother]
    cases hrelated with
    | array length each => exact Reordered.forall₂ (.array length each)
    | _ => exact .nil

theorem reordered_nil : Reordered (.object []) (.object []) :=
  .object List.nodup_nil (List.Perm.refl _) nofun

/-- The targets are the same, in some order. -/
theorem targets_reordered (h : Reordered first second) :
    Reordered (.object (targets first)) (.object (targets second)) := by
  unfold targets
  rcases Reordered.none_or_some (h.field? "targets") with
    ⟨hvalue, hother⟩ | ⟨value, other, hvalue, hother, hrelated⟩
  · rw [hvalue, hother]
    exact reordered_nil
  · rw [hvalue, hother]
    cases hrelated with
    | object nodup keys each => exact .object nodup keys each
    | _ => exact reordered_nil

theorem Usual.reordered (h : Usual first) (hreordered : Reordered first second) :
    Usual second where
  named target htarget := by
    obtain ⟨value, hvalue, -⟩ := (targets_reordered hreordered).exists_of_mem htarget
    exact h.named (target.1, value) hvalue
  declarations target htarget decl hdecl := by
    obtain ⟨value, hvalue, hrelated⟩ := (targets_reordered hreordered).exists_of_mem htarget
    obtain ⟨own, hown, hsame⟩ :=
      Reordered.exists_of_mem_items (declarations_reordered hrelated) hdecl
    exact (h.declarations (target.1, value) hvalue own hown).reordered hsame

/-- A document passes the check exactly when it does so with its keys in another order. -/
theorem check_iff_of_reordered [Interpreter] (h : Reordered first second) :
    check first = .ok () ↔ check second = .ok () := by
  rw [check_eq_ok_iff_usual, check_eq_ok_iff_usual, Schema.fits_eq_of_reordered shape h]
  exact and_congr_right fun _ => ⟨fun husual => husual.reordered h,
    fun husual => husual.reordered h.symm⟩

end Config

/-! ### Targets -/

namespace Target

variable {config other : Json}

/-- A search for a target ends alike: it fails for the same reason, or finds the same target. -/
theorem find_reordered (h : Reordered config other) (name : Option String) :
    (∃ fault, find config name = .error fault ∧ find other name = .error fault) ∨
      ∃ target target', find config name = .ok target ∧ find other name = .ok target' ∧
        Reordered target target' := by
  unfold find
  rcases Reordered.none_or_some (h.field? "targets") with
    ⟨hvalue, hvalue'⟩ | ⟨value, value', hvalue, hvalue', hrelated⟩
  · rw [hvalue, hvalue']
    exact .inl ⟨_, rfl, rfl⟩
  · rw [hvalue, hvalue']
    cases hrelated with
    | @object targets targets' nodup keys each =>
        -- The names that a message lists are sorted.
        have hknown := Json.sortTexts_eq_of_perm nodup keys
        have hfound : Option.Rel Reordered (name.bind (Entries.get? targets))
            (name.bind (Entries.get? targets')) := by
          cases name with
          | none => exact .none
          | some name => exact Reordered.get? (.object nodup keys each) name
        simp only [hknown]
        rcases Reordered.none_or_some hfound with
          ⟨hnone, hnone'⟩ | ⟨target, target', htarget, htarget', hsame⟩
        · rw [hnone, hnone']
          exact .inl ⟨_, rfl, rfl⟩
        · rw [htarget, htarget']
          cases hsame with
          | object nodup keys each => exact .inr ⟨_, _, rfl, rfl, .object nodup keys each⟩
          | _ => exact .inl ⟨_, rfl, rfl⟩
    | _ => exact .inl ⟨_, rfl, rfl⟩

/-- The targets to work on are the same, and in the same order. -/
theorem names_eq_of_reordered (h : Reordered config other) (name : Option String) :
    names config name = names other name := by
  have hall : names.all config = names.all other := by
    unfold names.all
    rcases Reordered.none_or_some (h.field? "targets") with
      ⟨hvalue, hvalue'⟩ | ⟨value, value', hvalue, hvalue', hrelated⟩
    · rw [hvalue, hvalue']
    · rw [hvalue, hvalue']
      cases hrelated with
      | @object targets targets' nodup keys each =>
          have hsorted := Json.sortTexts_eq_of_perm nodup keys
          cases targets with
          | nil =>
              cases targets' with
              | nil => rfl
              | cons target' targets' => exact absurd keys.length_eq (by simp [Entries.keys])
          | cons target targets =>
              cases targets' with
              | nil => exact absurd keys.length_eq (by simp [Entries.keys])
              | cons target' targets' => exact congrArg Except.ok hsorted
      | _ => rfl
  cases name with
  | none => exact hall
  | some chosen =>
      rw [names, names, hall]
      rcases find_reordered h (some chosen) with ⟨fault, hfind, hfind'⟩ | ⟨_, _, hfind, hfind', -⟩
      · rw [hfind, hfind']
      · rw [hfind, hfind']
        rfl

/-- A target that is found in a checked configuration has the shape of one. -/
theorem fits_of_find [Interpreter] {target : Json} {name : Option String}
    (hcheck : Config.check config = .ok ()) (h : find config name = .ok target) :
    Config.targetShape.fits target = true ∧
      ∀ decl ∈ Config.declarations target, Config.UsualDeclaration decl := by
  obtain ⟨hshape, husual⟩ := Config.check_eq_ok_iff_usual.mp hcheck
  obtain ⟨htargets, -, hall⟩ := Config.targets_of_fits hshape
  rw [find, htargets] at h
  simp only at h
  split at h
  · rename_i fields hfields
    cases h
    obtain ⟨key, -, hkey⟩ := Option.bind_eq_some_iff.mp hfields
    have hmem := Entries.mem_of_get? hkey
    exact ⟨hall _ hmem, husual.declarations _ hmem⟩
  · cases h

section Settings

variable {target target' : Json}

theorem moduleName_eq_of_reordered (h : Reordered target target')
    (hfits : Config.targetShape.fits target = true) : moduleName target = moduleName target' := by
  obtain ⟨⟨module, hmodule, -⟩, -⟩ := Config.target_of_fits hfits
  rw [moduleName, moduleName, hmodule, Config.field?_string_of_reordered h hmodule]

theorem outputPath_eq_of_reordered (h : Reordered target target')
    (hfits : Config.targetShape.fits target = true) (root : Path)
    (workingDirectory : List String) (given : Option String) :
    outputPath target root workingDirectory given
      = outputPath target' root workingDirectory given := by
  have hconfigured : (target.field? "output_path").bind Json.nonEmptyText?
      = (target'.field? "output_path").bind Json.nonEmptyText? := by
    rcases Reordered.none_or_some (h.field? "output_path") with
      ⟨hvalue, hvalue'⟩ | ⟨value, value', hvalue, hvalue', hrelated⟩
    · rw [hvalue, hvalue']
    · rw [hvalue, hvalue']
      exact hrelated.nonEmptyText?_eq
  unfold outputPath outputPathOn
  rw [hconfigured, moduleName_eq_of_reordered h hfits]

/-- A list of texts is in an array, and read in order. -/
theorem textItems_eq_of_forall₂ {items others : List Json} (h : List.Forall₂ Reordered items others)
    (place : String) (index : Nat) :
    Config.textItems place index items = Config.textItems place index others := by
  induction h generalizing index with
  | nil => rfl
  | cons hfirst _ ih =>
      rw [Config.textItems, Config.textItems, hfirst.nonEmptyText?_eq, ih]

theorem textList_eq_of_rel {value value' : Option Json} (h : Option.Rel Reordered value value')
    (place : String) : Config.textList place value = Config.textList place value' := by
  cases h with
  | none => rfl
  | some hrelated =>
      cases hrelated with
      | array length each =>
          exact textItems_eq_of_forall₂ (Reordered.forall₂ (.array length each)) place 0
      | _ => rfl

theorem isObject_eq_of_reordered (h : Reordered target target') :
    Config.isObject target = Config.isObject target' := by
  cases h <;> rfl

/-- The toolchain of a target: the compiler is a text, and everything else is a list of texts. -/
theorem toolchain_eq_of_reordered (h : Reordered target target')
    (hfits : Config.targetShape.fits target = true) (root : Path)
    (workingDirectory : List String) :
    toolchain target root workingDirectory = toolchain target' root workingDirectory := by
  have hsettings : ∃ settings settings',
      (target.given? "toolchain").getD (.object []) = settings ∧
        (target'.given? "toolchain").getD (.object []) = settings' ∧
        Reordered settings settings' ∧
        ∀ value ∈ settings.field? "compiler", value.Rigid := by
    obtain ⟨given, rfl, -, -, hfields⟩ := Schema.fits_record_iff.mp hfits
    rcases Reordered.none_or_some (h.given? "toolchain") with
      ⟨hvalue, hvalue'⟩ | ⟨settings, settings', hvalue, hvalue', hrelated⟩
    · rw [hvalue, hvalue']
      exact ⟨_, _, rfl, rfl, Config.reordered_nil, nofun⟩
    · rw [hvalue, hvalue']
      refine ⟨_, _, rfl, rfl, hrelated, ?_⟩
      have hshape := hfields ("toolchain", Config.toolchainShape) (by simp) settings
        (Config.field?_of_given? hvalue)
      obtain ⟨keys, rfl, -, -, hkeys⟩ := Schema.fits_record_iff.mp hshape
      intro value hcompiler
      obtain ⟨text, rfl, -⟩ := Schema.fits_text_iff.mp
        (hkeys ("compiler", .text .nonEmpty) (by simp) value hcompiler)
      exact Json.rigid_string text
  obtain ⟨settings, settings', hown, hown', hrelated, hcompiler⟩ := hsettings
  have htexts : ∀ place key, Config.textList place (settings.field? key)
      = Config.textList place (settings'.field? key) := fun place key =>
    textList_eq_of_rel (hrelated.field? key) place
  unfold toolchain
  simp only [hown, hown', isObject_eq_of_reordered hrelated, htexts,
    hrelated.field?_eq rfl hcompiler]

end Settings

end Target

/-! ### Drafts -/

namespace Draft

variable {config other : Json}

/-- Declarations that say the same are replayed alike. -/
theorem replay_eq_of_reordered [Interpreter] {decls others : List Json}
    (h : List.Forall₂ Reordered decls others)
    (hshape : ∀ decl ∈ decls, Config.declarationShape.fits decl = true)
    (husual : ∀ decl ∈ decls, Config.UsualDeclaration decl) (draft : Draft) :
    replay draft decls = replay draft others := by
  induction h generalizing draft with
  | nil => rfl
  | cons hfirst _ ih =>
      obtain ⟨hdecl, hdecls⟩ := List.forall_mem_cons.mp hshape
      obtain ⟨husualDecl, husualDecls⟩ := List.forall_mem_cons.mp husual
      obtain ⟨item, hwritten, hfits⟩ := Config.exists_item hdecl husualDecl
      rw [replay, replay, replayOne_of_written hwritten hfits,
        replayOne_of_written (hwritten.reordered hfirst) hfits]
      exact congrArg _ (funext fun next => ih hdecls husualDecls next)

/-- The draft of a target of a checked configuration does not depend on the order of keys. -/
theorem ofTarget_eq_of_reordered [Interpreter] (h : Reordered config other)
    (hcheck : Config.check config = .ok ()) (name : String) (label : Option String) :
    ofTarget config name label = ofTarget other name label := by
  unfold ofTarget
  rcases Target.find_reordered h (some name) with
    ⟨fault, hfind, hfind'⟩ | ⟨target, target', hfind, hfind', hrelated⟩
  · rw [hfind, hfind']
  · obtain ⟨hfits, husual⟩ := Target.fits_of_find hcheck hfind
    obtain ⟨-, hdeclarations, -, hshape⟩ := Config.target_of_fits hfits
    have hfits' : Config.targetShape.fits target' = true := by
      rw [← Schema.fits_eq_of_reordered _ hrelated, hfits]
    obtain ⟨-, hdeclarations', -⟩ := Config.target_of_fits hfits'
    rw [hfind, hfind']
    show (start _ _ _).mapError _ >>= _ = (start _ _ _).mapError _ >>= _
    rw [Target.moduleName_eq_of_reordered hrelated hfits, hdeclarations, hdeclarations']
    exact congrArg _ (funext fun draft =>
      replay_eq_of_reordered (Config.declarations_reordered hrelated) hshape husual draft)

end Draft

end HeaderBind
