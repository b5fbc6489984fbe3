import Mathlib.Data.List.Forall2
import HeaderBind.Draft.Replay
import HeaderBind.Proofs.Config.Check
import HeaderBind.Proofs.Draft.Clash

/-!
# `HeaderBind.Proofs.Draft.Replay`: what a checked target comes to

The check of a configuration, its shape, and the draft each look at names in their own way. What is
left to go wrong when a checked target is replayed are naming conflicts, and a conflict depends on
the declarations in front of it.

`replayed` is the draft that the items of a target come to if nothing is in the way, read off the
items. `placeOutcome_place` is the step: from the draft of some items the next one leads to the
draft of these and that one, or clashes with the declarations of these. `replayOutcome_replay` is
the run, by induction on the items that are left; the items that are done are generalised, and with
them what is known of their declarations, that none clashes with those in front of it (`Clear`).
-/

set_option autoImplicit false

namespace HeaderBind

open Declaration (MemberEntry numericKind)

namespace Config.Item

/-- The header that an item includes. -/
def header? : Item → Option Include
  | header path isLocal => some ⟨Text.trim path, isLocal.getD false⟩
  | _ => none

/-- The declaration that an item makes under a mode. -/
def declaration? (mode : ExportMode) : Item → Option Declaration
  | constant source exposed => some (.constant ⟨source, chosenName exposed source, mode⟩)
  | struct name members encoder decoder hasTail =>
    some (.struct (Struct.ofNames name members encoder decoder (hasTail.getD false) mode))
  | _ => none

/-- The mode in force behind an item. -/
def nextMode (mode : ExportMode) : Item → ExportMode
  | .mode chosen => chosen
  | _ => mode

end Config.Item

namespace Draft

open Config (Item Written)

/-- The headers that items include. -/
def included (items : List Item) : List Include :=
  items.filterMap Item.header?

/-- The mode in force behind items: the last one that they switch to, else the one in front. -/
def modeAfter (mode : ExportMode) (items : List Item) : ExportMode :=
  items.foldl Item.nextMode mode

/-- The declarations that items make, each under the mode in force at its place. -/
def declared : ExportMode → List Item → List Declaration
  | _, [] => []
  | mode, item :: items =>
    (item.declaration? mode).toList ++ declared (item.nextMode mode) items

/-- The draft that items come to in a new module. -/
def replayed (module label : String) (items : List Item) : Draft where
  name := some module
  label := label
  outputPath := none
  includes := included items
  declarations := declared .onRequest items
  mode := modeAfter .onRequest items
  keys := (declared .onRequest items).map Declaration.key
  symbols := reservedSymbols ++ (declared .onRequest items).flatMap Declaration.boundNames

/-- No declaration clashes with those in front of it. -/
def Clear (module : String) (declarations : List Declaration) : Prop :=
  ∀ earlier d later fault, declarations = earlier ++ d :: later →
    ¬ Clash (some module) earlier d fault

/-- A conflict is a fault of the configuration: it is told by names, and no value has to be
shown. -/
theorem ofDraft_of_clash {draft : Option String} {earlier : List Declaration} {d : Declaration}
    {fault : Fault} (h : Clash draft earlier d fault) :
    Error.ofDraft fault = .configuration (.draft fault) := by
  cases h with
  | unfit unfit => cases unfit <;> rfl
  | repeatedKey _ => rfl
  | takenSymbol _ _ => rfl

/-- The first clash: those in front of the declaration are clear. -/
def FirstClash (module : String) (declarations : List Declaration) (fault : Fault) : Prop :=
  ∃ earlier d later, declarations = earlier ++ d :: later ∧ Clear module earlier ∧
    Clash (some module) earlier d fault

/-! ### What one more item adds -/

theorem declared_append (mode : ExportMode) (items rest : List Item) :
    declared mode (items ++ rest)
      = declared mode items ++ declared (modeAfter mode items) rest := by
  induction items generalizing mode with
  | nil => rfl
  | cons item items ih =>
      rw [List.cons_append, declared, declared, ih, List.append_assoc]
      rfl

theorem declared_concat (mode : ExportMode) (items : List Item) (item : Item) :
    declared mode (items ++ [item])
      = declared mode items ++ (item.declaration? (modeAfter mode items)).toList := by
  rw [declared_append, declared, declared, List.append_nil]

/-- One more declaration leads to the draft with one more declaration in its book. -/
theorem replayed_concat_of_declaration? {module label : String} {done : List Item} {item : Item}
    {d : Declaration} (h : item.declaration? (modeAfter .onRequest done) = some d) :
    replayed module label (done ++ [item]) = (replayed module label done).extended d := by
  have hdeclared : declared .onRequest (done ++ [item]) = declared .onRequest done ++ [d] := by
    rw [declared_concat, h, Option.toList_some]
  -- An item with a declaration includes nothing and leaves the mode as it is.
  have hheader : item.header? = none := by
    cases item <;> first | rfl | cases h
  have hmode : ∀ mode, item.nextMode mode = mode := by
    intro mode
    cases item <;> first | rfl | cases h
  simp only [replayed, extended, hdeclared, included, modeAfter, List.filterMap_append,
    List.filterMap_cons, hheader, List.filterMap_nil, List.append_nil, List.foldl_append,
    List.foldl_cons, List.foldl_nil, hmode, List.map_append, List.map_cons, List.map_nil,
    List.flatMap_append, List.flatMap_cons, List.flatMap_nil, List.append_assoc]

theorem Clear.concat {module : String} {declarations : List Declaration} {d : Declaration}
    (h : Clear module declarations)
    (hd : ∀ fault, ¬ Clash (some module) declarations d fault) :
    Clear module (declarations ++ [d]) := by
  intro earlier other later fault hsplit hclash
  -- The declaration at hand is the new one, or it stands among those that were there.
  rcases List.eq_nil_or_concat later with rfl | ⟨before, last, rfl⟩
  · obtain ⟨rfl, hlast⟩ := List.append_inj' hsplit rfl
    cases hlast
    exact hd fault hclash
  · rw [List.concat_eq_append, ← List.cons_append, ← List.append_assoc] at hsplit
    obtain ⟨rfl, -⟩ := List.append_inj' hsplit rfl
    exact h earlier other before fault rfl hclash

/-- The name of a structure that items make is a trimmed one. -/
theorem trimmed_of_mem_declared {mode : ExportMode} {items : List Item} {s : Struct}
    (h : .struct s ∈ declared mode items) : ∃ owner, Text.trim owner = s.name := by
  induction items generalizing mode with
  | nil => cases h
  | cons item items ih =>
      rcases List.mem_append.mp h with hitem | hrest
      · cases item with
        | struct name members encoder decoder hasTail =>
            obtain rfl := Declaration.struct.inj (List.mem_singleton.mp hitem)
            exact ⟨name, rfl⟩
        | constant source exposed => cases List.mem_singleton.mp hitem
        | _ => cases hitem
      · exact ih hrest

/-- The declarations of items are clear exactly when none is in conflict with those in front. -/
theorem not_clear_iff (module : String) {items : List Item} :
    ¬ Clear module (declared .onRequest items)
      ↔ ∃ earlier d later, declared .onRequest items = earlier ++ d :: later ∧
        Conflicts earlier d := by
  have hclash : ∀ {earlier d later}, declared .onRequest items = earlier ++ d :: later →
      ((∃ fault, Clash (some module) earlier d fault) ↔ Conflicts earlier d) := by
    intro earlier d later hsplit
    -- Items make structures with trimmed names, which is what messages about them rely on.
    refine exists_clash_iff fun s hs => ?_
    have hmem : .struct s ∈ declared .onRequest items := by
      rw [hsplit, ← hs]
      exact List.mem_append_right _ List.mem_cons_self
    exact trimmed_of_mem_declared hmem
  constructor
  · intro hnot
    refine Classical.byContradiction fun hnone => hnot fun earlier d later fault hsplit h => ?_
    exact hnone ⟨earlier, d, later, hsplit, (hclash hsplit).mp ⟨fault, h⟩⟩
  · rintro ⟨earlier, d, later, hsplit, hconflicts⟩ hclear
    obtain ⟨fault, h⟩ := (hclash hsplit).mpr hconflicts
    exact hclear earlier d later fault hsplit h

theorem not_clear_of_firstClash {module : String} {declarations : List Declaration}
    {fault : Fault} (h : FirstClash module declarations fault) : ¬ Clear module declarations := by
  obtain ⟨earlier, d, later, hsplit, -, hclash⟩ := h
  exact fun hclear => hclear earlier d later fault hsplit hclash

/-! ### One item -/

/-- What a draft does with an item. -/
def place (draft : Draft) : Item → Except Fault Draft
  | .header path isLocal => (draft.addInclude path (isLocal.getD false)).map Prod.snd
  | .mode chosen => .ok (draft.setMode chosen)
  | .constant source exposed => (draft.addConstant source exposed).map Prod.snd
  | .struct name members encoder decoder hasTail =>
    (draft.addStruct name (members.map (.named · numericKind)) encoder decoder
      (hasTail.getD false)).map Prod.snd

/-- What can become of an item behind those that are done: it leads on, or it makes a declaration
that clashes with theirs. -/
inductive PlaceOutcome (module label : String) (done : List Item) (item : Item) :
    Except Fault Draft → Prop
  | on (free : ∀ d, item.declaration? (modeAfter .onRequest done) = some d →
      ∀ fault, ¬ Clash (some module) (declared .onRequest done) d fault) :
      PlaceOutcome module label done item (.ok (replayed module label (done ++ [item])))
  | clash {d : Declaration} {fault : Fault}
      (declares : item.declaration? (modeAfter .onRequest done) = some d)
      (clash : Clash (some module) (declared .onRequest done) d fault) :
      PlaceOutcome module label done item (.error fault)

/-- To declare a constant is to make it and to register it. -/
theorem addConstant_map_snd (draft : Draft) (source : String) (exposed : Option String) :
    (draft.addConstant source exposed).map Prod.snd
      = ((Constant.make source exposed draft.mode).mapError .declaration >>= fun c =>
          draft.register (.constant c)) := by
  rw [(addConstant_spec source exposed).2]
  cases Constant.make source exposed draft.mode with
  | error fault => rfl
  | ok c =>
      show ((draft.register (.constant c)) >>= fun next => Except.ok (c, next)).map Prod.snd = _
      cases hregister : draft.register (.constant c) <;> exact hregister.symm

theorem addStruct_map_snd (draft : Draft) (name : String) (members : List MemberEntry)
    (encoder decoder : Option String) (hasTail : Bool) :
    (draft.addStruct name members encoder decoder hasTail).map Prod.snd
      = ((Struct.make name members draft.mode encoder decoder hasTail).mapError .declaration >>=
          fun s => draft.register (.struct s)) := by
  rw [(addStruct_spec name members encoder decoder hasTail).2]
  cases Struct.make name members draft.mode encoder decoder hasTail with
  | error fault => rfl
  | ok s =>
      show ((draft.register (.struct s)) >>= fun next => Except.ok (s, next)).map Prod.snd = _
      cases hregister : draft.register (.struct s) <;> exact hregister.symm

/-- An item that makes a declaration leads on or clashes, as the making and the registration have
it. -/
theorem placeOutcome_of_make {α : Type} {module label : String} {done : List Item} {item : Item}
    {wrap : α → Declaration} {a : α} {made : Except Declaration.Fault α}
    (hdeclares : item.declaration? (modeAfter .onRequest done) = some (wrap a))
    (hmade : (made = .ok a ∧ ∀ fault, ¬ (wrap a).Unfit fault) ∨
      ∃ fault, made = .error fault ∧ (wrap a).Unfit fault) :
    PlaceOutcome module label done item
      (made.mapError .declaration >>= fun a => (replayed module label done).register (wrap a)) := by
  rcases hmade with ⟨rfl, hfit⟩ | ⟨fault, rfl, hunfit⟩
  · -- What was made is left to the registration, whose book is the one of the items.
    show PlaceOutcome module label done item ((replayed module label done).register (wrap a))
    rcases register_cases (replayed module label done) rfl rfl hfit with
      ⟨hok, hfree⟩ | ⟨fault, herror, hclash⟩
    · rw [hok, ← replayed_concat_of_declaration? hdeclares]
      refine .on fun d hd => ?_
      cases hdeclares.symm.trans hd
      exact hfree
    · rw [herror]
      exact .clash hdeclares hclash
  · exact .clash hdeclares (.unfit hunfit)

/-- The step of the replay. -/
theorem placeOutcome_place {module label : String} {done : List Item} {item : Item}
    (hfits : item.Fits) :
    PlaceOutcome module label done item (place (replayed module label done) item) := by
  -- Headers and modes declare nothing, so they always lead on.
  cases item with
  | header path isLocal =>
      have hpath : Text.isBlankText path = false := hfits
      have hplace : place (replayed module label done) (.header path isLocal)
          = .ok (replayed module label (done ++ [.header path isLocal])) := by
        rw [place, (addInclude_spec path (isLocal.getD false)).2, hpath]
        simp [replayed, included, modeAfter, declared_concat, Item.header?, Item.declaration?,
          Item.nextMode, Except.map]
      rw [hplace]
      exact .on fun _ hd => nomatch hd
  | mode chosen =>
      have hplace : place (replayed module label done) (.mode chosen)
          = .ok (replayed module label (done ++ [.mode chosen])) := by
        simp [place, setMode, replayed, included, modeAfter, declared_concat, Item.header?,
          Item.declaration?, Item.nextMode]
      rw [hplace]
      exact .on fun _ hd => nomatch hd
  | constant source exposed =>
      rw [place, addConstant_map_snd]
      exact placeOutcome_of_make rfl (Constant.make_cases hfits.1 hfits.2)
  | struct name members encoder decoder hasTail =>
      obtain ⟨hname, hne, hmembers, hencoder, hdecoder⟩ := hfits
      rw [place, addStruct_map_snd]
      exact placeOutcome_of_make rfl (Struct.make_cases hname hne hmembers hencoder hdecoder)

/-! ### From the document to the items -/

theorem textField?_of_written {decl : Json} {key s : String}
    (h : decl.field? key = some (.string s)) : (textField? decl key).getD "" = s := by
  rw [textField?, h]
  rfl

theorem switchField_of_written {decl : Json} {key : String} {setting : Option Bool}
    (h : decl.field? key = setting.map .bool) : switchField decl key = setting.getD false := by
  rw [switchField, h]
  rcases setting with _ | _ | _ <;> rfl

theorem chosenField?_of_written {decl : Json} {key : String} {setting : Option String}
    (h : decl.field? key = setting.map .string)
    (hname : ∀ name ∈ setting, Name.isName name = true) : chosenField? decl key = setting := by
  rw [chosenField?, h]
  cases setting with
  | none => rfl
  | some name =>
      -- An empty text would count as one that was left out, but it is no name.
      have hne := Name.ne_empty_of_isName (hname name rfl)
      exact if_neg fun hempty => hne (String.isEmpty_iff.mp hempty)

theorem isOfKind_of_written {decl : Json} {item : Item} (h : Written decl item) (kind : String)
    (hkind : kind ∈ Config.declarationKinds) : isOfKind decl kind = decide (kind = item.kind) := by
  by_cases hsame : kind = item.kind
  · rw [hsame, decide_eq_true rfl]
    exact (Config.isSome_field?_of_kindsOf h.kinds).2
  · rw [isOfKind, Config.field?_eq_none_of_kindsOf h.kinds hkind hsame, decide_eq_false hsame]
    rfl

/-- An array of names lists these, also if there are none. -/
theorem memberEntries_strings [Interpreter] (members : List String) :
    memberEntries (.array (members.map .string)) = .ok (members.map (.named · numericKind)) := by
  cases members with
  | nil => rfl
  | cons member members =>
      show Except.ok (((member :: members).map Json.string).map memberEntry) = _
      rw [List.map_map]
      rfl

/-- To replay a declaration is to do what it says. -/
theorem replayOne_of_written [Interpreter] {draft : Draft} {decl : Json} {item : Item}
    (h : Written decl item) (hfits : item.Fits) :
    replayOne draft decl = (place draft item).mapError .ofDraft := by
  simp only [replayOne, isOfKind_of_written h "include" (by decide),
    isOfKind_of_written h "export" (by decide), isOfKind_of_written h "constant" (by decide),
    isOfKind_of_written h "structure" (by decide)]
  have hsettings := h.settings
  cases item with
  | header path isLocal =>
      simp only [Item.settings, List.forall_mem_cons] at hsettings
      obtain ⟨hpath, hlocal, -⟩ := hsettings
      rw [textField?_of_written hpath, switchField_of_written hlocal]
      rfl
  | mode chosen =>
      simp only [Item.settings, List.forall_mem_cons] at hsettings
      rw [textField?_of_written hsettings.1]
      cases chosen <;> rfl
  | constant source exposed =>
      simp only [Item.settings, List.forall_mem_cons] at hsettings
      obtain ⟨hsource, hexposed, -⟩ := hsettings
      rw [textField?_of_written hsource, chosenField?_of_written hexposed hfits.2]
      rfl
  | struct name members encoder decoder hasTail =>
      simp only [Item.settings, List.forall_mem_cons] at hsettings
      obtain ⟨hname, hmembers, hencoder, hdecoder, htail, -⟩ := hsettings
      obtain ⟨-, -, -, hencoderName, hdecoderName⟩ := hfits
      have hentries : memberEntries ((decl.field? "members").getD .null)
          = .ok (members.map (.named · numericKind)) := by
        rw [hmembers]
        exact memberEntries_strings members
      rw [textField?_of_written hname, hentries, chosenField?_of_written hencoder hencoderName,
        chosenField?_of_written hdecoder hdecoderName, switchField_of_written htail]
      rfl

/-! ### The run -/

/-- What can become of a target with some items: all of them lead to their draft, or the first clash
is reported. -/
inductive ReplayOutcome (module label : String) (items : List Item) : Except Error Draft → Prop
  | all (clear : Clear module (declared .onRequest items)) :
      ReplayOutcome module label items (.ok (replayed module label items))
  | clash {fault : Fault} (first : FirstClash module (declared .onRequest items) fault) :
      ReplayOutcome module label items (.error (.ofDraft fault))

/-- Items that lead on stay clear of each other. -/
theorem clear_concat_of_free {module : String} {done : List Item} {item : Item}
    (h : Clear module (declared .onRequest done))
    (hfree : ∀ d, item.declaration? (modeAfter .onRequest done) = some d →
      ∀ fault, ¬ Clash (some module) (declared .onRequest done) d fault) :
    Clear module (declared .onRequest (done ++ [item])) := by
  rw [declared_concat]
  cases hd : item.declaration? (modeAfter .onRequest done) with
  | none => simpa using h
  | some d => exact h.concat (hfree d hd)

/-- The run of the replay, from the draft of the items that are done. -/
theorem replayOutcome_replay [Interpreter] {module label : String} {decls : List Json}
    {items done : List Item}
    (h : List.Forall₂ (fun decl item => Written decl item ∧ item.Fits) decls items)
    (hclear : Clear module (declared .onRequest done)) :
    ReplayOutcome module label (done ++ items) (replay (replayed module label done) decls) := by
  induction h generalizing done with
  | nil =>
      rw [List.append_nil]
      exact .all hclear
  | @cons decl item decls items hitem _ ih =>
      have houtcome :
          PlaceOutcome module label done item (place (replayed module label done) item) :=
        placeOutcome_place hitem.2
      rw [replay, replayOne_of_written hitem.1 hitem.2]
      generalize place (replayed module label done) item = result at houtcome ⊢
      cases houtcome with
      | on free =>
          have hsplit : done ++ item :: items = (done ++ [item]) ++ items := by simp
          rw [hsplit]
          exact ih (clear_concat_of_free hclear free)
      | @clash d fault declares clash =>
          -- The run ends here; the items behind only say what would have come.
          refine .clash ⟨declared .onRequest done, d,
            declared (item.nextMode (modeAfter .onRequest done)) items, ?_, hclear, clash⟩
          rw [declared_append, declared, declares]
          rfl

/-- The usual declarations of the right shape say something, each of them. -/
theorem exists_items {decls : List Json}
    (hshape : ∀ decl ∈ decls, Config.declarationShape.fits decl = true)
    (husual : ∀ decl ∈ decls, Config.UsualDeclaration decl) :
    ∃ items, List.Forall₂ (fun decl item => Written decl item ∧ item.Fits) decls items := by
  induction decls with
  | nil => exact ⟨[], .nil⟩
  | cons decl decls ih =>
      obtain ⟨hdecl, hdecls⟩ := List.forall_mem_cons.mp hshape
      obtain ⟨husualDecl, husualDecls⟩ := List.forall_mem_cons.mp husual
      obtain ⟨item, hitem⟩ := Config.exists_item hdecl husualDecl
      obtain ⟨items, hitems⟩ := ih hdecls husualDecls
      exact ⟨item :: items, .cons hitem hitems⟩

/-- A target of a checked configuration is found, and its items decide what becomes of it. -/
theorem replayOutcome_ofTarget [Interpreter] {config : Json}
    (hcheck : Config.check config = .ok ())
    {name : String} (hname : name ∈ Entries.keys (Config.targets config)) (label : Option String) :
    ∃ target module items, Target.find config (some name) = .ok target ∧
      target.field? "module" = some (.string module) ∧ Name.isModuleName module = true ∧
      List.Forall₂ (fun decl item => Written decl item ∧ item.Fits) (Config.declarations target)
        items ∧
      ReplayOutcome module (chosenName label s!"target '{name}'") items
        (ofTarget config name label) := by
  obtain ⟨hshape, husual⟩ := Config.check_eq_ok_iff_usual.mp hcheck
  obtain ⟨htargets, -, hall⟩ := Config.targets_of_fits hshape
  obtain ⟨target, htarget⟩ :=
    Option.isSome_iff_exists.mp (Entries.isSome_get?_iff.mpr hname)
  have hmem := Entries.mem_of_get? htarget
  obtain ⟨⟨module, hmodule, hmoduleName⟩, hdeclarations, -, hdecls⟩ :=
    Config.target_of_fits (hall _ hmem)
  obtain ⟨items, hitems⟩ := exists_items hdecls (husual.declarations _ hmem)
  have hfind : Target.find config (some name) = .ok target := by
    -- What is found has to be an object, and a value with a key is one.
    simp only [Target.find, htargets, Option.bind_some, htarget]
    cases target with
    | object fields => rfl
    | _ => cases hmodule
  -- The first thing is a new module, and its draft is the one that no items come to.
  have hstart : start (some (Target.moduleName target)) (chosenName label s!"target '{name}'") none
      = .ok (replayed module (chosenName label s!"target '{name}'") []) := by
    have hplain : Target.moduleName target = module := by
      rw [Target.moduleName, hmodule]
      rfl
    have hnotPending : (empty none (chosenName label s!"target '{name}'") none).isPending = false :=
      rfl
    rw [hplain]
    exact rename_eq_ok_iff.mpr ⟨hnotPending, hmoduleName, rfl⟩
  have hrun : ofTarget config name label
      = replay (replayed module (chosenName label s!"target '{name}'") [])
          (Config.declarations target) := by
    rw [ofTarget, hfind]
    show (start _ _ _).mapError Error.ofDraft >>= _ = _
    rw [hstart, hdeclarations]
    rfl
  refine ⟨target, module, items, hfind, hmodule, hmoduleName, hitems, ?_⟩
  have hclear : Clear module (declared .onRequest []) := by
    intro earlier d later fault hsplit
    exact absurd hsplit (by simp [declared])
  rw [hrun]
  exact replayOutcome_replay hitems hclear

/-- A checked configuration can only fail for naming conflicts. A target of it is refused exactly
when one of its declarations is in conflict with those in front of it, and then the first of these
is what is reported; otherwise the draft is the one that its items come to. -/
theorem ofTarget_of_check [Interpreter] {config : Json} (hcheck : Config.check config = .ok ())
    {name : String} (hname : name ∈ Entries.keys (Config.targets config)) (label : Option String) :
    ∃ target module items, Target.find config (some name) = .ok target ∧
      target.field? "module" = some (.string module) ∧
      List.Forall₂ Written (Config.declarations target) items ∧
      ((∃ error, ofTarget config name label = .error error)
        ↔ ∃ earlier d later, declared .onRequest items = earlier ++ d :: later ∧
          Conflicts earlier d) ∧
      (∀ error, ofTarget config name label = .error error →
        ∃ fault, error = .configuration (.draft fault) ∧
          FirstClash module (declared .onRequest items) fault) ∧
      ∀ draft, ofTarget config name label = .ok draft →
        draft = replayed module (chosenName label s!"target '{name}'") items := by
  obtain ⟨target, module, items, hfind, hmodule, -, hitems, houtcome⟩ :=
    replayOutcome_ofTarget hcheck hname label
  refine ⟨target, module, items, hfind, hmodule, hitems.imp fun _ _ h => h.1, ?_⟩
  rw [← not_clear_iff module]
  generalize ofTarget config name label = result at houtcome ⊢
  cases houtcome with
  | all clear =>
      refine ⟨⟨?_, fun h => absurd clear h⟩, ?_, ?_⟩
      · rintro ⟨error, h⟩
        cases h
      · intro error h
        cases h
      · intro draft h
        cases h
        rfl
  | @clash fault first =>
      refine ⟨⟨fun _ => not_clear_of_firstClash first, fun _ => ⟨_, rfl⟩⟩, ?_, ?_⟩
      · intro error h
        cases h
        have ⟨_, _, _, _, _, hclash⟩ := first
        exact ⟨fault, ofDraft_of_clash hclash, first⟩
      · intro draft h
        cases h

/-- A configuration with a constant whose name the encoding routine of a structure has. -/
def clashingConfig : Json :=
  Config.single "demo" [
    .object [("structure", .string "struct point"), ("members", .array [.string "x"])],
    .object [("export", .string "default")],
    .object [("constant", .string "encode_point")]]

theorem ofTarget_of_check_clashingConfig :
    (Config.check clashingConfig = .ok () ∧
        "demo" ∈ Entries.keys (Config.targets clashingConfig)) ∧
      ∃ module items, FirstClash module (declared .onRequest items)
        (.takenSymbol "encode_point" (some "demo")) := by
  have hcheck : Config.check clashingConfig = .ok () := by decide +kernel
  have hname : "demo" ∈ Entries.keys (Config.targets clashingConfig) := by decide
  have hrun : ofTarget clashingConfig "demo" none
      = .error (.ofDraft (.takenSymbol "encode_point" (some "demo"))) := by decide +kernel
  obtain ⟨target, module, items, -, -, -, -, herror, -⟩ := ofTarget_of_check hcheck hname none
  obtain ⟨fault, heq, hfirst⟩ := herror _ hrun
  cases heq
  exact ⟨⟨hcheck, hname⟩, module, items, hfirst⟩

end Draft

end HeaderBind
