import HeaderBind.Proofs.Draft.Names
import HeaderBind.Proofs.Name

/-!
# `HeaderBind.Proofs.Draft.Clash`: naming conflicts

A declaration whose names have the right forms can be refused for its names alone: one of them is a
reserved word, the two routines of a structure or two of its members have one name (`Unfit`), its
key is there already, or one of the names it binds is taken (`Clash`). Each conflict comes with what
is said about it.

`Constant.make_cases`, `Struct.make_cases` and `Draft.register_cases` say that these conflicts are
the only refusals, and that a declaration without one is accepted. Each lemma gives both ways out
with all that is known there, so nothing that follows opens the checks again.
-/

set_option autoImplicit false

namespace HeaderBind

open Declaration (MemberEntry numericKind)

/-- What about the names of a single declaration is refused. Messages show the name of a structure
as it was given, before trimming. -/
inductive Declaration.Unfit : Declaration → Declaration.Fault → Prop
  | exposedKeyword {c : Constant} (keyword : Name.isKeyword c.exposed = true) :
      Unfit (.constant c) (.exposedName c.source c.exposed)
  | routineKeyword {s : Struct} {owner routine : String} (trimmed : Text.trim owner = s.name)
      (isRoutine : routine ∈ [s.encoder, s.decoder]) (keyword : Name.isKeyword routine = true) :
      Unfit (.struct s) (.routineName owner routine)
  | sameRoutine {s : Struct} {owner : String} (trimmed : Text.trim owner = s.name)
      (same : s.encoder = s.decoder) : Unfit (.struct s) (.sameRoutine owner s.encoder)
  | repeatedMember {s : Struct} {owner member : String} (trimmed : Text.trim owner = s.name)
      (twice : 2 ≤ s.members.count member) : Unfit (.struct s) (.repeatedMember owner member)

/-- Why a declaration cannot follow earlier ones in the draft of a name. -/
inductive Draft.Clash (draft : Option String) (earlier : List Declaration) :
    Declaration → Draft.Fault → Prop
  | unfit {d : Declaration} {fault : Declaration.Fault} (unfit : d.Unfit fault) :
      Clash draft earlier d (.declaration fault)
  | repeatedKey {d : Declaration} (repeated : d.key ∈ earlier.map Declaration.key) :
      Clash draft earlier d (.repeatedKey d.key draft)
  | takenSymbol {d : Declaration} {symbol : String} (bound : symbol ∈ d.boundNames)
      (taken : symbol ∈ Draft.reservedSymbols ++ earlier.flatMap Declaration.boundNames) :
      Clash draft earlier d (.takenSymbol symbol draft)

/-- A declaration that is in conflict with its own names or with earlier declarations, whatever is
said about it. -/
def Draft.Conflicts (earlier : List Declaration) (d : Declaration) : Prop :=
  (∃ name ∈ d.exportedNames, Name.isKeyword name = true) ∨
    (∃ s, d = .struct s ∧ (s.encoder = s.decoder ∨ ¬ s.members.Nodup)) ∨
    d.key ∈ earlier.map Declaration.key ∨
    ∃ symbol ∈ d.boundNames,
      symbol ∈ Draft.reservedSymbols ++ earlier.flatMap Declaration.boundNames

/-- A conflict is one that something is said about, given that the name of a structure is one that
was trimmed. -/
theorem Draft.exists_clash_iff {draft : Option String} {earlier : List Declaration}
    {d : Declaration} (howner : ∀ s, d = .struct s → ∃ owner, Text.trim owner = s.name) :
    (∃ fault, Clash draft earlier d fault) ↔ Conflicts earlier d := by
  constructor
  · -- What is said about a declaration tells which conflict it is.
    rintro ⟨fault, hunfit | hrepeated | ⟨hbound, htaken⟩⟩
    · cases hunfit with
      | exposedKeyword keyword => exact Or.inl ⟨_, List.mem_singleton_self _, keyword⟩
      | routineKeyword _ isRoutine keyword => exact Or.inl ⟨_, isRoutine, keyword⟩
      | sameRoutine _ same => exact Or.inr (Or.inl ⟨_, rfl, Or.inl same⟩)
      | repeatedMember _ twice =>
          refine Or.inr (Or.inl ⟨_, rfl, Or.inr fun hnodup => ?_⟩)
          exact Nat.not_le.mpr twice (List.nodup_iff_count.mp hnodup _)
    · exact Or.inr (Or.inr (Or.inl hrepeated))
    · exact Or.inr (Or.inr (Or.inr ⟨_, hbound, htaken⟩))
  · rintro (⟨name, hname, hkeyword⟩ | ⟨s, rfl, hstruct⟩ | hkey | ⟨symbol, hbound, htaken⟩)
    · cases d with
      | constant c =>
          rw [List.mem_singleton.mp hname] at hkeyword
          exact ⟨_, .unfit (.exposedKeyword hkeyword)⟩
      | struct s =>
          obtain ⟨owner, hown⟩ := howner s rfl
          exact ⟨_, .unfit (.routineKeyword hown hname hkeyword)⟩
    · obtain ⟨owner, hown⟩ := howner s rfl
      rcases hstruct with hsame | hrepeated
      · exact ⟨_, .unfit (.sameRoutine hown hsame)⟩
      · -- The message names a member, so one that comes twice has to be found.
        have htwice : ∃ member, 2 ≤ s.members.count member := by
          refine Classical.byContradiction fun hnone => hrepeated (List.nodup_iff_count.mpr ?_)
          exact fun member => Nat.lt_succ_iff.mp (Nat.not_le.mp fun h => hnone ⟨member, h⟩)
        obtain ⟨member, hmember⟩ := htwice
        exact ⟨_, .unfit (.repeatedMember hown hmember)⟩
    · exact ⟨_, .repeatedKey hkey⟩
    · exact ⟨_, .takenSymbol hbound htaken⟩

/-! ### Constants -/

/-- A name that was chosen or left to the default has a form if both have it. -/
theorem chosenName_of_forall {P : String → Prop} {given : Option String} {fallback : String}
    (hgiven : ∀ name ∈ given, P name) (hfallback : P fallback) :
    P (chosenName given fallback) := by
  cases given with
  | none => exact hfallback
  | some name =>
      show P (if name.isEmpty then fallback else name)
      split
      · exact hfallback
      · exact hgiven name rfl

/-- A name can be bound unless it is a reserved word. -/
theorem Name.isBindable_of_isName {s : String} (h : isName s = true) :
    isBindable s = !isKeyword s := by
  rw [isBindable, h, Bool.true_and]

/-- The constant of names in the right form is made, unless it would have a reserved word for its
name. -/
theorem Constant.make_cases {source : String} {exposed : Option String} {mode : ExportMode}
    (hsource : Name.isName source = true) (hexposed : ∀ name ∈ exposed, Name.isName name = true) :
    let c : Constant := ⟨source, chosenName exposed source, mode⟩
    (make source exposed mode = .ok c ∧ ∀ fault, ¬ (Declaration.constant c).Unfit fault) ∨
      ∃ fault, make source exposed mode = .error fault ∧ (Declaration.constant c).Unfit fault := by
  intro c
  have hbindable := Name.isBindable_of_isName (chosenName_of_forall hexposed hsource)
  have hmake : make source exposed mode
      = if Name.isKeyword c.exposed then .error (.exposedName source c.exposed) else .ok c := by
    simp only [make, hsource, hbindable, Bool.not_true, Bool.false_eq_true, if_false, Bool.not_not]
    rfl
  by_cases hkeyword : Name.isKeyword c.exposed = true
  · exact Or.inr ⟨_, by rw [hmake, if_pos hkeyword], .exposedKeyword hkeyword⟩
  · refine Or.inl ⟨by rw [hmake, if_neg hkeyword], ?_⟩
    rintro fault ⟨h⟩
    exact hkeyword h

/-! ### Structures -/

namespace Struct

/-- Members whose names have the right form are accepted unless one of them comes twice. -/
theorem checkMembers_cases (owner : String) {seen members : List String} (hseen : seen.Nodup)
    (hnames : ∀ member ∈ members, Name.isName member = true) :
    (checkMembers owner seen (members.map (.named · numericKind)) = .ok members ∧
        (seen ++ members).Nodup) ∨
      ∃ member, checkMembers owner seen (members.map (.named · numericKind))
          = .error (.repeatedMember owner member) ∧ 2 ≤ (seen ++ members).count member := by
  induction members generalizing seen with
  | nil => exact Or.inl ⟨rfl, by simpa using hseen⟩
  | cons member members ih =>
      have hname := hnames member List.mem_cons_self
      have hrest : ∀ other ∈ members, Name.isName other = true := fun other hother =>
        hnames other (List.mem_cons_of_mem member hother)
      simp only [List.map_cons, checkMembers, ne_eq, not_true_eq_false, if_false, hname,
        Bool.not_true, Bool.false_eq_true, List.contains_iff_mem]
      by_cases hmem : member ∈ seen
      · -- Once in front and once here.
        refine Or.inr ⟨member, if_pos hmem, ?_⟩
        have hseenCount : 1 ≤ seen.count member := List.one_le_count_iff.mpr hmem
        rw [List.count_append, List.count_cons_self]
        omega
      · rw [if_neg hmem]
        -- The member joins those in front of the rest, and the rest is looked at against them.
        have hnext : (seen ++ [member]).Nodup :=
          List.nodup_append.mpr ⟨hseen, List.pairwise_singleton _ member, by
            intro earlier hearlier last hlast heq
            exact hmem (List.mem_singleton.mp hlast ▸ heq ▸ hearlier)⟩
        have hsplit : seen ++ member :: members = (seen ++ [member]) ++ members := by simp
        rw [hsplit]
        rcases ih hnext hrest with ⟨hok, hnodup⟩ | ⟨other, herror, hcount⟩
        · exact Or.inl ⟨by rw [hok]; rfl, hnodup⟩
        · exact Or.inr ⟨other, by rw [herror]; rfl, hcount⟩

/-- Of two names in the right form the first reserved word is refused. -/
theorem badRoutine?_cases {encoder decoder : String} (hencoder : Name.isName encoder = true)
    (hdecoder : Name.isName decoder = true) :
    (badRoutine? encoder decoder = none ∧
        ∀ routine ∈ [encoder, decoder], Name.isKeyword routine = false) ∨
      ∃ routine, badRoutine? encoder decoder = some routine ∧ routine ∈ [encoder, decoder] ∧
        Name.isKeyword routine = true := by
  have hforms : ∀ routine ∈ [encoder, decoder],
      (!Name.isBindable routine) = Name.isKeyword routine := by
    intro routine hroutine
    have hname : Name.isName routine = true := by
      simp only [List.mem_cons, List.not_mem_nil, or_false] at hroutine
      rcases hroutine with rfl | rfl
      · exact hencoder
      · exact hdecoder
    rw [Name.isBindable_of_isName hname, Bool.not_not]
  cases hbad : badRoutine? encoder decoder with
  | none =>
      refine Or.inl ⟨rfl, fun routine hroutine => ?_⟩
      rw [← hforms routine hroutine]
      exact Bool.eq_false_iff.mpr (List.find?_eq_none.mp hbad routine hroutine)
  | some routine =>
      have hmem := List.mem_of_find?_eq_some hbad
      have hfound := List.find?_some hbad
      exact Or.inr ⟨routine, rfl, hmem, (hforms routine hmem).symm.trans hfound⟩

/-- The structure that is made from names when nothing is wrong with them. -/
def ofNames (name : String) (members : List String) (encoder decoder : Option String)
    (hasTail : Bool) (mode : ExportMode) : Struct where
  name := Text.trim name
  base := Name.structBase name
  members := members
  encoder := chosenName encoder s!"encode_{Name.structBase name}"
  decoder := chosenName decoder s!"decode_{Name.structBase name}"
  hasTail := hasTail
  mode := mode

/-- A routine that is named after the structure has a name in the right form. -/
theorem isName_default {verb base : String} (hverb : Name.isIdentifier verb.toList = true)
    (hbase : Name.isIdentifier base.toList = true) : Name.isName (verb ++ base) = true := by
  refine Name.isName_of_isIdentifier ?_
  rw [String.toList_append]
  cases hcs : verb.toList with
  | nil =>
      rw [hcs] at hverb
      cases hverb
  | cons c cs =>
      rw [hcs] at hverb
      have hboth : (Name.isStartChar c && cs.all Name.isNameChar) = true := hverb
      obtain ⟨hstart, hrest⟩ := Bool.and_eq_true_iff.mp hboth
      show (Name.isStartChar c && (cs ++ base.toList).all Name.isNameChar) = true
      rw [hstart, Bool.true_and, List.all_append, hrest, Bool.true_and]
      exact List.all_eq_true.mpr (Text.isNameChar_of_isIdentifier hbase).2

/-- Both routines have names in the right form, whether they were given or not. -/
theorem isName_routines_ofNames {name : String} {members : List String}
    {encoder decoder : Option String} {hasTail : Bool} {mode : ExportMode}
    (hname : Name.isStructName name = true)
    (hencoder : ∀ routine ∈ encoder, Name.isName routine = true)
    (hdecoder : ∀ routine ∈ decoder, Name.isName routine = true) :
    Name.isName (ofNames name members encoder decoder hasTail mode).encoder = true ∧
      Name.isName (ofNames name members encoder decoder hasTail mode).decoder = true := by
  have hbase := Name.isIdentifier_structBase hname
  exact ⟨chosenName_of_forall hencoder (isName_default (by decide) hbase),
    chosenName_of_forall hdecoder (isName_default (by decide) hbase)⟩

/-- The structure of names in the right form is made, unless something about the names alone is
wrong. -/
theorem make_cases {name : String} {members : List String} {encoder decoder : Option String}
    {hasTail : Bool} {mode : ExportMode} (hname : Name.isStructName name = true)
    (hne : members ≠ []) (hmembers : ∀ member ∈ members, Name.isName member = true)
    (hencoder : ∀ routine ∈ encoder, Name.isName routine = true)
    (hdecoder : ∀ routine ∈ decoder, Name.isName routine = true) :
    let entries := members.map (MemberEntry.named · numericKind)
    let s := ofNames name members encoder decoder hasTail mode
    (make name entries mode encoder decoder hasTail = .ok s ∧
        ∀ fault, ¬ (Declaration.struct s).Unfit fault) ∨
      ∃ fault, make name entries mode encoder decoder hasTail = .error fault ∧
        (Declaration.struct s).Unfit fault := by
  intro entries s
  have hbase : Name.isName (Name.structBase name) = true :=
    Name.isName_of_isIdentifier (Name.isIdentifier_structBase hname)
  obtain ⟨hencoderName, hdecoderName⟩ :
      Name.isName s.encoder = true ∧ Name.isName s.decoder = true :=
    isName_routines_ofNames hname hencoder hdecoder
  have hchosen : chosenName encoder s!"encode_{Name.structBase name}" = s.encoder ∧
      chosenName decoder s!"decode_{Name.structBase name}" = s.decoder := ⟨rfl, rfl⟩
  -- The checks are made in this order; where one of them fails, the conflict is the one it is for.
  rcases badRoutine?_cases hencoderName hdecoderName with ⟨hnone, hfree⟩ | ⟨routine, hbad, hmem, h⟩
  · by_cases hsame : s.encoder = s.decoder
    · refine Or.inr ⟨.sameRoutine name s.encoder, ?_, .sameRoutine rfl hsame⟩
      simp only [make, hbase, Bool.not_true, Bool.false_eq_true, if_false, hchosen, hnone,
        if_pos hsame]
    · rcases checkMembers_cases name List.nodup_nil hmembers with
        ⟨hok, hnodup⟩ | ⟨member, herror, hcount⟩
      · refine Or.inl ⟨?_, ?_⟩
        · exact make_eq_ok_iff.mpr
            ⟨rfl, rfl, rfl, rfl, rfl, rfl, hbase, hnone, hsame, hok, hne⟩
        · intro fault hunfit
          cases hunfit with
          | routineKeyword _ hroutine hkeyword =>
              rw [hfree _ hroutine] at hkeyword
              cases hkeyword
          | sameRoutine _ h => exact hsame h
          | repeatedMember _ htwice =>
              exact Nat.not_le.mpr htwice (List.nodup_iff_count.mp hnodup _)
      · refine Or.inr ⟨.repeatedMember name member, ?_, .repeatedMember rfl hcount⟩
        simp only [make, hbase, Bool.not_true, Bool.false_eq_true, if_false, hchosen, hnone,
          if_neg hsame, entries, herror]
  · refine Or.inr ⟨.routineName name routine, ?_, .routineKeyword rfl hmem h⟩
    simp only [make, hbase, Bool.not_true, Bool.false_eq_true, if_false, hchosen, hbad]

end Struct

/-! ### Registration -/

namespace Draft

/-- By a right book a declaration is registered, unless its key or one of its names is there
already. -/
theorem register_cases (draft : Draft) {d : Declaration}
    (hkeys : draft.keys = draft.declarations.map Declaration.key)
    (hsymbols : draft.symbols = draft.topNames) (hfit : ∀ fault, ¬ d.Unfit fault) :
    (draft.register d = .ok (draft.extended d) ∧
        ∀ fault, ¬ Clash draft.name draft.declarations d fault) ∨
      ∃ fault, draft.register d = .error fault ∧
        Clash draft.name draft.declarations d fault := by
  by_cases hkey : d.key ∈ draft.keys
  · -- The key is asked for first, so a name that is taken too is not what is reported.
    refine Or.inr ⟨.repeatedKey d.key draft.name, ?_, .repeatedKey (hkeys ▸ hkey)⟩
    rw [(register_spec d).2, if_pos (List.contains_iff_mem.mpr hkey)]
  · cases htaken : draft.taken? d with
    | some symbol =>
        have hbound := List.mem_of_find?_eq_some htaken
        have hin : symbol ∈ draft.topNames :=
          hsymbols ▸ List.contains_iff_mem.mp (List.find?_some htaken)
        refine Or.inr ⟨.takenSymbol symbol draft.name, ?_, .takenSymbol hbound hin⟩
        rw [(register_spec d).2, if_neg fun h => hkey (List.contains_iff_mem.mp h), htaken]
    | none =>
        have hfree : ∀ name ∈ d.boundNames, name ∉ draft.symbols := fun name hname hin =>
          List.find?_eq_none.mp htaken name hname (List.contains_iff_mem.mpr hin)
        refine Or.inl ⟨register_eq_ok_iff.mpr ⟨hkey, hfree, rfl⟩, fun fault hclash => ?_⟩
        cases hclash with
        | unfit unfit => exact hfit _ unfit
        | repeatedKey repeated => exact hkey (hkeys ▸ repeated)
        | takenSymbol bound taken =>
            refine hfree _ bound ?_
            rw [hsymbols]
            exact taken

end Draft

end HeaderBind
