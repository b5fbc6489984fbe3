import HeaderBind.Proofs.Declaration
import HeaderBind.Proofs.Draft.Run

/-!
# `HeaderBind.Proofs.Draft.Names`: the names at the top of a module

A module binds some names for itself and then those of its declarations. A name bound twice would
silently lose its first meaning, so `register` keeps book of the names and refuses one that is
there already. `Booked` is what the book says of a draft, and `Reachable.booked` that it is right
for every draft that a run of commands comes to.

The book compares a new declaration with the earlier ones, and `Struct.make` compares the two
routines of a structure with each other. Nothing compares the routines with the format of the same
structure. `Reachable.topNames_nodup_iff` says that this is the only way for a name to be bound
twice: `HidesFormat` structures are accepted, and they alone collide.
-/

set_option autoImplicit false

namespace HeaderBind

/-- A structure one of whose routines has the name of its own format. -/
def Struct.HidesFormat (s : Struct) : Prop :=
  Struct.formatName s.base ∈ [s.encoder, s.decoder]

instance (s : Struct) : Decidable s.HidesFormat :=
  inferInstanceAs (Decidable (Struct.formatName s.base ∈ [s.encoder, s.decoder]))

/-- The names of a single structure differ from each other unless a routine hides the format. -/
theorem Struct.boundNames_nodup_iff {s : Struct} (hroutines : s.encoder ≠ s.decoder) :
    (Declaration.struct s).boundNames.Nodup ↔ ¬ s.HidesFormat := by
  show [s.encoder, s.decoder, Struct.formatName s.base].Nodup ↔ _
  simp only [List.nodup_cons, List.mem_cons, List.not_mem_nil, or_false, not_or, not_false_eq_true,
    List.nodup_nil, and_true, Struct.HidesFormat]
  constructor
  · rintro ⟨⟨_, hencoder⟩, hdecoder⟩
    exact ⟨Ne.symm hencoder, Ne.symm hdecoder⟩
  · rintro ⟨hencoder, hdecoder⟩
    exact ⟨⟨hroutines, Ne.symm hencoder⟩, Ne.symm hdecoder⟩

namespace Draft

/-- Every name at the top of the module: those that a module may bind for itself, then those of
the declarations. -/
def topNames (draft : Draft) : List String :=
  reservedSymbols ++ draft.declarations.flatMap Declaration.boundNames

/-- A declaration is registered exactly when its key and its names are new. -/
theorem register_eq_ok_iff {draft next : Draft} {declaration : Declaration} :
    draft.register declaration = .ok next
      ↔ declaration.key ∉ draft.keys ∧ (∀ name ∈ declaration.boundNames, name ∉ draft.symbols) ∧
        next = { draft with
          declarations := draft.declarations ++ [declaration]
          keys := draft.keys ++ [declaration.key]
          symbols := draft.symbols ++ declaration.boundNames } := by
  have hfree : draft.taken? declaration = none
      ↔ ∀ name ∈ declaration.boundNames, name ∉ draft.symbols := by
    simp only [taken?, List.find?_eq_none, List.contains_iff_mem]
  rw [(register_spec declaration).2]
  by_cases hkey : declaration.key ∈ draft.keys
  · rw [if_pos (List.contains_iff_mem.mpr hkey)]
    exact ⟨fun h => (nomatch h), fun h => absurd hkey h.1⟩
  · rw [if_neg fun h => hkey (List.contains_iff_mem.mp h)]
    rw [← hfree]
    cases draft.taken? declaration with
    | some symbol => exact ⟨fun h => (nomatch h), fun h => (nomatch h.2.1)⟩
    | none =>
        constructor
        · rintro ⟨rfl⟩
          exact ⟨hkey, rfl, rfl⟩
        · rintro ⟨-, -, rfl⟩
          rfl

/-- What the book of a draft says. -/
structure Booked (draft : Draft) : Prop where
  /-- The keys are those of the declarations, in their order. -/
  keys : draft.keys = draft.declarations.map Declaration.key
  /-- No two declarations have a key in common. -/
  keys_nodup : draft.keys.Nodup
  /-- The taken names are those at the top of the module. -/
  symbols : draft.symbols = draft.topNames
  /-- No declaration binds a name that a module may bind for itself. -/
  unreserved : ∀ declaration ∈ draft.declarations, ∀ name ∈ declaration.boundNames,
    name ∉ reservedSymbols
  /-- No declaration binds a name of an earlier one. -/
  fresh : draft.declarations.Pairwise fun earlier later =>
    ∀ name ∈ later.boundNames, name ∉ earlier.boundNames
  /-- The two routines of a structure differ. -/
  routines : ∀ s, .struct s ∈ draft.declarations → s.encoder ≠ s.decoder

namespace Booked

theorem empty (name : Option String) (label : String) (outputPath : Option Path) :
    Booked (Draft.empty name label outputPath) where
  keys := rfl
  keys_nodup := List.nodup_nil
  symbols := (List.append_nil reservedSymbols).symm
  unreserved := fun _ h => nomatch h
  fresh := List.Pairwise.nil
  routines := fun _ h => nomatch h

/-- The book reads nothing but the declarations, the keys and the taken names. -/
theorem congr {draft next : Draft} (h : Booked draft)
    (hdeclarations : next.declarations = draft.declarations) (hkeys : next.keys = draft.keys)
    (hsymbols : next.symbols = draft.symbols) : Booked next := by
  obtain ⟨keys, keys_nodup, symbols, unreserved, fresh, routines⟩ := h
  refine ⟨?_, hkeys ▸ keys_nodup, ?_, hdeclarations ▸ unreserved, hdeclarations ▸ fresh,
    hdeclarations ▸ routines⟩
  · rw [hkeys, hdeclarations, keys]
  · rw [hsymbols, symbols, topNames, topNames, hdeclarations]

/-- The one step that writes into the book. -/
theorem register {draft next : Draft} {declaration : Declaration} (h : Booked draft)
    (hregister : draft.register declaration = .ok next)
    (hroutines : ∀ s, declaration = .struct s → s.encoder ≠ s.decoder) : Booked next := by
  obtain ⟨hkey, hfree, rfl⟩ := register_eq_ok_iff.mp hregister
  -- A name that is not taken is neither reserved nor bound by an earlier declaration.
  have hnew : ∀ name ∈ declaration.boundNames,
      name ∉ reservedSymbols ∧ ∀ earlier ∈ draft.declarations, name ∉ earlier.boundNames := by
    intro name hname
    have htop := hfree name hname
    rw [h.symbols, topNames, List.mem_append, not_or] at htop
    exact ⟨htop.1, fun earlier hearlier hbound =>
      htop.2 (List.mem_flatMap.mpr ⟨earlier, hearlier, hbound⟩)⟩
  refine ⟨?_, ?_, ?_, ?_, ?_, ?_⟩
  · show draft.keys ++ [declaration.key] = _
    rw [h.keys, List.map_append]
    rfl
  · show (draft.keys ++ [declaration.key]).Nodup
    refine List.nodup_append.mpr ⟨h.keys_nodup, List.nodup_cons.mpr ⟨List.not_mem_nil,
      List.nodup_nil⟩, ?_⟩
    intro key hmem other hother heq
    rw [List.mem_singleton] at hother
    exact hkey (hother ▸ heq ▸ hmem)
  · show draft.symbols ++ declaration.boundNames = _
    rw [h.symbols, topNames, topNames, List.flatMap_append, List.append_assoc]
    simp
  · intro other hother name hname
    rcases List.mem_append.mp hother with hearlier | hlast
    · exact h.unreserved other hearlier name hname
    · rw [List.mem_singleton.mp hlast] at hname
      exact (hnew name hname).1
  · refine List.pairwise_append.mpr ⟨h.fresh, List.pairwise_singleton _ _, ?_⟩
    intro earlier hearlier last hlast name hname
    rw [List.mem_singleton.mp hlast] at hname
    exact (hnew name hname).2 earlier hearlier
  · intro s hs
    rcases List.mem_append.mp hs with hearlier | hlast
    · exact h.routines s hearlier
    · exact hroutines s (List.mem_singleton.mp hlast).symm

/-- Whatever a command makes of a draft, the book stays right. -/
theorem step {draft next : Draft} (hstep : Step draft next) (h : Booked draft) : Booked next := by
  cases hstep with
  | stay => exact h
  | rename accepted =>
      obtain ⟨-, -, rfl⟩ := rename_eq_ok_iff.mp accepted
      exact h.congr rfl rfl rfl
  | addInclude accepted =>
      obtain ⟨-, -, rfl⟩ := addInclude_eq_ok_iff.mp accepted
      exact h.congr rfl rfl rfl
  | setMode mode => exact h.congr rfl rfl rfl
  | constant made registered => exact h.register registered fun _ hs => nomatch hs
  | struct made registered =>
      obtain ⟨_, _, _, _, _, _, _, _, hdiffer, _, _⟩ := Struct.make_eq_ok_iff.mp made
      refine h.register registered fun s hs => ?_
      cases hs
      exact hdiffer
  | clear => exact Booked.empty _ _ _

/-- The names that the declarations offer for export are pairwise distinct: with them the format
of a structure does not come in. -/
theorem exportedNames_nodup {draft : Draft} (h : Booked draft) :
    (draft.declarations.flatMap Declaration.exportedNames).Nodup := by
  have hbound : ∀ (declaration : Declaration) (name : String),
      name ∈ declaration.exportedNames → name ∈ declaration.boundNames :=
    fun _ _ hname => List.mem_append_left _ hname
  refine List.pairwise_flatMap.mpr ⟨?_, ?_⟩
  · intro declaration hmem
    cases declaration with
    | constant c => exact List.pairwise_singleton _ _
    | struct s =>
        show [s.encoder, s.decoder].Nodup
        simp [h.routines s hmem]
  · refine h.fresh.imp fun hfresh first hfirst second hsecond heq => ?_
    exact hfresh second (hbound _ _ hsecond) (heq ▸ hbound _ _ hfirst)

/-- By the book, a name can be bound twice within a single declaration only. -/
theorem nodup_iff_each {draft : Draft} (h : Booked draft) :
    draft.topNames.Nodup
      ↔ ∀ declaration ∈ draft.declarations, declaration.boundNames.Nodup := by
  have hreserved : reservedSymbols.Nodup := by decide
  rw [topNames, List.nodup_append]
  constructor
  · rintro ⟨-, hnames, -⟩
    exact (List.pairwise_flatMap.mp hnames).1
  · intro hsingle
    refine ⟨hreserved, List.pairwise_flatMap.mpr ⟨hsingle, ?_⟩, ?_⟩
    · refine h.fresh.imp fun hfresh first hfirst second hsecond heq => ?_
      exact hfresh second hsecond (heq ▸ hfirst)
    · intro reserved hmem name hname heq
      obtain ⟨declaration, hdeclaration, hbound⟩ := List.mem_flatMap.mp hname
      exact h.unreserved declaration hdeclaration name hbound (heq ▸ hmem)

end Booked

namespace Reachable

/-- Every run of commands comes to a draft whose book is right. -/
theorem booked {draft : Draft} (h : Reachable draft) : Booked draft :=
  h.invariant Booked.empty fun hstep => Booked.step hstep

/-- After any run of commands the names at the top of the module are pairwise distinct exactly
when no structure of the draft hides its own format. -/
theorem topNames_nodup_iff {draft : Draft} (h : Reachable draft) :
    draft.topNames.Nodup
      ↔ ∀ s, .struct s ∈ draft.declarations → ¬ s.HidesFormat := by
  rw [h.booked.nodup_iff_each]
  constructor
  · intro hsingle s hs
    exact (Struct.boundNames_nodup_iff (h.booked.routines s hs)).mp (hsingle _ hs)
  · intro hvisible declaration hmem
    cases declaration with
    | constant c => exact List.pairwise_singleton _ _
    | struct s =>
        exact (Struct.boundNames_nodup_iff (h.booked.routines s hmem)).mpr (hvisible s hmem)

end Reachable

/-- A constant and a structure. -/
def pointDraft : Draft :=
  drafted [.rename "demo", .addConstant "LIMIT" none,
    .addStruct "struct point" [.named "x" "numeric"] none none true]

/-- A structure whose encoding routine has the name of its format. -/
def hidingDraft : Draft :=
  drafted [.rename "demo", .addStruct "point" [.named "x" "numeric"] (some "_struct_point") none
    false]

theorem topNames_nodup_iff_pointDraft :
    pointDraft.declarations.length = 2 ∧ pointDraft.topNames.Nodup := by
  refine ⟨by decide, (Reachable.topNames_nodup_iff (reachable_drafted _)).mpr fun s hs => ?_⟩
  rcases List.mem_cons.mp hs with h | hs
  · cases h
  · rcases List.mem_cons.mp hs with h | hs
    · cases h
      decide
    · cases hs

/-- The structure is accepted, and the module binds `_struct_point` twice. -/
theorem not_topNames_nodup_hidingDraft :
    Reachable hidingDraft ∧ ¬ hidingDraft.topNames.Nodup :=
  ⟨reachable_drafted _, by decide⟩

end Draft

end HeaderBind
