import HeaderBind.Declaration

/-!
# `HeaderBind.Proofs.Declaration`: what a made declaration is known to be

`Struct.make` is the only way in for structures. `Struct.make_eq_ok_iff` says at once everything
that its checks establish, so nothing else has to look inside of it.

Names keep declarations apart. `eq_of_mem_of_nodup_flatMap` is how that is used: among items whose
names are pairwise distinct, a name leads to one item only.
-/

set_option autoImplicit false

namespace HeaderBind

/-- A name that two items of a list have is found twice among the names of all of them, unless it is
one item. -/
theorem eq_of_mem_of_nodup_flatMap {α : Type} {names : α → List String} {items : List α}
    (hnodup : (items.flatMap names).Nodup) {item other : α} {name : String} (hitem : item ∈ items)
    (hother : other ∈ items) (hname : name ∈ names item) (hname' : name ∈ names other) :
    item = other := by
  induction items with
  | nil => cases hitem
  | cons first rest ih =>
      rw [List.flatMap_cons, List.nodup_append] at hnodup
      obtain ⟨-, hrest, happart⟩ := hnodup
      have hnotFirst : ∀ later ∈ rest, name ∈ names later → name ∉ names first := by
        intro later hlater hin hfirst
        exact happart name hfirst name (List.mem_flatMap.mpr ⟨later, hlater, hin⟩) rfl
      rcases List.mem_cons.mp hitem with rfl | hlater
      · rcases List.mem_cons.mp hother with rfl | hlater'
        · rfl
        · exact absurd hname (hnotFirst other hlater' hname')
      · rcases List.mem_cons.mp hother with rfl | hlater'
        · exact absurd hname' (hnotFirst item hlater hname)
        · exact ih hrest hlater hlater'

namespace Struct

open Declaration (MemberEntry)

/-- What is made from a name, members and routine names is the structure of these, and it is made
exactly when its base is a name, the routines can be bound and differ, and there are members, all
of them in order. -/
theorem make_eq_ok_iff {name : String} {entries : List MemberEntry} {mode : ExportMode}
    {encoder decoder : Option String} {hasTail : Bool} {s : Struct} :
    make name entries mode encoder decoder hasTail = .ok s
      ↔ s.name = Text.trim name ∧ s.base = Name.structBase name ∧
        s.encoder = chosenName encoder s!"encode_{Name.structBase name}" ∧
        s.decoder = chosenName decoder s!"decode_{Name.structBase name}" ∧
        s.hasTail = hasTail ∧ s.mode = mode ∧
        Name.isName s.base = true ∧ badRoutine? s.encoder s.decoder = none ∧
        s.encoder ≠ s.decoder ∧ checkMembers name [] entries = .ok s.members ∧ s.members ≠ [] := by
  simp only [make]
  constructor
  · -- The checks are made in this order, and each of them that is passed leaves a fact behind.
    intro h
    split at h
    · cases h
    · rename_i hbase
      split at h
      · cases h
      · rename_i hroutines
        split at h
        · cases h
        · rename_i hdiffer
          split at h
          · cases h
          · cases h
          · rename_i members hne hmembers
            cases h
            exact ⟨rfl, rfl, rfl, rfl, rfl, rfl, by simpa using hbase, hroutines, hdiffer, hmembers,
              fun hnil => hne hnil⟩
  · obtain ⟨trimmed, base, members, first, second, tail, under⟩ := s
    rintro ⟨rfl, rfl, rfl, rfl, rfl, rfl, hbase, hroutines, hdiffer, hmembers, hne⟩
    simp only at hbase hroutines hdiffer hmembers hne
    simp only [hbase, Bool.not_true, Bool.false_eq_true, if_false, hroutines, if_neg hdiffer,
      hmembers]

end Struct

end HeaderBind
