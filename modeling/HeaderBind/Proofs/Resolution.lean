import HeaderBind.Proofs.Result
import HeaderBind.Resolution

/-!
# `HeaderBind.Proofs.Resolution`: what is known of resolved declarations

A resolution that succeeds went through every check on the way. The lemmas here say which: for one
declaration of either kind (`resolveOne_constant_eq_ok_iff`, `resolveOne_struct_eq_ok_iff`), and for
a list of them (`resolveAll_eq_ok_iff`).
-/

set_option autoImplicit false

namespace HeaderBind

namespace Probe

/-- What is split off as digits is there, and is nothing but decimal digits. -/
theorem digits_of_splitDecimal? {cs rest : List Char} {digits : String}
    (h : splitDecimal? cs = some (digits, rest)) :
    digits ≠ "" ∧ ∀ c ∈ digits.toList, Text.isDecimalDigit c = true := by
  simp only [splitDecimal?] at h
  split at h
  · cases h
  · rename_i hsome
    cases h
    refine ⟨fun hempty => hsome ?_, fun c hc => ?_⟩
    · rw [List.isEmpty_iff, ← String.toList_ofList (l := cs.takeWhile Text.isDecimalDigit), hempty]
      rfl
    · rw [String.toList_ofList] at hc
      exact List.all_eq_true.mp List.all_takeWhile c hc

/-- The parts of a member token: word characters, and decimal digits for the two numbers. -/
structure MemberToken.WellFormed (parts : MemberToken) : Prop where
  name : ∀ c ∈ parts.name.toList, Text.isWordChar c = true
  offset : parts.offset ≠ "" ∧ ∀ c ∈ parts.offset.toList, Text.isDecimalDigit c = true
  width : parts.width ≠ "" ∧ ∀ c ∈ parts.width.toList, Text.isDecimalDigit c = true

theorem wellFormed_of_memberToken? {token : List Char} {parts : MemberToken}
    (h : memberToken? token = some parts) : parts.WellFormed := by
  simp only [memberToken?] at h
  split at h
  · cases h
  · split at h
    · obtain ⟨⟨offset, afterOffset⟩, hoffset, h⟩ := Option.bind_eq_some_iff.mp h
      split at h
      · obtain ⟨⟨width, afterWidth⟩, hwidth, h⟩ := Option.bind_eq_some_iff.mp h
        obtain ⟨signed, -, h⟩ := Option.bind_eq_some_iff.mp h
        cases h
        refine ⟨fun c hc => ?_, digits_of_splitDecimal? hoffset, digits_of_splitDecimal? hwidth⟩
        rw [String.toList_ofList] at hc
        exact List.all_eq_true.mp List.all_takeWhile c hc
      · cases h
    · cases h

/-- A result is required of a key that has one. -/
theorem require_eq_ok_iff_found {found : Entries String} {key value : String} :
    require found key = .ok value ↔ Entries.get? found key = some value := by
  unfold require
  cases Entries.get? found key with
  | none => exact iff_of_false nofun nofun
  | some other => rw [Except.ok.injEq, Option.some.injEq]

/-- The check of the members is passed by facts about just these, in order. -/
theorem checkMembers_eq_ok_iff {base : String} {facts : List MemberFact} {names : List String} :
    checkMembers base facts (some names) = .ok () ↔ facts.map MemberFact.name = names := by
  simp only [checkMembers]
  by_cases h : names = facts.map MemberFact.name
  · rw [if_pos h]
    exact ⟨fun _ => h.symm, fun _ => rfl⟩
  · rw [if_neg h]
    constructor
    · intro herror
      cases herror
    · exact fun hsame => absurd hsame.symm h

/-- The facts of a structure are about the expected members, in order. -/
theorem name_of_readStruct {base value : String} {names : List String} {facts : StructFacts}
    (h : readStruct base value (some names) = .ok facts) :
    facts.members.map MemberFact.name = names := by
  simp only [readStruct] at h
  split at h
  · cases h
  · split at h
    · cases h
    · obtain ⟨members, hmembers, h⟩ := bind_eq_ok_iff.mp h
      obtain ⟨_, hcheck, h⟩ := bind_eq_ok_iff.mp h
      obtain ⟨size, hsize, h⟩ := bind_eq_ok_iff.mp h
      cases h
      exact checkMembers_eq_ok_iff.mp hcheck

end Probe

namespace Resolution

variable {found : Entries String}

theorem resolveOne_constant_eq_ok_iff {c : Constant} {r : Resolved} :
    resolveOne found (.constant c) = .ok r
      ↔ ∃ value n, Probe.require found c.source = .ok value ∧
          Probe.readConstant c.source value = .ok n ∧ r = .constant c n := by
  unfold resolveOne
  constructor
  · intro h
    obtain ⟨value, hvalue, h⟩ := bind_eq_ok_iff.mp h
    obtain ⟨n, hn, h⟩ := bind_eq_ok_iff.mp h
    cases h
    exact ⟨value, n, mapError_eq_ok_iff.mp hvalue, mapError_eq_ok_iff.mp hn, rfl⟩
  · rintro ⟨value, n, hvalue, hn, rfl⟩
    exact bind_eq_ok_iff.mpr ⟨value, mapError_eq_ok_iff.mpr hvalue,
      bind_eq_ok_iff.mpr ⟨n, mapError_eq_ok_iff.mpr hn, rfl⟩⟩

theorem resolveOne_struct_eq_ok_iff {s : Struct} {r : Resolved} :
    resolveOne found (.struct s) = .ok r
      ↔ ∃ value facts layout, Probe.require found s.base = .ok value ∧
          Probe.readStruct s.base value (some s.members) = .ok facts ∧
          Layout.synthesize s.base facts.members s.hasTail (some facts.size) = .ok layout ∧
          r = .struct s facts layout := by
  unfold resolveOne
  constructor
  · intro h
    obtain ⟨value, hvalue, h⟩ := bind_eq_ok_iff.mp h
    obtain ⟨facts, hfacts, h⟩ := bind_eq_ok_iff.mp h
    obtain ⟨layout, hlayout, h⟩ := bind_eq_ok_iff.mp h
    cases h
    exact ⟨value, facts, layout, mapError_eq_ok_iff.mp hvalue, mapError_eq_ok_iff.mp hfacts,
      mapError_eq_ok_iff.mp hlayout, rfl⟩
  · rintro ⟨value, facts, layout, hvalue, hfacts, hlayout, rfl⟩
    exact bind_eq_ok_iff.mpr ⟨value, mapError_eq_ok_iff.mpr hvalue,
      bind_eq_ok_iff.mpr ⟨facts, mapError_eq_ok_iff.mpr hfacts,
        bind_eq_ok_iff.mpr ⟨layout, mapError_eq_ok_iff.mpr hlayout, rfl⟩⟩⟩

/-- What is resolved is the declaration at hand. -/
theorem declaration_of_resolveOne {declaration : Declaration} {r : Resolved}
    (h : resolveOne found declaration = .ok r) : r.declaration = declaration := by
  cases declaration with
  | constant c =>
      obtain ⟨_, _, _, _, rfl⟩ := resolveOne_constant_eq_ok_iff.mp h
      rfl
  | struct s =>
      obtain ⟨_, _, _, _, _, _, rfl⟩ := resolveOne_struct_eq_ok_iff.mp h
      rfl

/-- Declarations are resolved one by one, and nothing is left out or put in. -/
theorem resolveAll_eq_ok_iff {declarations : List Declaration} {rs : List Resolved} :
    resolveAll found declarations = .ok rs
      ↔ rs.map Resolved.declaration = declarations ∧
          ∀ r ∈ rs, resolveOne found r.declaration = .ok r := by
  induction declarations generalizing rs with
  | nil =>
      constructor
      · intro h
        cases h
        exact ⟨rfl, fun r hr => nomatch hr⟩
      · rintro ⟨hdeclarations, -⟩
        rw [List.map_eq_nil_iff.mp hdeclarations]
        rfl
  | cons declaration declarations ih =>
      unfold resolveAll
      constructor
      · intro h
        obtain ⟨first, hfirst, h⟩ := bind_eq_ok_iff.mp h
        obtain ⟨rest, hrest, h⟩ := bind_eq_ok_iff.mp h
        cases h
        obtain ⟨hdeclarations, hresolved⟩ := ih.mp hrest
        have hown := declaration_of_resolveOne hfirst
        refine ⟨by rw [List.map_cons, hown, hdeclarations], fun r hr => ?_⟩
        rcases List.mem_cons.mp hr with rfl | hr
        · rw [hown]
          exact hfirst
        · exact hresolved r hr
      · rintro ⟨hdeclarations, hresolved⟩
        obtain ⟨first, rest, rfl, hown, hrest⟩ := List.map_eq_cons_iff.mp hdeclarations
        have hfirst := hresolved first List.mem_cons_self
        rw [hown] at hfirst
        exact bind_eq_ok_iff.mpr ⟨first, hfirst, bind_eq_ok_iff.mpr
          ⟨rest, ih.mpr ⟨hrest, fun r hr => hresolved r (List.mem_cons_of_mem first hr)⟩, rfl⟩⟩

/-- Declarations are refused at the first one that cannot be resolved. -/
theorem resolveAll_eq_error_iff {declarations : List Declaration} {fault : Fault} :
    resolveAll found declarations = .error fault
      ↔ ∃ front declaration later rs, declarations = front ++ declaration :: later ∧
          resolveAll found front = .ok rs ∧ resolveOne found declaration = .error fault := by
  constructor
  · intro h
    induction declarations with
    | nil => cases h
    | cons declaration declarations ih =>
        rw [resolveAll] at h
        rcases bind_eq_error_iff.mp h with hfirst | ⟨first, hfirst, h⟩
        · exact ⟨[], declaration, declarations, [], rfl, rfl, hfirst⟩
        · rcases bind_eq_error_iff.mp h with hrest | ⟨rest, -, h⟩
          · obtain ⟨front, other, later, rs, rfl, hfront, hother⟩ := ih hrest
            refine ⟨declaration :: front, other, later, first :: rs, rfl, ?_, hother⟩
            rw [resolveAll, hfirst, hfront]
            rfl
          · cases h
  · rintro ⟨front, declaration, later, rs, rfl, hfront, hfault⟩
    induction front generalizing rs with
    | nil =>
        rw [List.nil_append, resolveAll, hfault]
        rfl
    | cons first front ih =>
        rw [resolveAll] at hfront
        obtain ⟨made, hmade, hfront⟩ := bind_eq_ok_iff.mp hfront
        obtain ⟨others, hothers, -⟩ := bind_eq_ok_iff.mp hfront
        rw [List.cons_append, resolveAll, hmade, ih others hothers]
        rfl

end Resolution

end HeaderBind
