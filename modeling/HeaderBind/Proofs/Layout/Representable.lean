import HeaderBind.Error
import HeaderBind.Proofs.Layout.Placement
import HeaderBind.Proofs.Result

/-!
# `HeaderBind.Proofs.Layout.Representable`: which structures can be laid out

A probe may report anything. What of it can be laid out is said here without a walk over the
members: `InOrder` asks for supported widths and for members that follow each other without
overlap, and `Representable` for a size, if there is one, that reaches to the end of the last
member. Members may have gaps between them, may start where the one in front ends, and may not start
before byte zero.

What is wrong with any other facts is said by `Complaint`. The members in front of the first one
that does not fit are in order, so the place where that one would have to start is known without a
walk as well.

`answer_iff` is the result: the walk of `synthesize` accepts just what is representable, and
refuses everything else with the complaint about it. The complaint becomes an error about the
configuration, unless a number in its wording is too long to be written.
-/

set_option autoImplicit false

namespace HeaderBind

theorem Primitive.exists_ofBytes?_iff {bytes : Int} {signed : Bool} :
    (∃ type, Primitive.ofBytes? bytes signed = some type) ↔ bytes ∈ [1, 2, 4, 8] := by
  simp only [Primitive.ofBytes?_eq_some_iff]
  constructor
  · rintro ⟨⟨width, sign⟩, rfl, -⟩
    cases width <;> simp [Width.bytes]
  · intro h
    simp only [List.mem_cons, List.not_mem_nil, or_false] at h
    rcases h with rfl | rfl | rfl | rfl
    · exact ⟨⟨.one, signed⟩, rfl, rfl⟩
    · exact ⟨⟨.two, signed⟩, rfl, rfl⟩
    · exact ⟨⟨.four, signed⟩, rfl, rfl⟩
    · exact ⟨⟨.eight, signed⟩, rfl, rfl⟩

namespace Layout

/-! ### Facts that fit -/

/-- Members that lie one behind the other from a place on: each of them has one of the four widths,
the first one does not start before that place, and no other one before the end of the one in
front of it. -/
structure InOrder (start : Int) (facts : List MemberFact) : Prop where
  width : ∀ fact ∈ facts, fact.width ∈ [1, 2, 4, 8]
  first : ∀ fact ∈ facts.head?, start ≤ fact.offset
  rest : facts.IsChain fun fact next => fact.offset + fact.width ≤ next.offset

/-- Where the last member ends: at byte zero if there is none. -/
def endOf (facts : List MemberFact) : Int :=
  (facts.getLast?.map fun fact => fact.offset + fact.width).getD 0

/-- Facts that have a layout: members in order from byte zero on, and a size that holds them. -/
structure Representable (facts : List MemberFact) (size : Option Int) : Prop where
  members : InOrder 0 facts
  size : ∀ reported ∈ size, endOf facts ≤ reported

/-- What is wrong with facts that have no layout. It is about the first member that does not fit
behind those in front of it, or about the size if all of them fit. -/
inductive Complaint (base : String) (facts : List MemberFact) (size : Option Int) : Fault → Prop
  /-- The member starts before the end of the one in front of it. -/
  | backwards {front later : List MemberFact} {fact : MemberFact}
      (split : facts = front ++ fact :: later) (fits : InOrder 0 front)
      (behind : fact.offset < endOf front) :
      Complaint base facts size (.backwards base fact.name fact.offset (endOf front).toNat)
  /-- The member does not, and has no supported width. -/
  | unsupportedMember {front later : List MemberFact} {fact : MemberFact}
      (split : facts = front ++ fact :: later) (fits : InOrder 0 front)
      (forward : endOf front ≤ fact.offset) (width : fact.width ∉ [1, 2, 4, 8]) :
      Complaint base facts size (.unsupportedMember base fact.name fact.width fact.signed)
  /-- The members end behind the reported size. -/
  | tooShort {reported : Int} (fits : InOrder 0 facts) (given : size = some reported)
      (short : reported < endOf facts) :
      Complaint base facts size (.tooShort base reported (endOf facts).toNat)

/-! ### The walk -/

/-- A member in front of others is in order if it is so by itself, and the others from its end
on. -/
theorem inOrder_cons_iff {start : Int} {fact : MemberFact} {facts : List MemberFact} :
    InOrder start (fact :: facts)
      ↔ fact.width ∈ [1, 2, 4, 8] ∧ start ≤ fact.offset ∧
          InOrder (fact.offset + fact.width) facts := by
  constructor
  · rintro ⟨hwidth, hfirst, hchain⟩
    obtain ⟨hnext, hrest⟩ := List.isChain_cons.mp hchain
    exact ⟨hwidth fact List.mem_cons_self, hfirst fact rfl,
      fun other hother => hwidth other (List.mem_cons_of_mem fact hother), hnext, hrest⟩
  · rintro ⟨hwidth, hfirst, hrest⟩
    refine ⟨List.forall_mem_cons.mpr ⟨hwidth, hrest.width⟩, ?_,
      List.isChain_cons.mpr ⟨hrest.first, hrest.rest⟩⟩
    intro other hother
    cases hother
    exact hfirst

/-- Members can be walked over when they are in order. -/
theorem exists_placed_iff {cursor : Nat} {facts : List MemberFact} :
    (∃ fields stop, Placed cursor facts fields stop) ↔ InOrder cursor facts := by
  constructor
  · rintro ⟨fields, stop, h⟩
    induction h with
    | done cursor => exact ⟨nofun, nofun, .nil⟩
    | @member cursor start stop name type facts fields forward rest ih =>
        have hwidth : (type.width.bytes : Int) ∈ [1, 2, 4, 8] :=
          Primitive.exists_ofBytes?_iff.mp
            ⟨type, Primitive.ofBytes?_eq_some_iff.mpr ⟨rfl, rfl⟩⟩
        refine inOrder_cons_iff.mpr ⟨hwidth, ?_, ?_⟩
        · show (cursor : Int) ≤ start
          omega
        · simpa using ih
  · intro h
    induction facts generalizing cursor with
    | nil => exact ⟨[], cursor, .done cursor⟩
    | cons fact facts ih =>
        obtain ⟨hwidth, hfirst, hrest⟩ := inOrder_cons_iff.mp h
        obtain ⟨type, htype⟩ : ∃ type, Primitive.ofBytes? fact.width fact.signed = some type :=
          Primitive.exists_ofBytes?_iff.mpr hwidth
        have hbytes := (Primitive.ofBytes?_eq_some_iff.mp htype).1
        have hend : ((fact.offset.toNat + type.width.bytes : Nat) : Int)
            = fact.offset + fact.width := by
          omega
        obtain ⟨fields, stop, hplaced⟩ := ih (hend ▸ hrest)
        exact ⟨_, stop, .cons hfirst htype hplaced⟩

/-- The walk from byte zero over members in order stops at the end of the last one. -/
theorem exists_placed_endOf {facts : List MemberFact} (h : InOrder 0 facts) :
    ∃ fields, Placed 0 facts fields (endOf facts).toNat := by
  obtain ⟨fields, stop, hplaced⟩ := exists_placed_iff.mpr h
  have hstop : endOf facts = stop := hplaced.stop_eq
  refine ⟨fields, ?_⟩
  rw [hstop, Int.toNat_natCast]
  exact hplaced

/-- The walk is refused at the first member that it cannot go on with. -/
theorem placeMembers_eq_error_iff {base : String} {cursor : Nat} {facts : List MemberFact}
    {fault : Fault} :
    placeMembers base cursor facts = .error fault
      ↔ ∃ (front : List MemberFact) (fact : MemberFact) (later : List MemberFact)
          (fields : List Field) (stop : Nat), facts = front ++ fact :: later ∧
          Placed cursor front fields stop ∧
          (fact.offset < stop ∧ fault = .backwards base fact.name fact.offset stop ∨
            stop ≤ fact.offset ∧ fact.width ∉ [1, 2, 4, 8] ∧
              fault = .unsupportedMember base fact.name fact.width fact.signed) := by
  constructor
  · intro h
    induction facts generalizing cursor with
    | nil => cases h
    | cons fact facts ih =>
        simp only [placeMembers] at h
        split at h
        · rename_i hbehind
          cases h
          exact ⟨[], fact, facts, [], cursor, rfl, .done cursor, .inl ⟨hbehind, rfl⟩⟩
        · rename_i hforward
          split at h
          · rename_i hnone
            have hwidth : fact.width ∉ [1, 2, 4, 8] := by
              intro hwidth
              obtain ⟨type, htype⟩ := Primitive.exists_ofBytes?_iff.mpr hwidth
              rw [hnone] at htype
              cases htype
            cases h
            exact ⟨[], fact, facts, [], cursor, rfl, .done cursor,
              .inr ⟨by omega, hwidth, rfl⟩⟩
          · rename_i type htype
            obtain ⟨front, other, later, fields, stop, rfl, hplaced, hwhy⟩ :=
              ih (map_eq_error_iff.mp h)
            exact ⟨fact :: front, other, later, _, stop, rfl,
              .cons (by omega) htype hplaced, hwhy⟩
  · rintro ⟨front, fact, later, fields, stop, rfl, hplaced, hwhy⟩
    induction hplaced with
    | done cursor =>
        show placeMembers base cursor (fact :: later) = .error fault
        rcases hwhy with ⟨hbehind, rfl⟩ | ⟨hforward, hwidth, rfl⟩
        · rw [placeMembers, if_pos hbehind]
        · have hnone : Primitive.ofBytes? fact.width fact.signed = none := by
            rw [Option.eq_none_iff_forall_ne_some]
            intro type htype
            exact hwidth (Primitive.exists_ofBytes?_iff.mp ⟨type, htype⟩)
          rw [placeMembers, if_neg (by omega), hnone]
    | @member cursor start stop name type facts fields forward rest ih =>
        have htype : Primitive.ofBytes? type.width.bytes type.signed = some type :=
          Primitive.ofBytes?_eq_some_iff.mpr ⟨rfl, rfl⟩
        simp only [List.cons_append, placeMembers, htype]
        rw [if_neg (by omega), Int.toNat_natCast]
        exact map_eq_error_iff.mpr (ih hwhy)

/-! ### Acceptance and refusal -/

/-- What has a layout. -/
theorem exists_synthesize_iff {base : String} {facts : List MemberFact} {hasTail : Bool}
    {size : Option Int} :
    (∃ layout, synthesize base facts hasTail size = .ok layout) ↔ Representable facts size := by
  simp only [synthesize_eq_ok_iff]
  constructor
  · rintro ⟨_, fields, cursor, stop, hplaced, hle, hsize, -⟩
    have hend : endOf facts = cursor := hplaced.stop_eq
    refine ⟨exists_placed_iff.mp ⟨fields, cursor, hplaced⟩, ?_⟩
    rintro reported rfl
    rw [Option.getD_some] at hsize
    omega
  · rintro ⟨hmembers, hsize⟩
    obtain ⟨fields, hplaced⟩ := exists_placed_endOf hmembers
    have hend : endOf facts = (endOf facts).toNat := hplaced.stop_eq
    cases size with
    | none => exact ⟨_, fields, _, _, hplaced, Nat.le_refl _, rfl, rfl⟩
    | some reported =>
        have hreported : endOf facts ≤ reported := hsize reported rfl
        refine ⟨_, fields, _, reported.toNat, hplaced, by omega, ?_, rfl⟩
        rw [Option.getD_some]
        omega

/-- Facts without a layout are refused with the complaint about them. -/
theorem synthesize_eq_error_iff {base : String} {facts : List MemberFact} {hasTail : Bool}
    {size : Option Int} {fault : Fault} :
    synthesize base facts hasTail size = .error fault ↔ Complaint base facts size fault := by
  unfold synthesize
  constructor
  · intro h
    split at h
    · rename_i cause hcause
      cases h
      obtain ⟨front, fact, later, fields, stop, hsplit, hplaced, hwhy⟩ :=
        placeMembers_eq_error_iff.mp hcause
      have hfront := exists_placed_iff.mp ⟨fields, stop, hplaced⟩
      have hend : endOf front = stop := hplaced.stop_eq
      rcases hwhy with ⟨hbehind, rfl⟩ | ⟨hforward, hwidth, rfl⟩
      · have hcomplaint : Complaint base facts size _ :=
          .backwards hsplit hfront (by omega)
        rwa [hend, Int.toNat_natCast] at hcomplaint
      · exact .unsupportedMember hsplit hfront (by omega) hwidth
    · rename_i fields cursor hcursor
      have hplaced := placeMembers_eq_ok_iff.mp hcursor
      have hend : endOf facts = cursor := hplaced.stop_eq
      split at h
      · rename_i cause hcause
        cases h
        cases size with
        | none => cases hcause
        | some reported =>
            simp only [fixedEnd] at hcause
            split at hcause
            · cases hcause
              have hcomplaint : Complaint base facts (some reported) _ :=
                .tooShort (exists_placed_iff.mp ⟨fields, cursor, hplaced⟩) rfl (by omega)
              rwa [hend, Int.toNat_natCast] at hcomplaint
            · cases hcause
      · cases h
  · intro h
    cases h with
    | @backwards front later fact split fits behind =>
        obtain ⟨fields, hplaced⟩ := exists_placed_endOf fits
        rw [placeMembers_eq_error_iff.mpr ⟨front, fact, later, fields, _, split, hplaced,
          .inl ⟨by omega, rfl⟩⟩]
    | @unsupportedMember front later fact split fits forward width =>
        obtain ⟨fields, hplaced⟩ := exists_placed_endOf fits
        have hend : endOf front = (endOf front).toNat := hplaced.stop_eq
        rw [placeMembers_eq_error_iff.mpr ⟨front, fact, later, fields, _, split, hplaced,
          .inr ⟨by omega, width, rfl⟩⟩]
    | @tooShort reported fits given short =>
        obtain ⟨fields, hplaced⟩ := exists_placed_endOf fits
        have hshort : fixedEnd base (some reported) (endOf facts).toNat
            = .error (.tooShort base reported (endOf facts).toNat) :=
          if_pos (by omega)
        rw [placeMembers_eq_ok_iff.mpr hplaced, given]
        simp only [hshort]

/-! ### What a caller is told -/

/-- The layout of a structure, or the error that a refusal becomes. -/
def answer (base : String) (facts : List MemberFact) (hasTail : Bool) (size : Option Int) :
    Except Error Layout :=
  (synthesize base facts hasTail size).mapError fun fault =>
    .ofResolution (Resolution.ofLayoutFault fault)

/-- The layout of a structure is there exactly when the facts are representable. Otherwise the
error is the complaint about them, as one about the configuration; if a number in it has more digits
than can be written, the error is about that instead. -/
theorem answer_iff (base : String) (facts : List MemberFact) (hasTail : Bool)
    (size : Option Int) :
    ((∃ layout, answer base facts hasTail size = .ok layout) ↔ Representable facts size) ∧
      ∀ error, answer base facts hasTail size = .error error
        ↔ ∃ fault, Complaint base facts size fault ∧
            error = if fault.numbers.all Numeral.isWritable then .configuration (.layout fault)
              else .numeral .tooLongToWrite := by
  unfold answer
  constructor
  · simp only [mapError_eq_ok_iff]
    exact exists_synthesize_iff
  · intro error
    rw [mapError_eq_error_iff]
    refine exists_congr fun fault => and_congr synthesize_eq_error_iff ?_
    rw [Resolution.ofLayoutFault, eq_comm]
    split <;> rfl

/-- A member that starts at the greatest offset that can be written, and so ends behind it. -/
def lastWritable : MemberFact :=
  ⟨"x", Nat.pow 10 Numeral.digitLimit - 1, 1, false⟩

/-- A size that is too short for this member is not refused as one. -/
theorem not_configuration_lastWritable :
    ¬ Representable [lastWritable] (some 0) ∧
      ¬ ∃ fault, answer "p" [lastWritable] false (some 0) = .error (.configuration fault) := by
  have hanswer : answer "p" [lastWritable] false (some 0) = .error (.numeral .tooLongToWrite) := by
    decide +kernel
  have hend : ¬ endOf [lastWritable] ≤ 0 := by
    decide +kernel
  constructor
  · intro h
    exact hend (h.size 0 rfl)
  · rintro ⟨fault, hfault⟩
    rw [hanswer] at hfault
    cases hfault

end Layout

end HeaderBind
