import HeaderBind.Layout.Basic
import Mathlib.Data.List.Chain

/-!
# `HeaderBind.Proofs.Layout.Placement`: where the members of a structure lie

`Layout.placeMembers` walks over the facts about the members with a cursor and refuses a member
that starts before it. `Placed cursor facts fields stop` is the same walk as a relation, with one
rule for each way to go on, and `placeMembers_eq_ok_iff` says that the two agree. Whatever is to be
known about a layout is an induction over this relation:

* `synthesize_eq_ok_iff`: a layout is the fields of a walk from byte zero, one more padding up to
  the reported size, and the trailing bytes.
* `Placed.stop_eq`: the walk stops behind the last member, or where it started if there is none.
* `Placed.isChain_apart` and `isChain_append_gap`: no two paddings are neighbours, since `gap` is
  there only in front of a member and once at the end.
-/

set_option autoImplicit false

namespace HeaderBind

/-- The type of an integer of a number of bytes has that many bytes and that sign. -/
theorem Primitive.ofBytes?_eq_some_iff {bytes : Int} {signed : Bool} {type : Primitive} :
    Primitive.ofBytes? bytes signed = some type
      ↔ bytes = type.width.bytes ∧ signed = type.signed := by
  obtain ⟨width, sign⟩ := type
  constructor
  · intro h
    simp only [ofBytes?, Option.map_eq_some_iff, mk.injEq] at h
    obtain ⟨found, hfound, rfl, rfl⟩ := h
    have hbytes := List.find?_some hfound
    exact ⟨(by simpa using hbytes : (found.bytes : Int) = bytes).symm, rfl⟩
  · rintro ⟨rfl, rfl⟩
    -- Widths of different names have different numbers of bytes, so the search meets no other one.
    cases width <;> rfl

namespace Layout

/-- The walk over the members: the first of them may start at `cursor`, their fields are `fields`,
and they end at `stop`. -/
inductive Placed : (cursor : Nat) → List MemberFact → List Field → (stop : Nat) → Prop
  /-- There is no further member. -/
  | done (cursor : Nat) : Placed cursor [] [] cursor
  /-- A member starts at the cursor or behind it. -/
  | member {cursor start stop : Nat} {name : String} {type : Primitive}
      {facts : List MemberFact} {fields : List Field}
      (forward : cursor ≤ start)
      (rest : Placed (start + type.width.bytes) facts fields stop) :
      Placed cursor (⟨name, start, type.width.bytes, type.signed⟩ :: facts)
        (gap cursor start ++ .integer name type :: fields) stop

/-- A member that starts at the cursor or behind it and has a type can be put in front of others
that are placed from its end on. -/
theorem Placed.cons {cursor stop : Nat} {fact : MemberFact} {facts : List MemberFact}
    {fields : List Field} {type : Primitive} (hforward : cursor ≤ fact.offset)
    (htype : Primitive.ofBytes? fact.width fact.signed = some type)
    (hrest : Placed (fact.offset.toNat + type.width.bytes) facts fields stop) :
    Placed cursor (fact :: facts)
      (gap cursor fact.offset.toNat ++ .integer fact.name type :: fields) stop := by
  obtain ⟨name, offset, width, signed⟩ := fact
  obtain ⟨rfl, rfl⟩ := Primitive.ofBytes?_eq_some_iff.mp htype
  -- The offset is not before the cursor, so it is a natural number.
  have hoffset : (offset.toNat : Int) = offset := Int.toNat_of_nonneg (by simp at hforward; omega)
  have hstep : Placed cursor
      (⟨name, offset.toNat, type.width.bytes, type.signed⟩ :: facts) _ _ :=
    .member (by simp at hforward; omega) hrest
  rwa [hoffset] at hstep

/-- The relation is the graph of the function. -/
theorem placeMembers_eq_ok_iff {base : String} {cursor stop : Nat} {facts : List MemberFact}
    {fields : List Field} :
    placeMembers base cursor facts = .ok (fields, stop) ↔ Placed cursor facts fields stop := by
  constructor
  · intro h
    induction facts generalizing cursor fields with
    | nil =>
        cases h
        exact .done _
    | cons fact facts ih =>
        simp only [placeMembers] at h
        split at h
        · cases h
        · rename_i hforward
          split at h
          · cases h
          · rename_i type htype
            cases hrest : placeMembers base (fact.offset.toNat + type.width.bytes) facts with
            | error fault => rw [hrest] at h; cases h
            | ok placed =>
                rw [hrest] at h
                cases h
                exact .cons (by omega) htype (ih hrest)
  · intro h
    induction h with
    | done cursor => rfl
    | @member cursor start stop name type facts fields forward rest ih =>
        have htype : Primitive.ofBytes? type.width.bytes type.signed = some type :=
          Primitive.ofBytes?_eq_some_iff.mpr ⟨rfl, rfl⟩
        simp only [placeMembers, htype]
        rw [if_neg (by omega), Int.toNat_natCast, ih]
        rfl

/-- The end of the fixed part is the reported size, or else the end of the members, and the members
do not reach past it. -/
theorem fixedEnd_eq_ok_iff {base : String} {size : Option Int} {cursor stop : Nat} :
    fixedEnd base size cursor = .ok stop ↔ size.getD cursor = stop ∧ cursor ≤ stop := by
  cases size with
  | none =>
      constructor
      · intro h
        cases h
        exact ⟨rfl, Nat.le_refl _⟩
      · rintro ⟨h, -⟩
        rw [fixedEnd, Int.ofNat_inj.mp h]
  | some size =>
      simp only [fixedEnd, Option.getD_some]
      split
      · constructor
        · intro h
          cases h
        · rintro ⟨h, hle⟩
          omega
      · rw [Except.ok.injEq]
        omega

/-- A layout holds the fields of its members, the padding behind them, and the trailing bytes. -/
theorem synthesize_eq_ok_iff {base : String} {facts : List MemberFact} {hasTail : Bool}
    {size : Option Int} {layout : Layout} :
    synthesize base facts hasTail size = .ok layout
      ↔ ∃ fields cursor stop, Placed 0 facts fields cursor ∧ cursor ≤ stop ∧
          size.getD (cursor : Int) = (stop : Int) ∧
          layout = ⟨base, fields ++ gap cursor stop ++ (if hasTail then [.trailing] else []),
            stop⟩ := by
  unfold synthesize
  constructor
  · intro h
    split at h
    · cases h
    · rename_i fields cursor hplaced
      split at h
      · cases h
      · rename_i stop hstop
        obtain ⟨hsize, hle⟩ := fixedEnd_eq_ok_iff.mp hstop
        cases h
        exact ⟨fields, cursor, stop, placeMembers_eq_ok_iff.mp hplaced, hle, hsize, rfl⟩
  · rintro ⟨fields, cursor, stop, hplaced, hle, hsize, rfl⟩
    rw [placeMembers_eq_ok_iff.mpr hplaced]
    simp only [fixedEnd_eq_ok_iff.mpr ⟨hsize, hle⟩]

/-! ### Paddings -/

/-- Whether the field is a padding. -/
def isPadding : Field → Bool
  | .padding _ => true
  | _ => false

/-- Of two fields, at most one is a padding. -/
def Apart (a b : Field) : Prop :=
  isPadding a = true → isPadding b = false

/-- A gap holds no trailing bytes. -/
theorem trailing_not_mem_gap (start stop : Nat) : Field.trailing ∉ gap start stop := by
  unfold gap
  split <;> simp

/-- A padding in a gap is not empty. -/
theorem padding_pos_of_mem_gap {start stop count : Nat} (h : .padding count ∈ gap start stop) :
    0 < count := by
  unfold gap at h
  split at h
  · simp only [List.mem_singleton, Field.padding.injEq] at h
    omega
  · simp at h

/-- A padding in a gap does not reach past its end. -/
theorem padding_le_of_mem_gap {start stop count : Nat} (h : .padding count ∈ gap start stop) :
    count ≤ stop := by
  unfold gap at h
  split at h
  · simp only [List.mem_singleton, Field.padding.injEq] at h
    omega
  · simp at h

/-- A gap holds no integer. -/
theorem countP_isInteger_gap (start stop : Nat) : (gap start stop).countP Field.isInteger = 0 := by
  unfold gap
  split <;> rfl

/-- What stands apart and ends with no padding may be followed by a gap. -/
theorem isChain_append_gap {fields : List Field} (start stop : Nat)
    (hchain : fields.IsChain Apart) (hlast : ∀ field ∈ fields.getLast?, isPadding field = false) :
    (fields ++ gap start stop).IsChain Apart := by
  rw [List.isChain_append]
  refine ⟨hchain, ?_, ?_⟩
  · unfold gap
    split <;> simp
  · intro field hfield next _ hpadding
    rw [hlast field hfield] at hpadding
    cases hpadding

namespace Placed

variable {cursor stop : Nat} {facts : List MemberFact} {fields : List Field}

/-- The members have no trailing bytes. -/
theorem trailing_not_mem (h : Placed cursor facts fields stop) : Field.trailing ∉ fields := by
  induction h with
  | done => simp
  | member forward rest ih => simp [trailing_not_mem_gap, ih]

/-- No padding between members is empty. -/
theorem padding_pos (h : Placed cursor facts fields stop) :
    ∀ count, .padding count ∈ fields → 0 < count := by
  induction h with
  | done => simp
  | member forward rest ih =>
      intro count hmem
      simp only [List.mem_append, List.mem_cons, reduceCtorEq, false_or] at hmem
      rcases hmem with hgap | hrest
      · exact padding_pos_of_mem_gap hgap
      · exact ih count hrest

/-- The fields of members do not end with a padding: behind every gap there is a member. -/
theorem isPadding_getLast? (h : Placed cursor facts fields stop) :
    ∀ field ∈ fields.getLast?, isPadding field = false := by
  induction h with
  | done => simp
  | @member _ _ _ name type _ fields forward rest ih =>
      cases fields with
      | nil => simp [isPadding]
      | cons next fields => simpa [List.getLast?_append] using ih

/-- No two paddings between members are neighbours. -/
theorem isChain_apart (h : Placed cursor facts fields stop) : fields.IsChain Apart := by
  induction h with
  | done => exact .nil
  | @member cursor start _ name type _ fields forward rest ih =>
      have hinteger : (.integer name type :: fields).IsChain Apart :=
        List.isChain_cons.mpr ⟨fun _ _ hpadding => (nomatch hpadding), ih⟩
      unfold gap
      split
      · refine List.isChain_cons.mpr ⟨?_, hinteger⟩
        intro next hnext _
        cases hnext
        rfl
      · exact hinteger

/-- There is one integer for each member. -/
theorem countP_isInteger (h : Placed cursor facts fields stop) :
    fields.countP Field.isInteger = facts.length := by
  induction h with
  | done => rfl
  | member forward rest ih =>
      rw [List.countP_append, countP_isInteger_gap, List.countP_cons, ih]
      simp [Field.isInteger]

/-- The walk does not go back. -/
theorem cursor_le (h : Placed cursor facts fields stop) : cursor ≤ stop := by
  induction h with
  | done => exact Nat.le_refl _
  | member forward rest ih => omega

/-- A padding between members lies within the walk. -/
theorem padding_le (h : Placed cursor facts fields stop) :
    ∀ count, .padding count ∈ fields → count ≤ stop := by
  induction h with
  | done => simp
  | @member cursor start stop name type facts fields forward rest ih =>
      intro count hmem
      simp only [List.mem_append, List.mem_cons, reduceCtorEq, false_or] at hmem
      rcases hmem with hgap | hrest
      · have hcount := padding_le_of_mem_gap hgap
        have hstop := rest.cursor_le
        omega
      · exact ih count hrest

/-- Where the members end: behind the last one, or at the cursor if there is none. -/
theorem stop_eq (h : Placed cursor facts fields stop) :
    (facts.getLast?.map fun fact => fact.offset + fact.width).getD (cursor : Int) = stop := by
  induction h with
  | done => rfl
  | @member _ start _ name type facts _ forward rest ih =>
      cases facts with
      | nil =>
          cases rest
          simp
      | cons next facts => simpa [List.getLast?_cons] using ih

end Placed

end Layout

end HeaderBind
