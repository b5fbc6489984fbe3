import HeaderBind.Proofs.Layout.Placement
import HeaderBind.Proofs.Text.Numeral

/-!
# `HeaderBind.Proofs.Layout.Codes`: a format spells one list of fields only

The codes of fields stand in a format without anything between them. No code is the beginning of
another one, since digits only ever stand in front of the letter of a padding, so the format can be
cut into codes in one way (`Field.cut_unique`). The format says nothing about the names of the
members. Together with these it decides the fields: `Layout.eq_of_spelledFormat_eq`.
-/

set_option autoImplicit false

namespace HeaderBind

namespace Primitive

theorem eq_of_code_eq {type other : Primitive} (h : type.code = other.code) : type = other := by
  obtain ⟨width, signed⟩ := type
  obtain ⟨width', signed'⟩ := other
  cases width <;> cases signed <;> cases width' <;> cases signed' <;>
    first
      | rfl
      | exact absurd h (by decide)

/-- The letter of an integer starts no padding. -/
theorem code_ne (type : Primitive) : type.code.isDigit = false ∧ type.code ≠ 'x' := by
  obtain ⟨width, signed⟩ := type
  cases width <;> cases signed <;> decide

end Primitive

namespace Field

/-- The name of the member, if the field is one. -/
def name? : Field → Option String
  | integer name _ => some name
  | _ => none

/-- The digits in front of the letter of a padding. -/
def countDigits (count : Nat) : List Char :=
  if count = 1 then [] else Nat.toDigits 10 count

theorem isDigit_of_mem_countDigits (count : Nat) :
    ∀ c ∈ countDigits count, c.isDigit = true := by
  intro c hc
  unfold countDigits at hc
  split at hc
  · cases hc
  · exact Nat.isDigit_of_mem_toDigits (by decide) (by decide) hc

theorem toList_spelled_padding (count : Nat) :
    (padding count).spelled.toList = countDigits count ++ ['x'] := by
  show (if count = 1 then "x" else s!"{count}x").toList = _
  unfold countDigits
  split
  · rfl
  · rw [String.toList_append, Nat.toString_eq_repr, Nat.toList_repr]
    rfl

theorem toList_spelled_integer (name : String) (type : Primitive) :
    (integer name type).spelled.toList = [type.code] :=
  String.toList_singleton type.code

theorem spelled_ne_nil {field : Field} (h : field ≠ .trailing) : field.spelled.toList ≠ [] := by
  cases field with
  | integer name type =>
      rw [toList_spelled_integer]
      exact List.cons_ne_nil _ _
  | padding count =>
      rw [toList_spelled_padding]
      exact List.append_ne_nil_of_right_ne_nil _ (List.cons_ne_nil _ _)
  | trailing => exact absurd rfl h

theorem eq_of_countDigits_eq {count other : Nat} (h : countDigits count = countDigits other) :
    count = other := by
  -- A count of one has no digits, and every other count has some.
  unfold countDigits at h
  split at h <;> split at h
  · omega
  · exact absurd h.symm Nat.toDigits_ne_nil
  · exact absurd h Nat.toDigits_ne_nil
  · exact Numeral.eq_of_toDigits_eq h

/-- The code of a padding does not start with the letter of an integer. -/
theorem spelled_integer_append_ne {name : String} {type : Primitive} {count : Nat}
    {rest others : List Char} :
    (integer name type).spelled.toList ++ rest ≠ (padding count).spelled.toList ++ others := by
  intro h
  rw [toList_spelled_padding, toList_spelled_integer, List.singleton_append] at h
  obtain ⟨hdigit, hletter⟩ := type.code_ne
  cases hdigits : countDigits count with
  | nil =>
      rw [hdigits] at h
      exact hletter (List.cons.inj h).1
  | cons c digits =>
      rw [hdigits] at h
      have hc : c.isDigit = true :=
        isDigit_of_mem_countDigits count c (hdigits ▸ List.mem_cons_self)
      rw [← (List.cons.inj h).1, hdigit] at hc
      cases hc

/-- The codes of two paddings in front of other texts. -/
theorem spelled_padding_append_inj {count other : Nat} {rest others : List Char}
    (h : (padding count).spelled.toList ++ rest = (padding other).spelled.toList ++ others) :
    count = other ∧ rest = others := by
  have hx : Char.isDigit 'x' = false := by decide
  rw [toList_spelled_padding, toList_spelled_padding, List.append_assoc, List.append_assoc,
    List.singleton_append, List.singleton_append] at h
  have hdigits := congrArg (List.takeWhile Char.isDigit) h
  rw [Text.takeWhile_append_cons rest (isDigit_of_mem_countDigits count) hx,
    Text.takeWhile_append_cons others (isDigit_of_mem_countDigits other) hx] at hdigits
  obtain rfl := eq_of_countDigits_eq hdigits
  exact ⟨rfl, (List.cons.inj (List.append_right_inj _ |>.mp h)).2⟩

/-- Fields without trailing bytes are told apart by their codes and the names of the members. -/
theorem cut_unique {fields others : List Field} (hfields : .trailing ∉ fields)
    (hothers : .trailing ∉ others)
    (hcodes : fields.flatMap (fun field => field.spelled.toList)
      = others.flatMap fun field => field.spelled.toList)
    (hnames : fields.filterMap name? = others.filterMap name?) : fields = others := by
  induction fields generalizing others with
  | nil =>
      cases others with
      | nil => rfl
      | cons other others =>
          have hother : other ≠ .trailing := fun h => hothers (h ▸ List.mem_cons_self)
          rw [List.flatMap_nil, List.flatMap_cons] at hcodes
          exact absurd (List.append_eq_nil_iff.mp hcodes.symm).1 (spelled_ne_nil hother)
  | cons field fields ih =>
      have hfield : field ≠ .trailing := fun h => hfields (h ▸ List.mem_cons_self)
      have hrest : .trailing ∉ fields := fun h => hfields (List.mem_cons_of_mem field h)
      cases others with
      | nil =>
          rw [List.flatMap_nil, List.flatMap_cons] at hcodes
          exact absurd (List.append_eq_nil_iff.mp hcodes).1 (spelled_ne_nil hfield)
      | cons other others =>
          have hother : other ≠ .trailing := fun h => hothers (h ▸ List.mem_cons_self)
          have hrest' : .trailing ∉ others := fun h => hothers (List.mem_cons_of_mem other h)
          rw [List.flatMap_cons, List.flatMap_cons] at hcodes
          -- Heads of different kinds have different codes, and heads of one kind leave equal texts.
          cases field with
          | trailing => exact absurd rfl hfield
          | integer name type =>
              cases other with
              | trailing => exact absurd rfl hother
              | padding count => exact absurd hcodes spelled_integer_append_ne
              | integer name' type' =>
                  rw [toList_spelled_integer, toList_spelled_integer] at hcodes
                  obtain ⟨hletter, htexts⟩ := List.cons.inj hcodes
                  obtain ⟨rfl, hothersNames⟩ : name = name' ∧
                      fields.filterMap name? = others.filterMap name? := List.cons.inj hnames
                  rw [ih hrest hrest' htexts hothersNames, Primitive.eq_of_code_eq hletter]
          | padding count =>
              cases other with
              | trailing => exact absurd rfl hother
              | integer name type => exact absurd hcodes.symm spelled_integer_append_ne
              | padding count' =>
                  obtain ⟨rfl, htexts⟩ := spelled_padding_append_inj hcodes
                  rw [ih hrest hrest' htexts hnames]

end Field

namespace Layout

theorem filterMap_name?_gap (start stop : Nat) : (gap start stop).filterMap Field.name? = [] := by
  unfold gap
  split <;> rfl

/-- The names of members among fields are those of the facts that they were placed by. -/
theorem Placed.filterMap_name? {cursor stop : Nat} {facts : List MemberFact} {fields : List Field}
    (h : Placed cursor facts fields stop) :
    fields.filterMap Field.name? = facts.map MemberFact.name := by
  induction h with
  | done => rfl
  | @member cursor start stop name type facts fields forward rest ih =>
      rw [List.filterMap_append, filterMap_name?_gap, List.nil_append, List.map_cons, ← ih]
      rfl

/-- What is known of a layout from the members, the tail and the base that it was made for. -/
structure MadeFor (layout : Layout) (base : String) (names : List String) (hasTail : Bool) :
    Prop where
  base : layout.base = base
  fields : ∃ fixed, .trailing ∉ fixed ∧ fixed.filterMap Field.name? = names ∧
    layout.fields = fixed ++ if hasTail then [.trailing] else []

theorem madeFor_of_synthesize {base : String} {facts : List MemberFact} {hasTail : Bool}
    {size : Option Int} {layout : Layout} (h : synthesize base facts hasTail size = .ok layout) :
    layout.MadeFor base (facts.map MemberFact.name) hasTail := by
  obtain ⟨fields, cursor, stop, hplaced, -, -, rfl⟩ := synthesize_eq_ok_iff.mp h
  refine ⟨rfl, fields ++ gap cursor stop, ?_, ?_, rfl⟩
  · rw [List.mem_append, not_or]
    exact ⟨hplaced.trailing_not_mem, trailing_not_mem_gap cursor stop⟩
  · rw [List.filterMap_append, filterMap_name?_gap, List.append_nil, hplaced.filterMap_name?]

namespace MadeFor

variable {layout other : Layout} {base : String} {names : List String} {hasTail : Bool}

theorem hasTail_eq (h : layout.MadeFor base names hasTail) : layout.hasTail = hasTail := by
  obtain ⟨fixed, hfixed, -, hfields⟩ := h.fields
  have hnone : fixed.any Field.isTrailing = false := by
    rw [List.any_eq_false]
    intro field hfield htrailing
    cases field with
    | trailing => exact hfixed hfield
    | integer name type => cases htrailing
    | padding count => cases htrailing
  rw [Layout.hasTail, hfields, List.any_append, hnone]
  cases hasTail <;> rfl

/-- The format as the codes of the fields in front of the tail. -/
theorem toList_spelledFormat {fixed : List Field} (hfixed : .trailing ∉ fixed)
    (hfields : layout.fields = fixed ++ if hasTail then [.trailing] else []) :
    layout.spelledFormat.toList = '=' :: fixed.flatMap fun field => field.spelled.toList := by
  have hkeep : (fixed.filter fun field => !field.isTrailing) = fixed := by
    rw [List.filter_eq_self]
    intro field hfield
    cases field with
    | trailing => exact absurd hfield hfixed
    | integer name type => rfl
    | padding count => rfl
  have hdrop : ((if hasTail then [Field.trailing] else []).filter fun field =>
      !field.isTrailing) = [] := by
    cases hasTail <;> rfl
  rw [spelledFormat, fixedFields, hfields, List.filter_append, hkeep, hdrop, List.append_nil,
    String.toList_append, String.toList_join, List.flatMap_map]
  rfl

/-- Layouts for the same members and tail are equal if their formats and lengths are. -/
theorem eq_of_spelledFormat_eq (h : layout.MadeFor base names hasTail)
    (hother : other.MadeFor base names hasTail)
    (hformat : layout.spelledFormat = other.spelledFormat)
    (hlength : layout.fixedLength = other.fixedLength) : layout = other := by
  obtain ⟨fixed, hfixed, hnames, hfields⟩ := h.fields
  obtain ⟨fixed', hfixed', hnames', hfields'⟩ := hother.fields
  have hcodes := congrArg String.toList hformat
  rw [toList_spelledFormat hfixed hfields, toList_spelledFormat hfixed' hfields'] at hcodes
  have hsame : fixed = fixed' :=
    Field.cut_unique hfixed hfixed' (List.cons.inj hcodes).2 (hnames.trans hnames'.symm)
  have hbase : layout.base = other.base := h.base.trans hother.base.symm
  obtain ⟨_, fields, _⟩ := layout
  obtain ⟨_, others, _⟩ := other
  cases hbase
  cases hlength
  cases hfields
  cases hfields'
  rw [hsame]

end MadeFor

end Layout

end HeaderBind
