import HeaderBind.Proofs.Layout.Placement

/-!
# `HeaderBind.Proofs.Layout.Format`: the format of a layout reproduces the structure

A format is read here by the rules of those who will use it, and by nothing else: the mark `=`, then
letters with a decimal repeat count in front or none. `b`, `h`, `i` and `q` are values of one, two,
four and eight bytes with a sign, the capital letters are the same without one, and `x` is a byte of
padding. A count repeats what its letter stands for.

`reproduces_of_synthesize` is the main statement. Read this way, the format of a layout gives back
the places, widths and signs that were reported, byte for byte: `Reproduces` lists what that means.
There is a format as long as the counts in it can be written (`CanWrite`). A hole of more bytes than
a numeral can say keeps its layout from having one: `not_format_longGap`.

The proof has two halves that meet in `Field.items`, the items that a field stands for. On the side
of the text, `readItems_spelled_append` reads the text of one field off the front of a format,
whatever follows; the only numbers there are repeat counts, and `readItems_digits_append` is about
those. On the side of the bytes, `Placed.values_items` walks over the members once more and finds
each of them at its offset. `mem_pads_iff` holds of any items: what is no value is padding.
-/

set_option autoImplicit false

namespace HeaderBind

namespace Format

/-- What a letter of a format stands for. -/
inductive Item where
  | value (width : Nat) (signed : Bool)
  /-- A byte of padding. -/
  | pad
  deriving DecidableEq, Repr

/-- The number of bytes of an item. -/
def Item.bytes : Item → Nat
  | value width _ => width
  | pad => 1

/-- What a letter stands for. -/
def itemOfLetter? : Char → Option Item
  | 'b' => some (.value 1 true)
  | 'B' => some (.value 1 false)
  | 'h' => some (.value 2 true)
  | 'H' => some (.value 2 false)
  | 'i' => some (.value 4 true)
  | 'I' => some (.value 4 false)
  | 'q' => some (.value 8 true)
  | 'Q' => some (.value 8 false)
  | 'x' => some .pad
  | _ => none

/-- The items behind the mark. `count` is the value of the digits read since the last letter. -/
def readItems : (count : Option Nat) → List Char → Option (List Item)
  | none, [] => some []
  | some _, [] => none
  | count, c :: rest =>
    if c.isDigit then readItems (some (10 * count.getD 0 + (c.toNat - '0'.toNat))) rest
    else do
      let item ← itemOfLetter? c
      let items ← readItems none rest
      some (List.replicate (count.getD 1) item ++ items)

/-- The items of a format. -/
def read (format : String) : Option (List Item) :=
  match format.toList with
  | '=' :: rest => readItems none rest
  | _ => none

/-- A value at a place. -/
structure Slot where
  start : Nat
  width : Nat
  signed : Bool
  deriving DecidableEq, Repr

/-- The values among items whose first byte is at `start`, in order. -/
def values : (start : Nat) → List Item → List Slot
  | _, [] => []
  | start, .value width signed :: items => ⟨start, width, signed⟩ :: values (start + width) items
  | start, .pad :: items => values (start + 1) items

/-- The places of the bytes of padding among items whose first byte is at `start`. -/
def pads : (start : Nat) → List Item → List Nat
  | _, [] => []
  | start, .value width _ :: items => pads (start + width) items
  | start, .pad :: items => start :: pads (start + 1) items

/-- The number of bytes of some items. -/
def byteCount : List Item → Nat
  | [] => 0
  | item :: items => item.bytes + byteCount items

/-! ### Places of items -/

@[simp] theorem byteCount_nil : byteCount [] = 0 := rfl

@[simp] theorem byteCount_cons (item : Item) (items : List Item) :
    byteCount (item :: items) = item.bytes + byteCount items := rfl

@[simp] theorem byteCount_append (before after : List Item) :
    byteCount (before ++ after) = byteCount before + byteCount after := by
  induction before with
  | nil => simp
  | cons item before ih =>
      rw [List.cons_append, byteCount_cons, byteCount_cons, ih]
      omega

@[simp] theorem byteCount_replicate_pad (count : Nat) :
    byteCount (List.replicate count .pad) = count := by
  induction count with
  | zero => rfl
  | succ count ih =>
      rw [List.replicate_succ, byteCount_cons, ih]
      show 1 + count = count + 1
      omega

/-- The values behind some items start where those end. -/
theorem values_append (start : Nat) (before after : List Item) :
    values start (before ++ after)
      = values start before ++ values (start + byteCount before) after := by
  induction before generalizing start with
  | nil => rfl
  | cons item before ih =>
      cases item with
      | value width signed =>
          simp only [List.cons_append, values, ih, byteCount_cons, Item.bytes, Nat.add_assoc]
      | pad => simp only [List.cons_append, values, ih, byteCount_cons, Item.bytes, Nat.add_assoc]

/-- There is no value in a padding. -/
theorem values_replicate_pad (start count : Nat) :
    values start (List.replicate count .pad) = [] := by
  induction count generalizing start with
  | zero => rfl
  | succ count ih => exact ih (start + 1)

/-- No value starts in front of the first item. -/
theorem le_start_of_mem_values {start : Nat} {items : List Item} {slot : Slot}
    (h : slot ∈ values start items) : start ≤ slot.start := by
  induction items generalizing start with
  | nil => simp [values] at h
  | cons item items ih =>
      cases item with
      | value width signed =>
          rcases List.mem_cons.mp h with rfl | hrest
          · exact Nat.le_refl _
          · have := ih hrest
            omega
      | pad =>
          have hrest : slot ∈ values (start + 1) items := h
          have := ih hrest
          omega

/-- A byte is one of padding if it lies among the items and in none of the values. -/
theorem mem_pads_iff (start : Nat) (items : List Item) (place : Nat) :
    place ∈ pads start items
      ↔ start ≤ place ∧ place < start + byteCount items ∧
          ∀ slot ∈ values start items,
            ¬ (slot.start ≤ place ∧ place < slot.start + slot.width) := by
  induction items generalizing start with
  | nil => simp [pads, values]
  | cons item items ih =>
      cases item with
      | value width signed =>
          simp only [pads, values, ih, byteCount_cons, Item.bytes, List.forall_mem_cons]
          constructor
          · rintro ⟨hstart, hstop, hrest⟩
            exact ⟨by omega, by omega, by omega, hrest⟩
          · rintro ⟨hstart, hstop, hhead, hrest⟩
            exact ⟨by omega, by omega, hrest⟩
      | pad =>
          simp only [pads, values, List.mem_cons, ih, byteCount_cons, Item.bytes]
          constructor
          · rintro (rfl | ⟨hstart, hstop, hrest⟩)
            · refine ⟨Nat.le_refl _, by omega, ?_⟩
              rintro slot hslot ⟨hle, -⟩
              have := le_start_of_mem_values hslot
              omega
            · exact ⟨by omega, by omega, hrest⟩
          · rintro ⟨hstart, hstop, hrest⟩
            by_cases h : place = start
            · exact Or.inl h
            · exact Or.inr ⟨by omega, by omega, hrest⟩

/-! ### Reading a text -/

/-- Digits in front of a letter are read as one number, most significant digit first. -/
theorem readItems_digits_append (digits rest : List Char) (count : Nat)
    (h : ∀ c ∈ digits, c.isDigit = true) :
    readItems (some count) (digits ++ rest)
      = readItems (some (Nat.ofDigitChars 10 digits count)) rest := by
  induction digits generalizing count with
  | nil => rfl
  | cons c digits ih =>
      have hc : c.isDigit = true := h c List.mem_cons_self
      rw [List.cons_append, readItems, if_pos hc, Nat.ofDigitChars_cons]
      exact ih _ fun d hd => h d (List.mem_cons_of_mem c hd)

/-- A number in front of a letter is read as its value. -/
theorem readItems_decimal_append (n : Nat) (rest : List Char) :
    readItems none (Nat.toDigits 10 n ++ rest) = readItems (some n) rest := by
  have hdigits : ∀ c ∈ Nat.toDigits 10 n, c.isDigit = true := fun c hc =>
    Nat.isDigit_of_mem_toDigits (by decide) (by decide) hc
  -- A number has at least one digit, and the first one starts the count at zero.
  cases hn : Nat.toDigits 10 n with
  | nil => exact absurd hn Nat.toDigits_ne_nil
  | cons c digits =>
      rw [hn] at hdigits
      have hc : c.isDigit = true := hdigits c List.mem_cons_self
      rw [List.cons_append, readItems, if_pos hc,
        readItems_digits_append digits rest _ fun d hd => hdigits d (List.mem_cons_of_mem c hd),
        Option.getD_none, ← Nat.ofDigitChars_cons, ← hn, Nat.ofDigitChars_ten_toDigits]

/-- A letter with no count in front of it stands for itself. -/
theorem readItems_letter {c : Char} {item : Item} (rest : List Char)
    (hc : c.isDigit = false) (hitem : itemOfLetter? c = some item) :
    readItems none (c :: rest) = (readItems none rest).map (item :: ·) := by
  rw [readItems, if_neg (by simp [hc]), hitem]
  cases readItems none rest <;> rfl

/-- A count in front of the letter of a padding is its number of bytes. -/
theorem readItems_count_pad (count : Nat) (rest : List Char) :
    readItems (some count) ('x' :: rest)
      = (readItems none rest).map (List.replicate count Item.pad ++ ·) := by
  rw [readItems, if_neg (by decide)]
  cases readItems none rest <;> rfl

end Format

open Format (Item Slot)

/-- The letter of an integer stands for a value of its width and sign. -/
theorem Primitive.itemOfLetter?_code (type : Primitive) :
    Format.itemOfLetter? type.code = some (.value type.width.bytes type.signed) := by
  obtain ⟨width, signed⟩ := type
  cases width <;> cases signed <;> rfl

/-- The letter of an integer is no digit. -/
theorem Primitive.isDigit_code (type : Primitive) : type.code.isDigit = false := by
  obtain ⟨width, signed⟩ := type
  cases width <;> cases signed <;> rfl

namespace Field

/-- The items that a field stands for. -/
def items : Field → List Item
  | integer _ type => [.value type.width.bytes type.signed]
  | padding count => List.replicate count .pad
  | trailing => []

/-- The text of a field is read as its items, whatever follows. -/
theorem readItems_spelled_append (field : Field) (rest : List Char) :
    Format.readItems none (field.spelled.toList ++ rest)
      = (Format.readItems none rest).map (field.items ++ ·) := by
  cases field with
  | integer name type =>
      have htext : (integer name type).spelled.toList = [type.code] := by simp [spelled]
      rw [htext]
      exact Format.readItems_letter rest type.isDigit_code type.itemOfLetter?_code
  | padding count =>
      by_cases hone : count = 1
      · subst hone
        exact Format.readItems_letter rest (by decide) (by decide)
      · have htext : (padding count).spelled.toList = Nat.toDigits 10 count ++ ['x'] := by
          simp only [spelled, if_neg hone, String.toList_append, Nat.toString_eq_repr,
            Nat.toList_repr]
          rfl
        rw [htext, List.append_assoc, Format.readItems_decimal_append]
        exact Format.readItems_count_pad count rest
  | trailing => simp [spelled, items]

/-- The texts of fields in a row are read as the items of all of them. -/
theorem readItems_allSpelled (fields : List Field) :
    Format.readItems none (fields.flatMap fun field => field.spelled.toList)
      = some (fields.flatMap items) := by
  induction fields with
  | nil => rfl
  | cons field fields ih =>
      rw [List.flatMap_cons, readItems_spelled_append, ih, List.flatMap_cons]
      rfl

/-- Trailing bytes stand for no item. -/
theorem flatMap_items_filter (fields : List Field) :
    (fields.filter fun field => !field.isTrailing).flatMap items = fields.flatMap items := by
  induction fields with
  | nil => rfl
  | cons field fields ih =>
      rw [List.flatMap_cons, ← ih]
      cases field <;> rfl

/-- A field has a text unless it is a padding of too many bytes. -/
theorem code_eq_ok {field : Field} (h : ∀ count ∈ field.count?, Numeral.isWritable count = true) :
    field.code = .ok field.spelled := by
  rw [code, if_pos ((Option.all_eq_true _ _).mpr h)]

theorem mapM_code_eq_ok {fields : List Field}
    (h : ∀ field ∈ fields, ∀ count ∈ field.count?, Numeral.isWritable count = true) :
    fields.mapM code = .ok (fields.map spelled) := by
  induction fields with
  | nil => rfl
  | cons field fields ih =>
      rw [List.forall_mem_cons] at h
      rw [List.mapM_cons, code_eq_ok h.1, ih h.2]
      rfl

/-- One padding of too many bytes is enough to leave a row of fields without a text. -/
theorem mapM_code_eq_error {fields : List Field} {count : Nat} (hmem : .padding count ∈ fields)
    (h : ¬ Numeral.isWritable count = true) : fields.mapM code = .error .tooLongToWrite := by
  induction fields with
  | nil => cases hmem
  | cons field fields ih =>
      rw [List.mapM_cons, code]
      split
      · rename_i hhead
        rcases List.mem_cons.mp hmem with rfl | hrest
        · exact absurd ((Option.all_eq_true _ _).mp hhead count rfl) h
        · rw [ih hrest]
          rfl
      · rfl

end Field

namespace Layout

/-- Every count in the format of a layout can be written. -/
def CanWrite (layout : Layout) : Prop :=
  ∀ count : Nat, .padding count ∈ layout.fields → Numeral.isWritable count = true

/-- A layout has a format if its counts can be written. -/
theorem CanWrite.format_eq {layout : Layout} (h : layout.CanWrite) :
    layout.format = .ok layout.spelledFormat := by
  have hcounts : ∀ field ∈ layout.fixedFields, ∀ count ∈ field.count?,
      Numeral.isWritable count = true := by
    intro field hfield count hcount
    have hmem : field ∈ layout.fields := (List.mem_filter.mp hfield).1
    cases field with
    | padding other =>
        cases hcount
        exact h count hmem
    | integer name type => cases hcount
    | trailing => cases hcount
  rw [format, Field.mapM_code_eq_ok hcounts]
  rfl

theorem format_eq_error {layout : Layout} (h : ¬ layout.CanWrite) :
    layout.format = .error .tooLongToWrite := by
  simp only [CanWrite, not_forall] at h
  obtain ⟨count, hmem, hlong⟩ := h
  have hfixed : .padding count ∈ layout.fixedFields := List.mem_filter.mpr ⟨hmem, rfl⟩
  rw [format, Field.mapM_code_eq_error hfixed hlong]
  rfl

/-- The format of any layout is read as the items of its fields. -/
theorem read_spelledFormat (layout : Layout) :
    Format.read layout.spelledFormat = some (layout.fields.flatMap Field.items) := by
  have htext : layout.spelledFormat.toList = '=' ::
      (layout.fields.filter fun field => !field.isTrailing).flatMap
        fun field => field.spelled.toList := by
    simp only [spelledFormat, fixedFields, orderMark, String.toList_append, String.toList_join,
      List.flatMap_map]
    rfl
  rw [Format.read, htext]
  show Format.readItems none _ = _
  rw [Field.readItems_allSpelled, Field.flatMap_items_filter]

/-- A gap stands for as many bytes of padding as lie between its ends. -/
theorem flatMap_items_gap {start stop : Nat} (h : start ≤ stop) :
    (gap start stop).flatMap Field.items = List.replicate (stop - start) .pad := by
  unfold gap
  split
  · simp [Field.items]
  · have hzero : stop - start = 0 := by omega
    simp [hzero]

namespace Placed

variable {cursor stop : Nat} {facts : List MemberFact} {fields : List Field}

/-- The items of the members reach from the cursor to their end. -/
theorem byteCount_items (h : Placed cursor facts fields stop) :
    cursor + Format.byteCount (fields.flatMap Field.items) = stop := by
  induction h with
  | done => rfl
  | @member cursor start stop name type facts fields forward rest ih =>
      rw [List.flatMap_append, flatMap_items_gap forward, List.flatMap_cons]
      simp only [Field.items, Format.byteCount_append, Format.byteCount_replicate_pad,
        List.singleton_append, Format.byteCount_cons, Item.bytes]
      omega

/-- The values among the items of the members are the members, each where it was reported. -/
theorem values_items (h : Placed cursor facts fields stop) :
    ((Format.values cursor (fields.flatMap Field.items)).map
        fun slot => ((slot.start : Int), (slot.width : Int), slot.signed))
      = facts.map fun fact => (fact.offset, fact.width, fact.signed) := by
  induction h with
  | done => rfl
  | @member cursor start stop name type facts fields forward rest ih =>
      have hstart : cursor + (start - cursor) = start := by omega
      rw [List.flatMap_append, flatMap_items_gap forward, Format.values_append,
        Format.values_replicate_pad, Format.byteCount_replicate_pad, hstart, List.flatMap_cons]
      simp only [Field.items, List.nil_append, List.singleton_append, Format.values, List.map_cons,
        ih]

end Placed

/-- Where the members of a structure end. -/
def membersEnd (facts : List MemberFact) : Int :=
  (facts.getLast?.map fun fact => fact.offset + fact.width).getD 0

/-- What the items of a layout's format have to do with what was reported about the structure. -/
structure Reproduces (layout : Layout) (items : List Item) (facts : List MemberFact)
    (hasTail : Bool) (size : Option Int) : Prop where
  /-- There is a value for each member and no other one, each with the place, the width and the
  sign of its member. -/
  values : ((Format.values 0 items).map
      fun slot => ((slot.start : Int), (slot.width : Int), slot.signed))
    = facts.map fun fact => (fact.offset, fact.width, fact.signed)
  /-- A byte that lies in no member is one of padding, and no other byte is. -/
  pads : ∀ place : Nat, place ∈ Format.pads 0 items
    ↔ place < layout.fixedLength ∧
        ∀ fact ∈ facts, ¬ (fact.offset ≤ place ∧ (place : Int) < fact.offset + fact.width)
  /-- The format is as long as the fixed part. -/
  byteCount : Format.byteCount items = layout.fixedLength
  /-- The fixed part is as long as was reported, or else ends with the last member. -/
  fixedLength : (layout.fixedLength : Int) = size.getD (membersEnd facts)
  /-- No padding is empty. -/
  padding_pos : ∀ count, .padding count ∈ layout.fields → 0 < count
  /-- No two paddings are neighbours. -/
  padding_apart : layout.fields.IsChain Apart
  /-- The number of values is the number of members. -/
  valueCount : layout.valueCount = facts.length
  /-- The trailing bytes are there exactly when they were asked for, and last; the format is the
  one of the fields in front of them. -/
  tail : ∃ fixed, layout.fields = fixed ++ (if hasTail then [.trailing] else []) ∧
    .trailing ∉ fixed ∧ layout.format = format { layout with fields := fixed } ∧
    layout.spelledFormat = spelledFormat { layout with fields := fixed }

/-- The trailing bytes add nothing to what a format is made of. -/
theorem fixedFields_append_tail (layout : Layout) (fixed : List Field) (hasTail : Bool) :
    fixedFields { layout with fields := fixed ++ (if hasTail then [.trailing] else []) }
      = fixedFields { layout with fields := fixed } := by
  cases hasTail <;> simp [fixedFields, Field.isTrailing]

/-- The bytes of padding, judged by the reported places instead of the values that were read. -/
theorem forall_slot_iff_forall_fact {slots : List Slot} {facts : List MemberFact}
    (h : (slots.map fun slot => ((slot.start : Int), (slot.width : Int), slot.signed))
      = facts.map fun fact => (fact.offset, fact.width, fact.signed)) (place : Nat) :
    (∀ slot ∈ slots, ¬ (slot.start ≤ place ∧ place < slot.start + slot.width))
      ↔ ∀ fact ∈ facts, ¬ (fact.offset ≤ place ∧ (place : Int) < fact.offset + fact.width) := by
  have hfacts : (∀ fact ∈ facts, ¬ (fact.offset ≤ place ∧ (place : Int) < fact.offset + fact.width))
      ↔ ∀ seen : Int × Int × Bool,
          seen ∈ (facts.map fun fact => (fact.offset, fact.width, fact.signed)) →
          ¬ (seen.1 ≤ place ∧ (place : Int) < seen.1 + seen.2.1) := by
    simp only [List.forall_mem_map]
  rw [hfacts, ← h]
  simp only [List.forall_mem_map]
  constructor
  · intro hslots slot hslot hin
    exact hslots slot hslot (by omega)
  · intro hslots slot hslot hin
    exact hslots slot hslot (by omega)

/-- Whatever layout is made, its format reproduces the structure that was reported. There is a
format exactly if every count in it can be written. -/
theorem reproduces_of_synthesize (base : String) (facts : List MemberFact) (hasTail : Bool)
    (size : Option Int) (layout : Layout) (h : synthesize base facts hasTail size = .ok layout) :
    ∃ items, Format.read layout.spelledFormat = some items ∧
      layout.Reproduces items facts hasTail size ∧
      (layout.CanWrite → layout.format = .ok layout.spelledFormat) ∧
      (¬ layout.CanWrite → layout.format = .error .tooLongToWrite) := by
  have hformat := And.intro (fun hcan : layout.CanWrite => hcan.format_eq)
    fun hcannot : ¬ layout.CanWrite => format_eq_error hcannot
  obtain ⟨fields, cursor, stop, hplaced, hle, hsize, rfl⟩ := synthesize_eq_ok_iff.mp h
  refine ⟨_, read_spelledFormat _, ?_, hformat⟩
  have hitems : (fields ++ gap cursor stop ++ (if hasTail then [Field.trailing] else [])).flatMap
      Field.items = fields.flatMap Field.items ++ List.replicate (stop - cursor) .pad := by
    rw [List.flatMap_append, List.flatMap_append, flatMap_items_gap hle]
    cases hasTail <;> simp [Field.items]
  have hcount := hplaced.byteCount_items
  have hvalues : ((Format.values 0 (fields.flatMap Field.items
        ++ List.replicate (stop - cursor) .pad)).map
          fun slot => ((slot.start : Int), (slot.width : Int), slot.signed))
      = facts.map fun fact => (fact.offset, fact.width, fact.signed) := by
    rw [Format.values_append, Format.values_replicate_pad, List.append_nil]
    exact hplaced.values_items
  have hbytes : Format.byteCount (fields.flatMap Field.items
      ++ List.replicate (stop - cursor) .pad) = stop := by
    rw [Format.byteCount_append, Format.byteCount_replicate_pad]
    omega
  have hnoTail : Field.trailing ∉ fields ++ gap cursor stop := by
    simp [hplaced.trailing_not_mem, trailing_not_mem_gap]
  have hfixed := fixedFields_append_tail ⟨base, [], stop⟩ (fields ++ gap cursor stop) hasTail
  simp only [hitems]
  exact {
    values := hvalues
    pads := fun place => by
      rw [Format.mem_pads_iff, hbytes, forall_slot_iff_forall_fact hvalues]
      simp
    byteCount := hbytes
    fixedLength := by
      rw [membersEnd, ← hsize]
      exact congrArg _ hplaced.stop_eq.symm
    padding_pos := fun count hmem => by
      have hfront : Field.padding count ∈ fields ++ gap cursor stop := by
        cases hasTail <;> simpa using hmem
      rcases List.mem_append.mp hfront with hmember | hgap
      · exact hplaced.padding_pos count hmember
      · exact padding_pos_of_mem_gap hgap
    padding_apart := by
      have hchain := isChain_append_gap cursor stop hplaced.isChain_apart hplaced.isPadding_getLast?
      rw [List.isChain_append]
      refine ⟨hchain, by cases hasTail <;> simp, ?_⟩
      intro field _ next hnext _
      cases hasTail with
      | false => simp at hnext
      | true =>
          cases hnext
          rfl
    valueCount := by
      rw [valueCount, List.countP_append, List.countP_append, countP_isInteger_gap,
        hplaced.countP_isInteger]
      cases hasTail <;> simp [Field.isInteger]
    tail := ⟨fields ++ gap cursor stop, rfl, hnoTail, by rw [format, format, hfixed],
      by rw [spelledFormat, spelledFormat, hfixed]⟩ }

/-- The facts about a structure with a gap between two members and one behind the last. -/
def messageFacts : List MemberFact :=
  [⟨"cmd", 0, 4, true⟩, ⟨"vers", 4, 1, true⟩, ⟨"id", 8, 8, false⟩]

/-- The layout of that structure with a tail, when it is twenty-four bytes long. -/
def messageLayout : Layout where
  base := "message"
  fields := [.integer "cmd" ⟨.four, true⟩, .integer "vers" ⟨.one, true⟩, .padding 3,
    .integer "id" ⟨.eight, false⟩, .padding 8, .trailing]
  fixedLength := 24

theorem reproduces_of_synthesize_message :
    synthesize "message" messageFacts true (some 24) = .ok messageLayout ∧
      messageLayout.format = .ok "=ib3xQ8x" ∧
      ∃ items, Format.read "=ib3xQ8x" = some items ∧
        messageLayout.Reproduces items messageFacts true (some 24) := by
  obtain ⟨items, hread, hitems, -⟩ :=
    reproduces_of_synthesize "message" messageFacts true (some 24) messageLayout rfl
  exact ⟨rfl, by decide +kernel, items, hread, hitems⟩

/-- A member behind a hole of as many bytes as the first number has that cannot be written. -/
def farFact : MemberFact :=
  ⟨"x", Nat.pow 10 Numeral.digitLimit, 1, true⟩

/-- There is a layout for the member, and no format for the layout. -/
theorem not_format_longGap :
    ∃ layout, synthesize "far" [farFact] false none = .ok layout ∧
      layout.format = .error .tooLongToWrite := by
  let layout : Layout :=
    ⟨"far", [.padding (Nat.pow 10 Numeral.digitLimit), .integer "x" ⟨.one, true⟩],
      Nat.pow 10 Numeral.digitLimit + 1⟩
  have hlong : ¬ layout.CanWrite := fun h =>
    absurd (h _ List.mem_cons_self) (by decide +kernel)
  exact ⟨layout, by decide +kernel, format_eq_error hlong⟩

end Layout

end HeaderBind
