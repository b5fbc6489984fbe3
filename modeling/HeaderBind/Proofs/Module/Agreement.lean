import HeaderBind.Proofs.Layout.Format
import HeaderBind.Proofs.Module.Injective

/-!
# `HeaderBind.Proofs.Module.Agreement`: a structure is the same everywhere

The routines of a structure are written from two sources. How many values the encoder takes comes
from the declaration; the format, and the length that the decoder tests, come from the layout. A
routine works only if the two agree, and nothing compares them when the text is written.

`coherent_of_resolve` says that they agree, whatever a probe printed, if the output resolves the
declarations at all: the reader of the output compares the names of the members, and the layout
keeps what it was given. The declarations may be any, those with names that cannot be bound
included. It also says that what was resolved can always be written: all numbers in the text were
read from a text, or are smaller than one that was.

The text itself is asked which numbers it compares with the lengths (`Module.Tells`). A line of a
structure is found by how it starts, and `append_eq_append_iff_of_apart` rules out all lines that
start otherwise.
-/

set_option autoImplicit false

namespace HeaderBind

/-! ### Texts that start differently -/

/-- The bytes of a text. -/
def bytesOf (s : String) : List UInt8 :=
  s.toByteArray.data.toList

theorem bytesOf_append (s t : String) : bytesOf (s ++ t) = bytesOf s ++ bytesOf t := by
  simp only [bytesOf, String.toByteArray_append, ByteArray.data_append, Array.toList_append]

/-- Whether two texts differ at a byte that both have. Bytes instead of characters, since a check on
fixed texts is to be quick. -/
def apart (s t : String) : Bool :=
  ((bytesOf s).zip (bytesOf t)).any fun pair => pair.1 != pair.2

/-- What differs at some place still does when both are continued. -/
theorem append_ne_append_of_any_zip {as bs : List UInt8} (cs ds : List UInt8)
    (h : ((as.zip bs).any fun pair => pair.1 != pair.2) = true) : as ++ cs ≠ bs ++ ds := by
  induction as generalizing bs with
  | nil => cases h
  | cons a as ih =>
      cases bs with
      | nil => cases h
      | cons b bs =>
          intro heq
          obtain ⟨rfl, hrest⟩ := List.cons.inj heq
          -- The heads are equal, so the place where they differ lies behind them.
          refine ih ?_ hrest
          simpa using h

/-- Whatever follows, texts that start differently are different. -/
theorem append_eq_append_iff_of_apart {s t : String} (u v : String) (h : apart s t = true) :
    s ++ u = t ++ v ↔ False := by
  refine ⟨fun heq => ?_, False.elim⟩
  have hbytes := congrArg bytesOf heq
  rw [bytesOf_append, bytesOf_append] at hbytes
  exact append_ne_append_of_any_zip _ _ h hbytes

theorem append_eq_iff_of_apart {s t : String} (u : String) (h : apart s t = true) :
    s ++ u = t ↔ False := by
  have happend := append_eq_append_iff_of_apart u "" h
  rwa [String.append_empty] at happend

theorem toString_nat_inj {m n : Nat} : toString m = toString n ↔ m = n :=
  ⟨Numeral.eq_of_toString_nat_eq, congrArg toString⟩

/-! ### The integers of a layout -/

/-- The name, the width and the sign of a field that is a member. -/
def Field.integer? : Field → Option (String × Int × Bool)
  | integer name type => some (name, type.width.bytes, type.signed)
  | _ => none

namespace Layout

/-- The members among the fields, in order. -/
def integers (layout : Layout) : List (String × Int × Bool) :=
  layout.fields.filterMap Field.integer?

theorem filterMap_integer?_gap (start stop : Nat) :
    (gap start stop).filterMap Field.integer? = [] := by
  unfold gap
  split <;> rfl

/-- The members among fields are the facts that they were placed by. -/
theorem Placed.filterMap_integer? {cursor stop : Nat} {facts : List MemberFact}
    {fields : List Field} (h : Placed cursor facts fields stop) :
    fields.filterMap Field.integer?
      = facts.map fun fact => (fact.name, fact.width, fact.signed) := by
  induction h with
  | done => rfl
  | @member cursor start stop name type facts fields forward rest ih =>
      rw [List.filterMap_append, filterMap_integer?_gap, List.nil_append, List.map_cons, ← ih]
      rfl

theorem integers_of_synthesize {base : String} {facts : List MemberFact} {hasTail : Bool}
    {size : Option Int} {layout : Layout} (h : synthesize base facts hasTail size = .ok layout) :
    layout.integers = facts.map fun fact => (fact.name, fact.width, fact.signed) := by
  obtain ⟨fields, cursor, stop, hplaced, -, -, rfl⟩ := synthesize_eq_ok_iff.mp h
  have htail : (if hasTail then [Field.trailing] else []).filterMap Field.integer? = [] := by
    cases hasTail <;> rfl
  rw [integers, List.filterMap_append, List.filterMap_append, filterMap_integer?_gap, htail,
    hplaced.filterMap_integer?, List.append_nil, List.append_nil]

/-- The fixed part is as long as it was reported to be. -/
theorem fixedLength_of_synthesize {base : String} {facts : List MemberFact} {hasTail : Bool}
    {size : Int} {layout : Layout} (h : synthesize base facts hasTail (some size) = .ok layout) :
    (layout.fixedLength : Int) = size := by
  obtain ⟨fields, cursor, stop, -, -, hsize, rfl⟩ := synthesize_eq_ok_iff.mp h
  exact hsize.symm

/-- The values in the format of a layout are as many as the members, and its items are as many
bytes as the fixed part is long. -/
theorem counts_of_synthesize {base : String} {facts : List MemberFact} {hasTail : Bool}
    {size : Option Int} {layout : Layout} (h : synthesize base facts hasTail size = .ok layout) :
    (Format.values 0 (layout.fields.flatMap Field.items)).length = facts.length ∧
      Format.byteCount (layout.fields.flatMap Field.items) = layout.fixedLength := by
  obtain ⟨fields, cursor, stop, hplaced, hle, -, rfl⟩ := synthesize_eq_ok_iff.mp h
  -- The gap at the end is padding and the tail has no items, so neither adds a value.
  have hitems : (fields ++ gap cursor stop ++ (if hasTail then [Field.trailing] else [])).flatMap
      Field.items = fields.flatMap Field.items ++ List.replicate (stop - cursor) .pad := by
    rw [List.flatMap_append, List.flatMap_append, flatMap_items_gap hle]
    cases hasTail <;> simp [Field.items]
  have hvalues := congrArg List.length hplaced.values_items
  have hcount := hplaced.byteCount_items
  rw [List.length_map, List.length_map] at hvalues
  simp only [hitems]
  constructor
  · rw [Format.values_append, Format.values_replicate_pad, List.append_nil, hvalues]
  · rw [Format.byteCount_append, Format.byteCount_replicate_pad]
    omega

/-- No padding is longer than the fixed part. -/
theorem padding_le_fixedLength {base : String} {facts : List MemberFact} {hasTail : Bool}
    {size : Option Int} {layout : Layout} (h : synthesize base facts hasTail size = .ok layout) :
    ∀ count, .padding count ∈ layout.fields → count ≤ layout.fixedLength := by
  obtain ⟨fields, cursor, stop, hplaced, hle, -, rfl⟩ := synthesize_eq_ok_iff.mp h
  intro count hmem
  show count ≤ stop
  have hfixed : Field.padding count ∈ fields ++ gap cursor stop := by
    cases hasTail <;> simpa using hmem
  rcases List.mem_append.mp hfixed with hmember | hgap
  · exact Nat.le_trans (hplaced.padding_le count hmember) hle
  · exact padding_le_of_mem_gap hgap

end Layout

/-! ### What the text of a structure says -/

namespace Module

/-- The text of a structure compiles the given format and nothing else, and the only numbers that it
compares lengths with, or cuts at, are the given ones. -/
structure Tells (s : Struct) (layout : Layout) (format : String) (arity length : Nat) : Prop where
  format (text : String) :
    s!"{Struct.formatName s.base} = _struct.Struct(\"{text}\")" ∈ structLines s layout
      ↔ text = format
  /-- The encoder takes exactly so many values. -/
  values (n : Nat) : s!"    if len(values) != {n}:" ∈ structLines s layout ↔ n = arity
  /-- Without a tail the decoder takes exactly so many bytes. -/
  exactly (n : Nat) :
    s!"    if len(data) != {n}:" ∈ structLines s layout ↔ s.hasTail = false ∧ n = length
  /-- With a tail the decoder takes at least so many bytes. -/
  atLeast (n : Nat) :
    s!"    if len(data) < {n}:" ∈ structLines s layout ↔ s.hasTail = true ∧ n = length
  /-- The tail starts behind so many bytes. -/
  cut (n : Nat) :
    s!"    return {Struct.formatName s.base}.unpack_from(data) + (bytes(data[{n}:]),)"
        ∈ structLines s layout ↔ s.hasTail = true ∧ n = length

/-- The arity is taken from the declaration, the length from the layout. -/
theorem tells_structLines {s : Struct} {layout : Layout} (h : layout.hasTail = s.hasTail) :
    Tells s layout layout.spelledFormat s.parameters.length layout.fixedLength := by
  -- Each of the lines is compared with the one that is looked for, and all but one start otherwise.
  cases htail : s.hasTail <;> constructor <;> intro n <;>
    simp (disch := decide +kernel) only [structLines, encoderLines, decoderLines, h.trans htail,
      htail, Struct.formatName, List.mem_cons, List.not_mem_nil, List.cons_append, List.nil_append,
      String.append_assoc, append_eq_append_iff_of_apart, append_eq_iff_of_apart,
      String.append_eq_empty_iff, String.append_right_inj, String.append_left_inj,
      String.reduceEq, toString_text, toString_nat_inj, Bool.false_eq_true, reduceCtorEq, if_true,
      if_false, false_or, or_false, false_and, true_and]

end Module

/-! ### Resolved declarations -/

namespace Probe

/-- The size that was read is short enough to be written. -/
theorem isWritable_size_of_readStruct {base value : String} {names : Option (List String)}
    {facts : StructFacts} (h : readStruct base value names = .ok facts) :
    Numeral.isWritable facts.size = true := by
  simp only [readStruct] at h
  split at h
  · cases h
  · split at h
    · cases h
    · obtain ⟨members, -, h⟩ := bind_eq_ok_iff.mp h
      obtain ⟨_, -, h⟩ := bind_eq_ok_iff.mp h
      obtain ⟨size, hsize, h⟩ := bind_eq_ok_iff.mp h
      cases h
      exact Numeral.isWritable_of_read (mapError_eq_ok_iff.mp hsize)

theorem isWritable_of_readConstant {name value : String} {n : Int}
    (h : readConstant name value = .ok n) : Numeral.isWritable n = true := by
  unfold readConstant at h
  split at h
  · rename_i hread
    cases h
    exact Numeral.isWritable_of_read hread
  · cases h

end Probe

/-- A structure, the facts about it, its layout and its text say the same. The layout has a format,
which is read by the rules of those who will use it. -/
structure Resolved.Coherent (s : Struct) (facts : Probe.StructFacts) (layout : Layout) : Prop where
  members : facts.members.map MemberFact.name = s.members
  integers : layout.integers = facts.members.map fun fact => (fact.name, fact.width, fact.signed)
  hasTail : layout.hasTail = s.hasTail
  fixedLength : (layout.fixedLength : Int) = facts.size
  text : ∃ format items, layout.format = .ok format ∧ Format.read format = some items ∧
    Module.Tells s layout format ((Format.values 0 items).length + if s.hasTail then 1 else 0)
      (Format.byteCount items)

namespace Resolution

/-- The length of the fixed part can be written, for the size was read from an output. -/
theorem isWritable_fixedLength_of_resolveOne {found : Entries String} {s : Struct}
    {facts : Probe.StructFacts} {layout : Layout}
    (h : resolveOne found (Resolved.struct s facts layout).declaration
      = .ok (.struct s facts layout)) : Numeral.isWritable layout.fixedLength = true := by
  obtain ⟨value, facts', layout', -, hread, hlayout, heq⟩ := resolveOne_struct_eq_ok_iff.mp h
  cases heq
  have hsize := Layout.fixedLength_of_synthesize hlayout
  exact hsize ▸ Probe.isWritable_size_of_readStruct hread

/-- So the layout has a format: no padding is longer than the fixed part. -/
theorem canWrite_of_resolveOne {found : Entries String} {s : Struct}
    {facts : Probe.StructFacts} {layout : Layout}
    (h : resolveOne found (Resolved.struct s facts layout).declaration
      = .ok (.struct s facts layout)) : layout.CanWrite := by
  have hlength := isWritable_fixedLength_of_resolveOne h
  obtain ⟨value, facts', layout', -, -, hlayout, heq⟩ := resolveOne_struct_eq_ok_iff.mp h
  cases heq
  exact fun count hfield =>
    Numeral.isWritable_of_le (Layout.padding_le_fixedLength hlayout count hfield) hlength

theorem coherent_of_resolveOne {found : Entries String} {s : Struct} {facts : Probe.StructFacts}
    {layout : Layout}
    (h : resolveOne found (Resolved.struct s facts layout).declaration
      = .ok (.struct s facts layout)) : Resolved.Coherent s facts layout := by
  have hformat := (canWrite_of_resolveOne h).format_eq
  obtain ⟨value, facts', layout', -, hread, hlayout, heq⟩ := resolveOne_struct_eq_ok_iff.mp h
  cases heq
  have hnames := Probe.name_of_readStruct hread
  have htail := (Layout.madeFor_of_synthesize hlayout).hasTail_eq
  obtain ⟨hvalues, hbytes⟩ := Layout.counts_of_synthesize hlayout
  refine ⟨hnames, Layout.integers_of_synthesize hlayout, htail,
    Layout.fixedLength_of_synthesize hlayout, _, _, hformat, Layout.read_spelledFormat layout, ?_⟩
  -- There is a parameter for each member, and one for the tail.
  have harity : s.parameters.length = facts.members.length + if s.hasTail then 1 else 0 := by
    have hlength := congrArg List.length hnames
    rw [List.length_map] at hlength
    rw [hlength, Struct.parameters]
    cases s.hasTail <;> simp
  rw [hvalues, hbytes, ← harity]
  exact Module.tells_structLines htail

/-- The numbers in the text of what was resolved are short enough to be written. -/
theorem isWritable_of_resolveOne {found : Entries String} {r : Resolved}
    (h : resolveOne found r.declaration = .ok r) :
    (Module.Entry.ofResolved r).numbers.all Numeral.isWritable = true := by
  cases r with
  | constant c n =>
      obtain ⟨value, n', -, hread, heq⟩ := resolveOne_constant_eq_ok_iff.mp h
      cases heq
      simp [Module.Entry.ofResolved, Module.Entry.numbers, Probe.isWritable_of_readConstant hread]
  | struct s facts layout =>
      simp only [Module.Entry.ofResolved, Module.Entry.numbers, List.all_cons,
        isWritable_fixedLength_of_resolveOne h, Bool.true_and, List.all_eq_true,
        List.mem_filterMap]
      rintro number ⟨field, hfield, hnumber⟩
      cases field with
      | padding count =>
          cases hnumber
          exact canWrite_of_resolveOne h count hfield
      | integer name type => cases hnumber
      | trailing => cases hnumber

/-- The text of what was resolved can be written, whatever the name and the label. -/
theorem render_of_resolve {declarations : List Declaration} {output : String} {rs : List Resolved}
    (h : resolve declarations output = .ok rs) (name label : String) :
    Module.render name label (rs.map Module.Entry.ofResolved)
      = .ok (Module.text name label (rs.map Module.Entry.ofResolved)) := by
  have hwritable : ((rs.map Module.Entry.ofResolved).all fun entry =>
      entry.numbers.all Numeral.isWritable) = true := by
    rw [List.all_map, List.all_eq_true]
    exact fun r hr => isWritable_of_resolveOne ((resolveAll_eq_ok_iff.mp h).2 r hr)
  rw [Module.render, if_pos hwritable]

/-- What an output resolves is one entry for each declaration, in order. The facts about each
structure, its layout and its text agree with the declaration, and the text of all entries can be
written, whatever the name and the label. -/
theorem coherent_of_resolve {declarations : List Declaration} {output : String}
    {rs : List Resolved} (h : resolve declarations output = .ok rs) :
    rs.map Resolved.declaration = declarations ∧
      (∀ s facts layout, .struct s facts layout ∈ rs → Resolved.Coherent s facts layout) ∧
      ∀ name label, Module.render name label (rs.map Module.Entry.ofResolved)
        = .ok (Module.text name label (rs.map Module.Entry.ofResolved)) := by
  obtain ⟨hdeclarations, hresolved⟩ := resolveAll_eq_ok_iff.mp h
  exact ⟨hdeclarations, fun s facts layout hmem => coherent_of_resolveOne (hresolved _ hmem),
    render_of_resolve h⟩

/-- A structure with a gap between two members, one behind the last, and a tail. -/
def messageStruct : Struct where
  name := "struct message"
  base := "message"
  members := ["cmd", "vers", "id"]
  encoder := "encode_message"
  decoder := "decode_message"
  hasTail := true
  mode := .always

/-- The structure is one that can be declared, and its encoder takes four values: the three that
its format holds, and the tail. -/
theorem coherent_of_resolve_message :
    Struct.make "struct message" [.named "cmd" "numeric", .named "vers" "numeric",
        .named "id" "numeric"] .always none none true = .ok messageStruct ∧
      resolve [.struct messageStruct] "ready\nmessage=24,cmd@0+4s,vers@4+1s,id@8+8u\n"
        = .ok [.struct messageStruct ⟨24, Layout.messageFacts⟩ Layout.messageLayout] ∧
      Resolved.Coherent messageStruct ⟨24, Layout.messageFacts⟩ Layout.messageLayout ∧
      "    if len(values) != 4:" ∈ Module.structLines messageStruct Layout.messageLayout := by
  have hresolve : resolve [.struct messageStruct]
      "ready\nmessage=24,cmd@0+4s,vers@4+1s,id@8+8u\n"
        = .ok [.struct messageStruct ⟨24, Layout.messageFacts⟩ Layout.messageLayout] := by
    decide +kernel
  have hcoherent : Resolved.Coherent messageStruct ⟨24, Layout.messageFacts⟩ Layout.messageLayout :=
    (coherent_of_resolve hresolve).2.1 _ _ _ List.mem_cons_self
  obtain ⟨format, items, hformat, hread, htells⟩ := hcoherent.text
  have hspelled : format = Layout.messageLayout.spelledFormat :=
    Except.ok.inj (hformat.symm.trans (by decide +kernel))
  have hitems : items = Layout.messageLayout.fields.flatMap Field.items :=
    Option.some.inj (hread.symm.trans (hspelled ▸ Layout.read_spelledFormat Layout.messageLayout))
  exact ⟨by decide +kernel, hresolve, hcoherent, (htells.values 4).mpr (by rw [hitems]; decide)⟩

end Resolution

end HeaderBind
