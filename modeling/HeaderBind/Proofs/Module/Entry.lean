import HeaderBind.Proofs.Layout.Codes
import HeaderBind.Proofs.Module.Lines

/-!
# `HeaderBind.Proofs.Module.Entry`: what the lines of an entry say

The line of a constant gives back its name and its value, and the lines of a structure everything
about it but the export mode (`eq_of_structLines_eq`). Most lines of a structure have one thing in
them that is not fixed, so it can be read off between the fixed texts around it. Three have two:
the comment, the line of the format, and the one about the use of the encoder. There, the lines
behind settle one of the two first.
-/

set_option autoImplicit false

namespace HeaderBind

open HeaderBind.Text

namespace Module

/-! ### Constants -/

theorem toList_constantLine (c : Constant) (value : Int) :
    (constantLine c value).toList
      = c.exposed.toList ++ ' ' :: ('=' :: ' ' :: (toString value).toList) := by
  rw [constantLine, String.toList_append, String.toList_append, List.append_assoc]
  rfl

/-- The line of a constant gives back its name and its value. -/
theorem eq_of_constantLine_eq {c other : Constant} {value value' : Int}
    (hc : Name.isIdentifier c.exposed.toList = true)
    (hother : Name.isIdentifier other.exposed.toList = true)
    (h : constantLine c value = constantLine other value') :
    c.exposed = other.exposed ∧ value = value' := by
  have hblank : Name.isNameChar ' ' = false := by decide
  have hlists := congrArg String.toList h
  rw [toList_constantLine, toList_constantLine] at hlists
  have hnames := congrArg (List.takeWhile Name.isNameChar) hlists
  rw [takeWhile_append_cons _ (isNameChar_of_isIdentifier hc).2 hblank,
    takeWhile_append_cons _ (isNameChar_of_isIdentifier hother).2 hblank] at hnames
  rw [hnames, List.append_right_inj] at hlists
  simp only [List.cons.injEq, true_and] at hlists
  exact ⟨String.toList_inj.mp hnames, Numeral.eq_of_toString_eq (String.toList_inj.mp hlists)⟩

/-! ### Lists of parameters -/

theorem toList_intercalate_comma (first : String) (rest : List String) :
    (", ".intercalate (first :: rest)).toList
      = first.toList ++ (rest.map fun text => ' ' :: text.toList).flatMap (',' :: ·) := by
  induction rest generalizing first with
  | nil => rw [String.intercalate_singleton, List.map_nil, List.flatMap_nil, List.append_nil]
  | cons second rest ih =>
      rw [String.intercalate_cons_cons, String.toList_append, String.toList_append, ih,
        List.map_cons, List.flatMap_cons, List.append_assoc]
      rfl

/-- Parameters with commas between them are cut apart at the commas. -/
theorem splitOn_parameters {first : String} {rest : List String}
    (h : ∀ name ∈ first :: rest, Name.isIdentifier name.toList = true) :
    (", ".intercalate (first :: rest)).toList.splitOn ','
      = first.toList :: rest.map fun text => ' ' :: text.toList := by
  have hcomma : ∀ name ∈ first :: rest, ',' ∉ name.toList := fun name hname hmem =>
    ne_of_isNameChar ((isNameChar_of_isIdentifier (h name hname)).2 ',' hmem) (by decide) rfl
  rw [toList_intercalate_comma, splitOn_flatMap_cons (hcomma first List.mem_cons_self)]
  intro text htext
  obtain ⟨name, hname, rfl⟩ := List.mem_map.mp htext
  rw [List.mem_cons, not_or]
  exact ⟨by decide, hcomma name (List.mem_cons_of_mem first hname)⟩

theorem eq_of_intercalate_comma_eq {names others : List String}
    (hnames : ∀ name ∈ names, Name.isIdentifier name.toList = true)
    (hothers : ∀ name ∈ others, Name.isIdentifier name.toList = true)
    (h : ", ".intercalate names = ", ".intercalate others) : names = others := by
  -- No identifier is empty, so no list of them but the empty one is written as nothing.
  have hempty : ∀ (first : String) (rest : List String),
      Name.isIdentifier first.toList = true → ", ".intercalate (first :: rest) ≠ "" := by
    intro first rest hfirst heq
    have hlist := congrArg String.toList heq
    rw [toList_intercalate_comma] at hlist
    exact (isNameChar_of_isIdentifier hfirst).1 (List.append_eq_nil_iff.mp hlist).1
  cases names with
  | nil =>
      cases others with
      | nil => rfl
      | cons other others =>
          exact absurd h.symm (hempty other others (hothers other List.mem_cons_self))
  | cons name names =>
      cases others with
      | nil => exact absurd h (hempty name names (hnames name List.mem_cons_self))
      | cons other others =>
          have hsplit := congrArg (fun s : String => s.toList.splitOn ',') h
          rw [splitOn_parameters hnames, splitOn_parameters hothers] at hsplit
          obtain ⟨hfirst, hrest⟩ := List.cons.inj hsplit
          rw [String.toList_inj.mp hfirst, (List.map_inj_right fun a b hab =>
            String.toList_inj.mp (List.cons.inj hab).2).mp hrest]

/-! ### Structures -/

/-- The line that tells whether there is a tail. -/
theorem getElem?_structLines (s : Struct) (layout : Layout) :
    (structLines s layout)[7]?
      = some (if layout.hasTail then "    tail = values[-1]" else "    try:") := by
  cases h : layout.hasTail <;> simp [structLines, encoderLines, h]

theorem length_structLines (s : Struct) (layout : Layout) :
    (structLines s layout).length = if layout.hasTail then 20 else 17 := by
  cases h : layout.hasTail <;> simp [structLines, encoderLines, decoderLines, h]

theorem hasTail_eq_of_getElem?_eq {s other : Struct} {layout layout' : Layout}
    (h : (structLines s layout)[7]? = (structLines other layout')[7]?) :
    layout.hasTail = layout'.hasTail := by
  rw [getElem?_structLines, getElem?_structLines] at h
  cases htail : layout.hasTail <;> cases htail' : layout'.hasTail
  · rfl
  · rw [htail, htail'] at h
    exact absurd (Option.some.inj h) (by decide)
  · rw [htail, htail'] at h
    exact absurd (Option.some.inj h) (by decide)
  · rfl

/-- What two structures with the same lines have in common. -/
structure SameLines (s other : Struct) (layout layout' : Layout) : Prop where
  encoder : s.encoder = other.encoder
  decoder : s.decoder = other.decoder
  base : s.base = other.base
  length : layout.fixedLength = layout'.fixedLength
  comment : "# " ++ s.name ++ ": " ++ toString layout.fixedLength
    = "# " ++ other.name ++ ": " ++ toString layout'.fixedLength
  object : Struct.formatName s.base ++ " = _struct.Struct(\"" ++ layout.spelledFormat
    = Struct.formatName other.base ++ " = _struct.Struct(\"" ++ layout'.spelledFormat
  usage : "        raise UsageError(\"usage: " ++ s.encoder ++ "(" ++ ", ".intercalate s.parameters
    = "        raise UsageError(\"usage: " ++ other.encoder ++ "(" ++
      ", ".intercalate other.parameters

theorem sameLines_of_structLines_eq {s other : Struct} {layout layout' : Layout}
    (h : structLines s layout = structLines other layout') : SameLines s other layout layout' := by
  have htail : layout.hasTail = layout'.hasTail :=
    hasTail_eq_of_getElem?_eq (congrArg (fun lines : List String => lines[7]?) h)
  -- With a tail the routines have more lines, so the same thing stands at another place.
  cases hwith : layout'.hasTail with
  | false =>
      rw [hwith] at htail
      simp only [structLines, encoderLines, decoderLines, htail, hwith, if_false,
        Bool.false_eq_true, List.cons_append, List.nil_append, List.cons.injEq, and_true, true_and,
        String.append_left_inj, String.append_right_inj] at h
      obtain ⟨comment, object, encoder, -, usage, base, -, decoder, length, -, -⟩ := h
      exact ⟨encoder, decoder, String.append_right_inj _ |>.mp base,
        Numeral.eq_of_toString_nat_eq length, comment, object, usage⟩
  | true =>
      rw [hwith] at htail
      simp only [structLines, encoderLines, decoderLines, htail, hwith, if_true,
        List.cons_append, List.nil_append, List.cons.injEq, and_true, true_and,
        String.append_left_inj, String.append_right_inj] at h
      obtain ⟨comment, object, encoder, -, usage, -, base, -, decoder, length, -, -⟩ := h
      exact ⟨encoder, decoder, String.append_right_inj _ |>.mp base,
        Numeral.eq_of_toString_nat_eq length, comment, object, usage⟩

theorem isIdentifier_parameters {s : Struct}
    (members : ∀ member ∈ s.members, Name.isIdentifier member.toList = true) :
    ∀ parameter ∈ s.parameters, Name.isIdentifier parameter.toList = true := by
  intro parameter hparameter
  unfold Struct.parameters at hparameter
  split at hparameter
  · rcases List.mem_append.mp hparameter with hmember | htail
    · exact members parameter hmember
    · rw [List.mem_singleton.mp htail]
      decide
  · exact members parameter hparameter

theorem members_eq_of_parameters_eq {s other : Struct} (htail : s.hasTail = other.hasTail)
    (h : s.parameters = other.parameters) : s.members = other.members := by
  unfold Struct.parameters at h
  rw [htail] at h
  split at h
  · exact List.append_left_inj _ |>.mp h
  · exact h

/-- The lines of a structure give back the structure, but for its mode, and its layout. -/
theorem eq_of_structLines_eq {s other : Struct} {layout layout' : Layout}
    (hs : (Declaration.struct s).Plain) (hother : (Declaration.struct other).Plain)
    (hlayout : layout.MadeFor s.base s.members s.hasTail)
    (hlayout' : layout'.MadeFor other.base other.members other.hasTail)
    (h : structLines s layout = structLines other layout') :
    other = { s with mode := other.mode } ∧ layout = layout' := by
  have htail : s.hasTail = other.hasTail := by
    rw [← hlayout.hasTail_eq, ← hlayout'.hasTail_eq]
    exact hasTail_eq_of_getElem?_eq (congrArg (fun lines : List String => lines[7]?) h)
  obtain ⟨encoder, decoder, base, length, comment, object, usage⟩ := sameLines_of_structLines_eq h
  have hname : s.name = other.name := by
    -- The length is known from the decoder, so the name is what is left of the comment.
    rw [length, String.append_left_inj, String.append_left_inj, String.append_right_inj] at comment
    exact comment
  have hformat : layout.spelledFormat = layout'.spelledFormat := by
    rw [base, String.append_right_inj] at object
    exact object
  have hmembers : s.members = other.members := by
    rw [encoder, String.append_right_inj] at usage
    cases hs with
    | struct _ _ _ _ members =>
        cases hother with
        | struct _ _ _ _ members' =>
            exact members_eq_of_parameters_eq htail (eq_of_intercalate_comma_eq
              (isIdentifier_parameters members) (isIdentifier_parameters members') usage)
  refine ⟨?_, ?_⟩
  · obtain ⟨_, _, _, _, _, _, _⟩ := s
    obtain ⟨_, _, _, _, _, _, _⟩ := other
    cases hname
    cases base
    cases hmembers
    cases encoder
    cases decoder
    cases htail
    rfl
  · rw [base, hmembers, htail] at hlayout
    exact hlayout.eq_of_spelledFormat_eq hlayout' hformat length

end Module

end HeaderBind
