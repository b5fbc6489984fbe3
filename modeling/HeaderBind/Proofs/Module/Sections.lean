import Mathlib.Data.List.Forall2
import HeaderBind.Proofs.Module.Entry

/-!
# `HeaderBind.Proofs.Module.Sections`: the body of a module is read in one way

Behind the first lines, a body has four sections: what structures need, two export lists, and the
entries. Any of the first three may be missing, and nothing counts the entries. What follows is
always told by a single line: the second one for the imports, the third one for an export list, the
first one of an entry for its kind, and the eighth one of a structure for its length.

`eq_of_body_eq` puts these together: equal bodies have the same exported names under both modes, and
the same lines for each entry (`SameEntryLines`).
-/

set_option autoImplicit false

namespace HeaderBind.Module

open HeaderBind.Text

/-! ### The first line of an entry -/

theorem bracket_notMem_constantLine {c : Constant} (value : Int)
    (h : Name.isIdentifier c.exposed.toList = true) : '[' ∉ (constantLine c value).toList := by
  have hname : '[' ∉ c.exposed.toList := fun hmem =>
    ne_of_isNameChar ((isNameChar_of_isIdentifier h).2 '[' hmem) (by decide) rfl
  have hdigits : '[' ∉ Nat.toDigits 10 value.natAbs := fun hmem =>
    absurd ((Numeral.isDigits_toDigits _).2 '[' hmem) (by decide)
  have hvalue : '[' ∉ (toString value).toList := by
    rw [Numeral.toList_toString]
    split
    · rw [List.mem_cons, not_or]
      exact ⟨by decide, hdigits⟩
    · exact hdigits
  rw [toList_constantLine, List.mem_append, not_or]
  refine ⟨hname, ?_⟩
  simp only [List.mem_cons, hvalue, or_false]
  decide

theorem head?_constantLine {c : Constant} (value : Int)
    (h : Name.isIdentifier c.exposed.toList = true) :
    ∃ first, (constantLine c value).toList.head? = some first ∧
      Name.isNameChar first = true := by
  obtain ⟨hne, hname⟩ := isNameChar_of_isIdentifier h
  obtain ⟨first, rest, hcs⟩ := List.exists_cons_of_ne_nil hne
  refine ⟨first, ?_, hname first (hcs ▸ List.mem_cons_self)⟩
  rw [toList_constantLine, hcs]
  rfl

theorem structLines_eq_cons (s : Struct) (layout : Layout) :
    ∃ comment rest, structLines s layout = comment :: rest ∧
      comment.toList.head? = some '#' := by
  refine ⟨_, _, rfl, ?_⟩
  simp only [String.toList_append, List.append_assoc]
  rfl

/-- The line of a constant does not start a structure. -/
theorem constantLine_ne_head {c : Constant} {value : Int} {s : Struct} {layout : Layout}
    {rest others : List String} (h : Name.isIdentifier c.exposed.toList = true) :
    constantLine c value :: rest ≠ structLines s layout ++ others := by
  intro heq
  obtain ⟨first, hfirst, hname⟩ := head?_constantLine value h
  obtain ⟨comment, lines, hlines, hcomment⟩ := structLines_eq_cons s layout
  rw [hlines, List.cons_append] at heq
  rw [(List.cons.inj heq).1, hcomment] at hfirst
  cases hfirst
  cases hname

theorem constantLine_ne_empty {c : Constant} {value : Int}
    (h : Name.isIdentifier c.exposed.toList = true) : constantLine c value ≠ "" := by
  intro heq
  obtain ⟨first, hfirst, -⟩ := head?_constantLine value h
  rw [heq] at hfirst
  cases hfirst

/-! ### Entries -/

/-- Two entries of one kind with the same lines. -/
inductive SameEntryLines : Entry → Entry → Prop
  | constant {c other : Constant} {value value' : Int}
      (lines : constantLine c value = constantLine other value') :
      SameEntryLines (.constant c value) (.constant other value')
  | struct {s other : Struct} {layout layout' : Layout}
      (lines : structLines s layout = structLines other layout') :
      SameEntryLines (.struct s layout) (.struct other layout')

theorem blocks_constant (afterConstant : Bool) (c : Constant) (value : Int)
    (entries : List Entry) :
    blocks afterConstant (.constant c value :: entries)
      = (if afterConstant then [] else ["", ""]) ++
          constantLine c value :: blocks true entries := by
  cases afterConstant <;> rfl

theorem blocks_struct (afterConstant : Bool) (s : Struct) (layout : Layout)
    (entries : List Entry) :
    blocks afterConstant (.struct s layout :: entries)
      = "" :: "" :: (structLines s layout ++ blocks false entries) := by
  cases afterConstant <;> rfl

theorem blocks_cons_ne_nil (afterConstant : Bool) (entry : Entry) (entries : List Entry) :
    blocks afterConstant (entry :: entries) ≠ [] := by
  cases entry with
  | constant c value =>
      rw [blocks_constant]
      exact List.append_ne_nil_of_right_ne_nil _ (List.cons_ne_nil _ _)
  | struct s layout =>
      rw [blocks_struct]
      exact List.cons_ne_nil _ _

/-- A constant and a structure do not go on in the same way. -/
theorem blocks_constant_ne_struct {afterConstant : Bool} {c : Constant} {value : Int} {s : Struct}
    {layout : Layout} {entries others : List Entry}
    (h : Name.isIdentifier c.exposed.toList = true) :
    blocks afterConstant (.constant c value :: entries)
      ≠ blocks afterConstant (.struct s layout :: others) := by
  intro heq
  rw [blocks_constant, blocks_struct] at heq
  cases afterConstant with
  | true => exact constantLine_ne_empty h (List.cons.inj heq).1
  | false => exact constantLine_ne_head h (List.cons.inj (List.cons.inj heq).2).2

/-- The lines of a structure in front of other lines. -/
theorem structLines_append_inj {s other : Struct} {layout layout' : Layout}
    {rest others : List String}
    (h : structLines s layout ++ rest = structLines other layout' ++ others) :
    structLines s layout = structLines other layout' ∧ rest = others := by
  -- The eighth line of both tells whether there is a tail, and with that how many lines there are.
  have hin : ∀ (s : Struct) (layout : Layout), 7 < (structLines s layout).length := by
    intro s layout
    rw [length_structLines]
    split <;> decide
  have heighth : (structLines s layout ++ rest)[7]? = (structLines other layout' ++ others)[7]? :=
    congrArg (fun lines : List String => lines[7]?) h
  rw [List.getElem?_append_left (hin s layout), List.getElem?_append_left (hin other layout')]
    at heighth
  have htail : layout.hasTail = layout'.hasTail := hasTail_eq_of_getElem?_eq heighth
  have hlength : (structLines s layout).length = (structLines other layout').length := by
    rw [length_structLines, length_structLines, htail]
  exact List.append_inj h hlength

/-- The lines of entries are read in one way. Whether a constant stands in front is known, since
the lines are read from the front. -/
theorem forall₂_of_blocks_eq {afterConstant : Bool} {entries others : List Entry}
    (hentries : ∀ entry ∈ entries, entry.declaration.Plain)
    (hothers : ∀ entry ∈ others, entry.declaration.Plain)
    (h : blocks afterConstant entries = blocks afterConstant others) :
    List.Forall₂ SameEntryLines entries others := by
  induction entries generalizing afterConstant others with
  | nil =>
      cases others with
      | nil => exact .nil
      | cons other others => exact absurd h.symm (blocks_cons_ne_nil _ _ _)
  | cons entry entries ih =>
      have hrest := fun e he => hentries e (List.mem_cons_of_mem entry he)
      cases others with
      | nil => exact absurd h (blocks_cons_ne_nil _ _ _)
      | cons other others =>
          have hrest' := fun e he => hothers e (List.mem_cons_of_mem other he)
          have hentry := hentries entry List.mem_cons_self
          have hother := hothers other List.mem_cons_self
          cases entry with
          | constant c value =>
              obtain ⟨exposed⟩ := hentry
              cases other with
              | constant c' value' =>
                  rw [blocks_constant, blocks_constant, List.append_right_inj] at h
                  obtain ⟨hline, hlines⟩ := List.cons.inj h
                  exact .cons (.constant hline) (ih hrest hrest' hlines)
              | struct s layout => exact absurd h (blocks_constant_ne_struct exposed)
          | struct s layout =>
              cases other with
              | constant c' value' =>
                  obtain ⟨exposed⟩ := hother
                  exact absurd h.symm (blocks_constant_ne_struct exposed)
              | struct s' layout' =>
                  rw [blocks_struct, blocks_struct] at h
                  obtain ⟨hlines, hblocks⟩ :=
                    structLines_append_inj (List.cons.inj (List.cons.inj h).2).2
                  exact .cons (.struct hlines) (ih hrest hrest' hblocks)

/-! ### Export lists -/

/-- The line that starts an export list. -/
def exportHead (listName : String) : String :=
  s!"{listName} = ["

theorem exportBlock_cons (listName name : String) (names : List String) :
    exportBlock listName (name :: names)
      = "" :: "" :: exportHead listName ::
        ((name :: names).map (fun name => s!"    \"{name}\",") ++ ["]"]) := rfl

/-- The names of a list up to the line that ends it. -/
theorem names_append_inj {names others rest rest' : List String}
    (h : names.map (fun name => s!"    \"{name}\",") ++ "]" :: rest
      = others.map (fun name => s!"    \"{name}\",") ++ "]" :: rest') :
    names = others ∧ rest = rest' := by
  have hquoted : ∀ name : String, s!"    \"{name}\"," ≠ "]" := by
    intro name heq
    have hlists := congrArg (fun s : String => s.toList.head?) heq
    simp only [String.toList_append, List.append_assoc] at hlists
    cases hlists
  induction names generalizing others with
  | nil =>
      cases others with
      | nil => exact ⟨rfl, (List.cons.inj h).2⟩
      | cons other others => exact absurd (List.cons.inj h).1.symm (hquoted other)
  | cons name names ih =>
      cases others with
      | nil => exact absurd (List.cons.inj h).1 (hquoted name)
      | cons other others =>
          obtain ⟨hfirst, hlines⟩ := List.cons.inj h
          rw [String.append_left_inj, String.append_right_inj] at hfirst
          obtain ⟨hnames, hrest⟩ := ih hlines
          have hname : name = other := hfirst
          exact ⟨by rw [hname, hnames], hrest⟩

/-- An export list is read in one way in front of lines that do not start with one of that name. -/
theorem exportBlock_append_inj {listName : String} {names others rest rest' : List String}
    (hrest : rest[2]? ≠ some (exportHead listName))
    (hrest' : rest'[2]? ≠ some (exportHead listName))
    (h : exportBlock listName names ++ rest = exportBlock listName others ++ rest') :
    names = others ∧ rest = rest' := by
  cases names with
  | nil =>
      cases others with
      | nil => exact ⟨rfl, h⟩
      | cons other others =>
          have hrestEq : rest = exportBlock listName (other :: others) ++ rest' := h
          rw [exportBlock_cons] at hrestEq
          rw [hrestEq] at hrest
          exact absurd rfl hrest
  | cons name names =>
      cases others with
      | nil =>
          have hrestEq : exportBlock listName (name :: names) ++ rest = rest' := h
          rw [exportBlock_cons] at hrestEq
          rw [← hrestEq] at hrest'
          exact absurd rfl hrest'
      | cons other others =>
          rw [exportBlock_cons, exportBlock_cons] at h
          simp only [List.cons_append, List.append_assoc, List.nil_append, List.cons.injEq,
            true_and] at h
          exact names_append_inj h

/-- The entries do not start with an export list. -/
theorem getElem?_blocks_ne {entries : List Entry} {listName : String}
    (h : ∀ entry ∈ entries, entry.declaration.Plain)
    (hlist : Name.isIdentifier listName.toList = true) :
    (blocks false entries)[2]? ≠ some (exportHead listName) := by
  have hhead : (exportHead listName).toList = listName.toList ++ [' ', '=', ' ', '['] := by
    rw [exportHead, String.toList_append]
    rfl
  cases entries with
  | nil => exact fun heq => nomatch heq
  | cons entry entries =>
      have hentry := h entry List.mem_cons_self
      cases entry with
      | constant c value =>
          obtain ⟨exposed⟩ := hentry
          rw [blocks_constant]
          intro heq
          have hline : constantLine c value = exportHead listName := Option.some.inj heq
          refine bracket_notMem_constantLine value exposed ?_
          rw [hline, hhead]
          simp
      | struct s layout =>
          obtain ⟨comment, rest, hlines, hcomment⟩ := structLines_eq_cons s layout
          rw [blocks_struct, hlines]
          intro heq
          have hline : comment = exportHead listName := Option.some.inj heq
          obtain ⟨hne, hname⟩ := isNameChar_of_isIdentifier hlist
          obtain ⟨first, others, hcs⟩ := List.exists_cons_of_ne_nil hne
          rw [hline, hhead, hcs] at hcomment
          cases hcomment
          have hbad := hname '#' (hcs ▸ List.mem_cons_self)
          cases hbad

/-! ### The body -/

/-- What comes behind the imports: it has nothing but empty lines where they have their text. -/
theorem getElem?_one_of_sections (names others : List String) (entries : List Entry)
    {line : String}
    (h : (exportBlock exportList names ++ (exportBlock requestList others ++
      blocks false entries))[1]? = some line) : line = "" := by
  cases names with
  | cons name names =>
      rw [exportBlock_cons] at h
      exact (Option.some.inj h).symm
  | nil =>
      cases others with
      | cons other others =>
          have hrequest : (exportBlock requestList (other :: others) ++
              blocks false entries)[1]? = some line := h
          rw [exportBlock_cons] at hrequest
          exact (Option.some.inj hrequest).symm
      | nil =>
          have hblocks : (blocks false entries)[1]? = some line := h
          cases entries with
          | nil => cases hblocks
          | cons entry entries =>
              cases entry with
              | constant c value =>
                  rw [blocks_constant] at hblocks
                  exact (Option.some.inj hblocks).symm
              | struct s layout =>
                  rw [blocks_struct] at hblocks
                  exact (Option.some.inj hblocks).symm

/-- The lines of the imports are read in one way in front of sections. -/
theorem importLines_append_inj {first second : Bool} {rest rest' : List String}
    (hrest : ∀ line, rest[1]? = some line → line = "")
    (hrest' : ∀ line, rest'[1]? = some line → line = "")
    (h : importLines first ++ rest = importLines second ++ rest') : rest = rest' := by
  cases first <;> cases second
  · exact h
  · have hline : rest = importLines true ++ rest' := h
    rw [hline] at hrest
    exact absurd (hrest _ rfl) (by decide)
  · have hline : importLines true ++ rest = rest' := h
    rw [← hline] at hrest'
    exact absurd (hrest' _ rfl) (by decide)
  · exact List.append_right_inj _ |>.mp h

/-- An export list on request in front of the entries does not start one for everyone. -/
theorem getElem?_requests_ne {entries : List Entry} (names : List String)
    (h : ∀ entry ∈ entries, entry.declaration.Plain) :
    (exportBlock requestList names ++ blocks false entries)[2]? ≠ some (exportHead exportList) := by
  cases names with
  | nil => exact getElem?_blocks_ne h (by decide)
  | cons name names =>
      rw [exportBlock_cons]
      intro heq
      have hhead : exportHead requestList = exportHead exportList := Option.some.inj heq
      exact absurd hhead (by decide)

/-- The body of a module is read in one way. -/
theorem eq_of_body_eq {entries others : List Entry}
    (hentries : ∀ entry ∈ entries, entry.declaration.Plain)
    (hothers : ∀ entry ∈ others, entry.declaration.Plain) (h : body entries = body others) :
    exportedUnder .always entries = exportedUnder .always others ∧
      exportedUnder .onRequest entries = exportedUnder .onRequest others ∧
      List.Forall₂ SameEntryLines entries others := by
  rw [body, body, List.append_assoc, List.append_assoc, List.append_assoc, List.append_assoc] at h
  have hsections := importLines_append_inj (fun _ => getElem?_one_of_sections _ _ entries)
    (fun _ => getElem?_one_of_sections _ _ others) h
  obtain ⟨halways, hsections⟩ := exportBlock_append_inj (getElem?_requests_ne _ hentries)
    (getElem?_requests_ne _ hothers) hsections
  have hrequest : Name.isIdentifier requestList.toList = true := by decide
  obtain ⟨honRequest, hblocks⟩ := exportBlock_append_inj (getElem?_blocks_ne hentries hrequest)
    (getElem?_blocks_ne hothers hrequest) hsections
  exact ⟨halways, honRequest, forall₂_of_blocks_eq hentries hothers hblocks⟩

end HeaderBind.Module
