import HeaderBind.Proofs.Draft.Names
import HeaderBind.Proofs.Module.Sections
import HeaderBind.Proofs.Resolution

/-!
# `HeaderBind.Proofs.Module.Injective`: the text of a module loses nothing

Two lists of resolved declarations that are rendered to one text agree in everything that the
module binds: `agree_of_render_eq`. What a text cannot show is the name that a constant has in the
header, and the facts behind a layout.

The lines of the entries give back all but the export modes (`Entry.SameContent`). The modes stand
in the export lists, which say only which names are in them. That is enough, because the
declarations come from one draft, and the book of a draft keeps its exported names apart.
-/

set_option autoImplicit false

namespace HeaderBind

/-- Two resolved declarations that say the same to a module: constants of one exposed name, value
and mode, or one structure with one layout. -/
inductive Resolved.Agree : Resolved → Resolved → Prop
  | constant {c other : Constant} {value : Int} (exposed : c.exposed = other.exposed)
      (mode : c.mode = other.mode) : Agree (.constant c value) (.constant other value)
  | struct {s : Struct} {facts facts' : Probe.StructFacts} {layout : Layout} :
      Agree (.struct s facts layout) (.struct s facts' layout)

namespace Module

namespace Entry

/-- What a resolution and the check of names say about an entry. -/
inductive Sound : Entry → Prop
  | constant {c : Constant} {value : Int} (plain : (Declaration.constant c).Plain) :
      Sound (.constant c value)
  | struct {s : Struct} {layout : Layout} (plain : (Declaration.struct s).Plain)
      (made : layout.MadeFor s.base s.members s.hasTail) : Sound (.struct s layout)

theorem Sound.plain {entry : Entry} (h : entry.Sound) : entry.declaration.Plain := by
  cases h with
  | constant plain => exact plain
  | struct plain made => exact plain

/-- Entries that differ in nothing but the mode, and the name of a constant in the header. -/
inductive SameContent : Entry → Entry → Prop
  | constant {c other : Constant} {value : Int} (exposed : c.exposed = other.exposed) :
      SameContent (.constant c value) (.constant other value)
  | struct {s : Struct} {layout : Layout} (mode : ExportMode) :
      SameContent (.struct s layout) (.struct { s with mode := mode } layout)

theorem SameContent.exportedNames_eq {entry other : Entry} (h : SameContent entry other) :
    entry.declaration.exportedNames = other.declaration.exportedNames := by
  cases h with
  | constant exposed => exact congrArg (fun name => [name]) exposed
  | struct mode => rfl

/-- Entries with the same lines have the same content. -/
theorem sameContent_of_lines {entry other : Entry} (h : entry.Sound) (hother : other.Sound)
    (hlines : SameEntryLines entry other) : SameContent entry other := by
  cases hlines with
  | constant lines =>
      obtain ⟨⟨exposed⟩⟩ := h
      obtain ⟨⟨exposed'⟩⟩ := hother
      obtain ⟨hname, rfl⟩ := eq_of_constantLine_eq exposed exposed' lines
      exact .constant hname
  | @struct s other layout layout' lines =>
      cases h with
      | struct plain made =>
          cases hother with
          | struct plain' made' =>
              obtain ⟨hsame, rfl⟩ := eq_of_structLines_eq plain plain' made made' lines
              rw [hsame]
              exact .struct other.mode

end Entry

/-! ### Modes -/

/-- Every entry exports some name. -/
theorem exists_mem_exportedNames (declaration : Declaration) :
    ∃ name, name ∈ declaration.exportedNames := by
  cases declaration with
  | constant c => exact ⟨c.exposed, List.mem_cons_self⟩
  | struct s => exact ⟨s.encoder, List.mem_cons_self⟩

/-- A name is in the list of a mode exactly when its entry was made under the mode. -/
theorem mem_exportedUnder_iff {entries : List Entry}
    (hnodup : (entries.flatMap fun entry => entry.declaration.exportedNames).Nodup)
    {entry : Entry} {name : String} (hentry : entry ∈ entries)
    (hname : name ∈ entry.declaration.exportedNames) (mode : ExportMode) :
    name ∈ exportedUnder mode entries ↔ entry.declaration.mode = mode := by
  constructor
  · intro hmem
    obtain ⟨other, hother, hname'⟩ := List.mem_flatMap.mp hmem
    obtain ⟨hother, hmode⟩ := List.mem_filter.mp hother
    -- Any other entry with this name would export it a second time.
    rw [eq_of_mem_of_nodup_flatMap hnodup hentry hother hname hname']
    exact eq_of_beq hmode
  · intro hmode
    refine List.mem_flatMap.mpr ⟨entry, List.mem_filter.mpr ⟨hentry, ?_⟩, hname⟩
    rw [hmode]
    exact beq_self_eq_true mode

/-- Modes that agree about both lists are one mode: the third one has no list. -/
theorem eq_of_listed_iff {mode other : ExportMode} (halways : mode = .always ↔ other = .always)
    (honRequest : mode = .onRequest ↔ other = .onRequest) : mode = other := by
  cases mode with
  | always => exact (halways.mp rfl).symm
  | onRequest => exact (honRequest.mp rfl).symm
  | hidden =>
      cases other with
      | always => exact absurd (halways.mpr rfl) (by decide)
      | onRequest => exact absurd (honRequest.mpr rfl) (by decide)
      | hidden => rfl

/-- The export lists decide the mode of each entry. -/
theorem mode_eq_of_exportedUnder_eq {entries others : List Entry}
    (hnodup : (entries.flatMap fun entry => entry.declaration.exportedNames).Nodup)
    (hnodup' : (others.flatMap fun entry => entry.declaration.exportedNames).Nodup)
    (halways : exportedUnder .always entries = exportedUnder .always others)
    (honRequest : exportedUnder .onRequest entries = exportedUnder .onRequest others)
    {entry other : Entry} (hentry : entry ∈ entries) (hother : other ∈ others)
    (hcontent : entry.SameContent other) : entry.declaration.mode = other.declaration.mode := by
  obtain ⟨name, hname⟩ := exists_mem_exportedNames entry.declaration
  have hname' : name ∈ other.declaration.exportedNames := hcontent.exportedNames_eq ▸ hname
  have hiff : entry.declaration.mode = .always ↔ other.declaration.mode = .always := by
    rw [← mem_exportedUnder_iff hnodup hentry hname, halways,
      mem_exportedUnder_iff hnodup' hother hname']
  have hiff' : entry.declaration.mode = .onRequest ↔ other.declaration.mode = .onRequest := by
    rw [← mem_exportedUnder_iff hnodup hentry hname, honRequest,
      mem_exportedUnder_iff hnodup' hother hname']
  exact eq_of_listed_iff hiff hiff'

/-! ### The text -/

theorem declaration_ofResolved (r : Resolved) :
    (Entry.ofResolved r).declaration = r.declaration := by
  cases r <;> rfl

/-- What was resolved makes sound entries. -/
theorem sound_of_resolveOne {found : Entries String} {r : Resolved}
    (hplain : r.declaration.Plain)
    (hresolve : Resolution.resolveOne found r.declaration = .ok r) :
    (Entry.ofResolved r).Sound := by
  cases r with
  | constant c value => exact .constant hplain
  | struct s facts layout =>
      obtain ⟨value, facts', layout', -, hread, hlayout, heq⟩ :=
        Resolution.resolveOne_struct_eq_ok_iff.mp hresolve
      cases heq
      have hmade := Layout.madeFor_of_synthesize hlayout
      rw [Probe.name_of_readStruct hread] at hmade
      exact .struct hplain hmade

/-- What a section of a draft comes to: its entries are sound, and no name is exported twice. -/
theorem sound_of_resolve {draft : Draft} {output : String} {rs : List Resolved}
    (hreachable : draft.Reachable)
    (hplain : ∀ declaration ∈ draft.declarations, declaration.Plain)
    (hresolve : Resolution.resolve draft.declarations output = .ok rs) :
    (∀ entry ∈ rs.map Entry.ofResolved, entry.Sound) ∧
      ((rs.map Entry.ofResolved).flatMap fun entry => entry.declaration.exportedNames).Nodup := by
  obtain ⟨hdeclarations, hresolved⟩ := Resolution.resolveAll_eq_ok_iff.mp hresolve
  constructor
  · intro entry hentry
    obtain ⟨r, hr, rfl⟩ := List.mem_map.mp hentry
    refine sound_of_resolveOne (hplain _ ?_) (hresolved r hr)
    rw [← hdeclarations]
    exact List.mem_map.mpr ⟨r, hr, rfl⟩
  · have hnodup := hreachable.booked.exportedNames_nodup
    rw [← hdeclarations, List.flatMap_map] at hnodup
    rw [List.flatMap_map]
    simp only [declaration_ofResolved]
    exact hnodup

theorem text_of_render {name label text : String} {entries : List Entry}
    (h : render name label entries = .ok text) : Module.text name label entries = text := by
  unfold render at h
  split at h
  · cases h
    rfl
  · cases h

/-- Rendering is injective. Take two sections of the builder, each resolved by the output of some
probe, with names that are ASCII identifiers and structure names on one line. If both are rendered
to one text, for the same name and label, they have the same length and agree at every place. -/
theorem agree_of_render_eq {name label text : String} {draft draft' : Draft}
    {output output' : String} {rs rs' : List Resolved} (hreachable : draft.Reachable)
    (hreachable' : draft'.Reachable)
    (hplain : ∀ declaration ∈ draft.declarations, declaration.Plain)
    (hplain' : ∀ declaration ∈ draft'.declarations, declaration.Plain)
    (hresolve : Resolution.resolve draft.declarations output = .ok rs)
    (hresolve' : Resolution.resolve draft'.declarations output' = .ok rs')
    (hrender : render name label (rs.map Entry.ofResolved) = .ok text)
    (hrender' : render name label (rs'.map Entry.ofResolved) = .ok text) :
    List.Forall₂ Resolved.Agree rs rs' := by
  obtain ⟨hsound, hnodup⟩ := sound_of_resolve hreachable hplain hresolve
  obtain ⟨hsound', hnodup'⟩ := sound_of_resolve hreachable' hplain' hresolve'
  have hentries := fun entry hentry => (hsound entry hentry).plain
  have hentries' := fun entry hentry => (hsound' entry hentry).plain
  have hbody : body (rs.map Entry.ofResolved) = body (rs'.map Entry.ofResolved) :=
    body_eq_of_text_eq (oneLine_of_mem_body hentries) (oneLine_of_mem_body hentries')
      ((text_of_render hrender).trans (text_of_render hrender').symm)
  -- The body gives the export lists and, place by place, the lines of the entries.
  obtain ⟨halways, honRequest, hlines⟩ := eq_of_body_eq hentries hentries' hbody
  rw [List.forall₂_map_left_iff, List.forall₂_map_right_iff, List.forall₂_iff_zip] at hlines
  obtain ⟨hlength, hlines⟩ := hlines
  refine List.forall₂_iff_zip.mpr ⟨hlength, fun {r r'} hpair => ?_⟩
  obtain ⟨hr, hr'⟩ := List.of_mem_zip hpair
  have hentry : Entry.ofResolved r ∈ rs.map Entry.ofResolved := List.mem_map.mpr ⟨r, hr, rfl⟩
  have hentry' : Entry.ofResolved r' ∈ rs'.map Entry.ofResolved := List.mem_map.mpr ⟨r', hr', rfl⟩
  have hcontent :=
    Entry.sameContent_of_lines (hsound _ hentry) (hsound' _ hentry') (hlines hpair)
  have hmode := mode_eq_of_exportedUnder_eq hnodup hnodup' halways honRequest hentry hentry'
    hcontent
  cases r with
  | constant c value =>
      cases r' with
      | constant c' value' =>
          cases hcontent with
          | constant exposed => exact .constant exposed hmode
      | struct s facts layout => cases hcontent
  | struct s facts layout =>
      cases r' with
      | constant c value => cases hcontent
      | struct s' facts' layout' =>
          cases hcontent with
          | struct mode =>
              have hown : s.mode = mode := hmode
              rw [← hown]
              exact .struct

/-- A section with a constant of the header under another name, and a structure. -/
def sampleSection (source : String) : Draft :=
  .drafted [.rename "demo", .addConstant source (some "LIMIT"), .setMode .always,
    .addStruct "struct point" [.named "x" "numeric"] none none true]

/-- What the section is resolved to when the constant is seven. -/
def sampleResolved (source : String) : List Resolved :=
  [.constant ⟨source, "LIMIT", .onRequest⟩ 7,
    .struct ⟨"struct point", "point", ["x"], "encode_point", "decode_point", true, .always⟩
      ⟨4, [⟨"x", 0, 4, true⟩]⟩ ⟨"point", [.integer "x" ⟨.four, true⟩, .trailing], 4⟩]

theorem plain_sampleResolved (source : String) :
    ∀ declaration ∈ (sampleResolved source).map Resolved.declaration, declaration.Plain := by
  intro declaration hmem
  simp only [sampleResolved, List.map_cons, List.map_nil, List.mem_cons, List.not_mem_nil,
    or_false, Resolved.declaration] at hmem
  rcases hmem with rfl | rfl
  · exact .constant (by decide : Name.isIdentifier "LIMIT".toList = true)
  · exact .struct (by decide) (by decide) (by decide) (by decide) (by decide)

/-- The numbers of the sample are short enough to be written. -/
theorem render_sampleResolved (source : String) :
    render "demo" "demo" ((sampleResolved source).map Entry.ofResolved)
      = .ok (Module.text "demo" "demo" ((sampleResolved "LOW").map Entry.ofResolved)) := by
  have hsmall : ∀ n : Int, n.natAbs < Nat.pow 10 1 → Numeral.isWritable n = true := fun n hn =>
    Numeral.isWritable_of_natAbs_lt hn (by decide)
  have hwritable : (((sampleResolved source).map Entry.ofResolved).all fun entry =>
      entry.numbers.all Numeral.isWritable) = true := by
    simp only [sampleResolved, List.map_cons, List.map_nil, Entry.ofResolved, Entry.numbers,
      List.all_cons, List.all_nil, List.filterMap_cons, List.filterMap_nil,
      hsmall 7 (by decide), hsmall ((4 : Nat) : Int) (by decide), Bool.and_true]
  rw [render, if_pos hwritable]
  rfl

theorem agree_of_render_eq_sample :
    ∃ text, render "demo" "demo" ((sampleResolved "LOW").map Entry.ofResolved) = .ok text ∧
      render "demo" "demo" ((sampleResolved "HIGH").map Entry.ofResolved) = .ok text ∧
      List.Forall₂ Resolved.Agree (sampleResolved "LOW") (sampleResolved "HIGH") := by
  have hresolve : Resolution.resolve (sampleSection "LOW").declarations
      "LOW=7\npoint=4,x@0+4s" = .ok (sampleResolved "LOW") := by
    decide +kernel
  have hresolve' : Resolution.resolve (sampleSection "HIGH").declarations
      "HIGH=7\npoint=4,x@0+4s" = .ok (sampleResolved "HIGH") := by
    decide +kernel
  have hplain := plain_sampleResolved "LOW"
  have hplain' := plain_sampleResolved "HIGH"
  rw [(Resolution.resolveAll_eq_ok_iff.mp hresolve).1] at hplain
  rw [(Resolution.resolveAll_eq_ok_iff.mp hresolve').1] at hplain'
  exact ⟨_, render_sampleResolved "LOW", render_sampleResolved "HIGH",
    agree_of_render_eq (Draft.reachable_drafted _) (Draft.reachable_drafted _) hplain hplain'
      hresolve hresolve' (render_sampleResolved "LOW") (render_sampleResolved "HIGH")⟩

end Module

end HeaderBind
